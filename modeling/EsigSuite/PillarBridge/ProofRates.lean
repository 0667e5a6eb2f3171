import EsigSuite.PillarBridge.ProofRuns

/-!
# The cap of each sender

While a process lives and its clock does not go back, no minute has more envelopes of
one sender past the cap, and only a sender that has used up its own cap is refused.
-/

namespace EsigSuite.PillarBridge.ProofSource

open Lib

/-- When envelopes of a sender got past the cap, the latest first. -/
def timesOf (sender : JsString) : List Event → List Int
  | [] => []
  | .admitted envelope now _ :: past =>
    if envelope.sender = sender then now :: timesOf sender past else timesOf sender past
  | _ :: past => timesOf sender past

/-- Those within the minute before a time. -/
def lastMinute (sender : JsString) (events : List Event) (now : Int) : List Int :=
  (timesOf sender events).filter fun t => now - RATE_WINDOW_MS < t

section
variable (pillar : Pillar) (opts : PillarProofSourceOptions)

/-- What an envelope has passed when its sender's cap is looked at. -/
structure Eligible (source : PillarProofSource) (envelope : PillarEnvelope) (now : Int) : Prop where
  kind : envelope.kind = js "esig:identity-proof"
  unseen : isSeen source.state.seenEnvelopeIds envelope.id = false
  size : serializedBytes envelope ≤ opts.sizeCap
  opened : pillar.opens envelope = true
  allowed : opts.allows envelope.sender now = true

/-- An envelope gets past the cap where fewer than the cap did in the minute before. -/
def Within : List Event → Event → Prop
  | past, .admitted envelope now _ =>
    (lastMinute envelope.sender past now).length < opts.senderCap
  | _, _ => True

end

/-- The windows hold what got past the cap in the minute before any later time. -/
def Tracks (windows : Windows) (events : List Event) (clock : Int) : Prop :=
  ∀ sender now, clock ≤ now → recentOf windows sender now = (lastMinute sender events now).reverse

section
variable {pillar : Pillar} {opts : PillarProofSourceOptions} {source : PillarProofSource}
  {envelope : PillarEnvelope} {windows : Windows} {events : List Event} {sender : JsString}
  {now clock : Int} {cap : Nat}

/-- A later minute begins later. -/
theorem filter_filter_minute {now' : Int} (h : now ≤ now') (times : List Int) :
    (times.filter fun t => now - RATE_WINDOW_MS < t).filter (fun t => now' - RATE_WINDOW_MS < t) =
      times.filter fun t => now' - RATE_WINDOW_MS < t := by
  rw [List.filter_filter]
  refine List.filter_congr fun t _ => ?_
  rw [Bool.and_eq_left_iff_imp]
  intro hlater
  simp only [decide_eq_true_eq] at hlater ⊢
  omega

theorem recentOf_set (windows : Windows) (sender other : JsString) (times : List Int) (now : Int) :
    recentOf (OrderedMap.set windows sender times) other now =
      if other = sender then times.filter fun t => now - RATE_WINDOW_MS < t
      else recentOf windows other now := by
  unfold recentOf
  split_ifs with h
  · rw [h, OrderedMap.get_set_self]
    rfl
  · rw [OrderedMap.get_set_of_ne _ h]

/-- What the handling of an envelope does to the windows. -/
theorem handleEnvelope_budget (pillar : Pillar) (opts : PillarProofSourceOptions)
    (source : PillarProofSource) (envelope : PillarEnvelope) (now : Int) :
    (¬ Eligible pillar opts source envelope now ∧
      (handleEnvelope pillar opts source envelope now).1.senderRateWindows = source.senderRateWindows ∧
      (handleEnvelope pillar opts source envelope now).2 = []) ∨
    (opts.senderCap ≤ (recentOf source.senderRateWindows envelope.sender now).length ∧
      (handleEnvelope pillar opts source envelope now).1.senderRateWindows =
        OrderedMap.set source.senderRateWindows envelope.sender
          (recentOf source.senderRateWindows envelope.sender now) ∧
      (handleEnvelope pillar opts source envelope now).2 = []) ∨
    ((recentOf source.senderRateWindows envelope.sender now).length < opts.senderCap ∧
      (handleEnvelope pillar opts source envelope now).1.senderRateWindows =
        OrderedMap.set source.senderRateWindows envelope.sender
          (recentOf source.senderRateWindows envelope.sender now ++ [now]) ∧
      ∃ proof, (handleEnvelope pillar opts source envelope now).2 = [.admitted envelope now proof]) := by
  unfold handleEnvelope
  split_ifs with hkind hseen hsize hopen hallow
  · exact .inl ⟨fun h => hkind h.kind, rfl, rfl⟩
  · exact .inl ⟨fun h => absurd hseen (by rw [h.unseen]; exact Bool.false_ne_true), rfl, rfl⟩
  · exact .inl ⟨fun h => absurd hsize (Nat.not_lt.mpr h.size), rfl, rfl⟩
  · exact .inl ⟨fun h => by simp [h.opened] at hopen, rfl, rfl⟩
  · exact .inl ⟨fun h => by simp [h.allowed] at hallow, rfl, rfl⟩
  · refine .inr ?_
    by_cases hcap : opts.senderCap ≤ (recentOf source.senderRateWindows envelope.sender now).length
    · simp only [consumeRateBudget, hcap, if_true, Bool.not_false]
      exact .inl ⟨trivial, trivial, trivial⟩
    · refine .inr ⟨Nat.not_le.mp hcap, ?_⟩
      simp only [consumeRateBudget, hcap, if_false, Bool.not_true, Bool.false_eq_true]
      cases proofOf pillar envelope now with
      | none => exact ⟨rfl, none, rfl⟩
      | some proof => exact ⟨rfl, some proof, rfl⟩

theorem Tracks.later (h : Tracks windows events clock) (hclock : clock ≤ now) :
    Tracks windows events now := fun sender now' hnow => h sender now' (Int.le_trans hclock hnow)

theorem Tracks.handle (pillar : Pillar) (opts : PillarProofSourceOptions) (envelope : PillarEnvelope)
    (h : Tracks source.senderRateWindows events clock) (hclock : clock ≤ now) :
    Tracks (handleEnvelope pillar opts source envelope now).1.senderRateWindows
      ((handleEnvelope pillar opts source envelope now).2 ++ events) now := by
  have hrecent := h envelope.sender now hclock
  rcases handleEnvelope_budget pillar opts source envelope now with
    ⟨-, hwindows, hevents⟩ | ⟨-, hwindows, hevents⟩ | ⟨-, hwindows, proof, hevents⟩
  · rw [hwindows, hevents]
    exact h.later hclock
  · rw [hwindows, hevents]
    intro sender now' hnow
    rw [recentOf_set]
    split_ifs with hsender
    · subst hsender
      rw [hrecent, List.filter_reverse, lastMinute, filter_filter_minute hnow]
      rfl
    · exact h sender now' (Int.le_trans hclock hnow)
  · rw [hwindows, hevents]
    intro sender now' hnow
    rw [recentOf_set]
    split_ifs with hsender
    · subst hsender
      rw [hrecent, List.filter_append, List.filter_reverse, lastMinute, filter_filter_minute hnow]
      simp only [lastMinute, List.singleton_append, timesOf, if_true, List.filter_cons]
      split_ifs <;> simp
    · rw [h sender now' (Int.le_trans hclock hnow)]
      simp only [lastMinute, List.singleton_append, timesOf, if_neg (Ne.symm hsender)]

theorem Tracks.within (pillar : Pillar) (envelope : PillarEnvelope)
    (h : Tracks source.senderRateWindows events clock) (hclock : clock ≤ now) (heach : Each (Within opts) events) :
    Each (Within opts) ((handleEnvelope pillar opts source envelope now).2 ++ events) := by
  rcases handleEnvelope_budget pillar opts source envelope now with
    ⟨-, -, hevents⟩ | ⟨-, -, hevents⟩ | ⟨hroom, -, proof, hevents⟩
  · rw [hevents]
    exact heach
  · rw [hevents]
    exact heach
  · rw [hevents]
    refine ⟨?_, heach⟩
    rw [h envelope.sender now hclock, List.length_reverse] at hroom
    exact hroom

theorem Tracks.handleAll (pillar : Pillar) (opts : PillarProofSourceOptions) {fetched : List Fetched}
    (h : Tracks source.senderRateWindows events clock)
    (heach : Each (Within opts) events) (hclock : ∀ one ∈ fetched, clock ≤ one.now)
    (htimes : fetched.Pairwise fun a b => a.now ≤ b.now) {last : Int}
    (hlast : ∀ one ∈ fetched, one.now ≤ last) (hle : clock ≤ last) :
    Tracks (handleAll pillar opts source fetched).1.senderRateWindows
      ((handleAll pillar opts source fetched).2 ++ events) last ∧
    Each (Within opts) ((handleAll pillar opts source fetched).2 ++ events) := by
  induction fetched generalizing source events clock with
  | nil => exact ⟨h.later hle, heach⟩
  | cons one rest ih =>
    obtain ⟨hone, hrest⟩ := List.pairwise_cons.mp htimes
    have hnow := hclock one List.mem_cons_self
    have hadvanced : Tracks (source.advance one.seq).senderRateWindows events clock := h
    have hmore := ih (hadvanced.handle pillar opts one.envelope hnow)
      (hadvanced.within pillar one.envelope hnow heach) hone hrest
      (fun two htwo => hlast two (List.mem_cons_of_mem _ htwo)) (hlast one List.mem_cons_self)
    rw [← List.append_assoc] at hmore
    exact hmore

/-- A minute that ends at an admission holds the most. -/
theorem window_le (h : Each (Within opts) events) (sender : JsString) (start : Int) :
    ((timesOf sender events).filter fun t => start < t ∧ t ≤ start + RATE_WINDOW_MS).length ≤
      opts.senderCap := by
  induction events with
  | nil => exact Nat.zero_le _
  | cons event past ih =>
    obtain ⟨hwithin, hpast⟩ := h
    cases event with
    | saved | torn | restarted => exact ih hpast
    | admitted envelope now proof =>
      rw [timesOf]
      split_ifs with hsender
      swap
      · exact ih hpast
      rw [List.filter_cons]
      split_ifs with hin
      swap
      · exact ih hpast
      subst hsender
      have hwithin : (lastMinute envelope.sender past now).length < opts.senderCap := hwithin
      have hsub : ((timesOf envelope.sender past).filter fun t =>
          start < t ∧ t ≤ start + RATE_WINDOW_MS).length ≤
            (lastMinute envelope.sender past now).length := by
        simp only [decide_eq_true_eq] at hin
        refine (List.monotone_filter_right _ fun t ht => ?_).length_le
        simp only [decide_eq_true_eq] at ht ⊢
        omega
      rw [List.length_cons]
      omega

/-- Times between which everything is handled. -/
theorem exists_span (fetched : List Fetched) :
    ∃ clock last, clock ≤ last ∧ ∀ one ∈ fetched, clock ≤ one.now ∧ one.now ≤ last := by
  induction fetched with
  | nil => exact ⟨0, 0, Int.le_refl 0, fun _ h => by cases h⟩
  | cons one rest ih =>
    obtain ⟨clock, last, -, hrest⟩ := ih
    refine ⟨min one.now clock, max one.now last,
      Int.le_trans (min_le_left _ _) (le_max_left _ _), fun two htwo => ?_⟩
    rcases List.mem_cons.mp htwo with rfl | htwo
    · exact ⟨min_le_left _ _, le_max_left _ _⟩
    · obtain ⟨hclock, hlast⟩ := hrest two htwo
      exact ⟨Int.le_trans (min_le_right _ _) hclock, Int.le_trans hlast (le_max_right _ _)⟩

theorem tracks_new (hstart : source.senderRateWindows = []) (clock : Int) :
    Tracks source.senderRateWindows [] clock := by
  intro sender now _
  rw [hstart]
  rfl

/-- From the start of a process on, for envelopes in the order of their times. -/
theorem sender_capped {fetched : List Fetched} (hstart : source.senderRateWindows = [])
    (htimes : fetched.Pairwise fun a b => a.now ≤ b.now) :
    (∀ sender start, ((timesOf sender (handleAll pillar opts source fetched).2).filter fun t =>
      start < t ∧ t ≤ start + RATE_WINDOW_MS).length ≤ opts.senderCap) ∧
    ∀ before one after, fetched = before ++ one :: after →
      Eligible pillar opts (handleAll pillar opts source before).1 one.envelope one.now →
      ((handleEnvelope pillar opts ((handleAll pillar opts source before).1.advance one.seq)
          one.envelope one.now).2 = [] ↔
        opts.senderCap ≤
          (lastMinute one.envelope.sender (handleAll pillar opts source before).2 one.now).length) := by
  constructor
  · intro sender start
    obtain ⟨clock, last, hle, hspan⟩ := exists_span fetched
    have heach := ((tracks_new hstart clock).handleAll pillar opts trivial
      (fun one hone => (hspan one hone).1) htimes (fun one hone => (hspan one hone).2) hle).2
    rw [List.append_nil] at heach
    exact window_le heach sender start
  · rintro before one after rfl heligible
    obtain ⟨hbefore, -, hone⟩ := List.pairwise_append.mp htimes
    obtain ⟨clock, last, hle, hspan⟩ := exists_span (one :: before)
    have htracks := ((tracks_new hstart clock).handleAll pillar opts trivial
      (fun two htwo => (hspan two (List.mem_cons_of_mem _ htwo)).1) hbefore
      (fun two htwo => hone two htwo one List.mem_cons_self)
      (hspan one List.mem_cons_self).1).1
    rw [List.append_nil] at htracks
    have hrecent := htracks one.envelope.sender one.now (Int.le_refl _)
    rw [← List.length_reverse, ← hrecent]
    rcases handleEnvelope_budget pillar opts ((handleAll pillar opts source before).1.advance one.seq)
      one.envelope one.now with ⟨hnot, -, -⟩ | ⟨hfull, -, hevents⟩ | ⟨hroom, -, proof, hevents⟩
    · exact absurd ⟨heligible.kind, heligible.unseen, heligible.size, heligible.opened,
        heligible.allowed⟩ hnot
    · exact ⟨fun _ => hfull, fun _ => hevents⟩
    · rw [hevents]
      exact ⟨fun h => absurd h (List.cons_ne_nil _ _), fun h => absurd h (Nat.not_le.mpr hroom)⟩

end

namespace Sample

/-- Another one of the same sender. -/
def second : PillarEnvelope where
  json := .object [textMember "id" "env_2", textMember "sender" "uuaid:foundation:agent:a",
    textMember "kind" "esig:identity-proof"]
  id := js "env_2"
  sender := js "uuaid:foundation:agent:a"
  kind := js "esig:identity-proof"
  hasId := rfl
  hasSender := rfl
  hasKind := rfl

def both : List Fetched := [⟨0, envelope, 1000⟩, ⟨1, second, 1500⟩]

theorem first_taken : (handleAll pillar opts {} [⟨0, envelope, 1000⟩]).2 =
    [.admitted envelope 1000 (some proof)] := @taken 1000 (by decide)

theorem second_eligible :
    Eligible pillar opts (handleAll pillar opts {} [⟨0, envelope, 1000⟩]).1 second 1500 where
  kind := rfl
  unseen := by decide +kernel
  size := by decide +kernel
  opened := rfl
  allowed := by decide +kernel

end Sample

/-- With a cap of one. -/
theorem sender_capped_second :
    (handleEnvelope Sample.pillar Sample.opts
      ((handleAll Sample.pillar Sample.opts {} [⟨0, Sample.envelope, 1000⟩]).1.advance 1)
      Sample.second 1500).2 = [] := by
  have htimes : Sample.both.Pairwise fun a b => a.now ≤ b.now := by
    simp [Sample.both]
  refine ((sender_capped rfl htimes).2 [⟨0, Sample.envelope, 1000⟩] _ [] rfl
    Sample.second_eligible).mpr ?_
  rw [Sample.first_taken]
  decide +kernel

end EsigSuite.PillarBridge.ProofSource
