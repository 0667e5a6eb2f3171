import EsigSuite.Lib.History
import EsigSuite.PillarBridge.ProofSource
import Mathlib.Logic.Relation

/-!
# Runs of the source of identity proofs

What reaches `onProof` has passed every check, and an envelope reaches it a second
time only when what was seen has become too old or too much, or was not on file when
the process started again.
-/

namespace EsigSuite.PillarBridge.ProofSource

open Lib

/-- `onProof` was called for an envelope of this id. -/
def Delivered (history : List Event) (id : JsString) (now : Int) : Prop :=
  ∃ envelope proof, envelope.id = id ∧ Event.admitted envelope now (some proof) ∈ history

/-- Whether the file was written whole in these events, and not torn since. -/
def onFile : List Event → Bool
  | .saved :: _ => true
  | .torn :: _ => false
  | _ :: past => onFile past
  | [] => false

/-- Whether a process has started without what was seen before these events. -/
def forgets : List Event → Bool
  | .restarted :: past => !onFile past || forgets past
  | _ :: past => forgets past
  | [] => false

/-- Why what was seen at a time may have been dropped. -/
inductive Excused (history : List Event) (id : JsString) (now : Int) : Prop
  | aged (other : JsString) (later : Int) (delivered : Delivered history other later)
      (old : now + MAX_SEEN_AGE_MS < later)
  | crowded (others : List JsString) (nodup : others.Nodup)
      (many : others.length = MAX_SEEN_ENVELOPE_IDS) (apart : id ∉ others)
      (newer : ∀ other ∈ others, ∃ later, now ≤ later ∧ Delivered history other later)

section
variable (pillar : Pillar) (opts : PillarProofSourceOptions)

/-- The checks of an envelope whose proof is handed over. -/
structure Accepted (envelope : PillarEnvelope) (now : Int) (proof : IdentityProofEvent) : Prop where
  kind : envelope.kind = js "esig:identity-proof"
  size : serializedBytes envelope ≤ opts.sizeCap
  opened : pillar.opens envelope = true
  allowed : opts.allows envelope.sender now = true
  payload : ∃ value payload expiresAt, pillar.decrypt envelope = some value ∧
    isIdentityProofPayload value = some payload ∧
    pillar.dateParse payload.expiresAt = some expiresAt ∧ now < expiresAt ∧
    proof = ⟨payload.envelopeId, payload.signerId, payload.uuaid, payload.proof,
      payload.credential, envelope.sender, envelope.id⟩

/-- What holds when `onProof` is called. -/
def Fresh (past : List Event) : Event → Prop
  | .admitted envelope now (some proof) => Accepted pillar opts envelope now proof ∧
      ∀ between earlier t proof' older, past = between ++ .admitted earlier t (some proof') :: older →
        earlier.id = envelope.id → (∀ t', ¬ Delivered between envelope.id t') →
        Excused past envelope.id t ∨ forgets between = true
  | _ => True

end

/-- What a set of seen envelopes keeps of a history: the last delivery of each id, where
`P` holds of the events since. -/
structure Keeps (P : List Event → Prop) (history : List Event) (seen : Seen) : Prop where
  keys : (seen.map (·.1)).Nodup
  few : seen.length ≤ MAX_SEEN_ENVELOPE_IDS
  real : ∀ entry ∈ seen, Delivered history entry.1 entry.2
  held : ∀ later envelope t proof past, history = later ++ .admitted envelope t (some proof) :: past →
    (∀ t', ¬ Delivered later envelope.id t') → P later →
    (envelope.id, t) ∈ seen ∨ Excused history envelope.id t ∨ forgets later = true

structure World.Ok (pillar : Pillar) (opts : PillarProofSourceOptions) (world : World) : Prop where
  memory : Keeps (fun _ => True) world.history world.source.state.seenEnvelopeIds
  file : Keeps (onFile · = true) world.history (world.file.getD {}).seenEnvelopeIds
  fresh : Each (Fresh pillar opts) world.history

-- ---------------------------------------------------------------------------
-- The set of seen envelopes
-- ---------------------------------------------------------------------------

section
variable {seen : Seen} {id other : JsString} {now t : Int} {history : List Event} {event : Event}

theorem Delivered.cons (h : Delivered history id t) (event : Event) :
    Delivered (event :: history) id t := by
  obtain ⟨envelope, proof, hid, hmem⟩ := h
  exact ⟨envelope, proof, hid, List.mem_cons_of_mem _ hmem⟩

theorem Excused.cons (h : Excused history id t) (event : Event) : Excused (event :: history) id t := by
  cases h with
  | aged other later delivered old => exact .aged other later (delivered.cons event) old
  | crowded others nodup many apart newer =>
    refine .crowded others nodup many apart fun other hother => ?_
    obtain ⟨later, hle, hdelivered⟩ := newer other hother
    exact ⟨later, hle, hdelivered.cons event⟩

theorem entriesOf_perm (seen : Seen) : (entriesOf seen).Perm seen :=
  ((List.perm_insertionSort _ _).append_right _).trans (List.filter_append_perm _ seen)

theorem not_mem_of_not_seen (h : isSeen seen id = false) : (id, t) ∉ seen := by
  intro hmem
  have hget : OrderedMap.get seen id = none := by
    unfold isSeen at h
    rw [Bool.or_eq_false_iff] at h
    exact Option.not_isSome_iff_eq_none.mp (by rw [h.1]; exact Bool.false_ne_true)
  rw [OrderedMap.get, Option.map_eq_none_iff, List.find?_eq_none] at hget
  exact hget _ hmem (by simp)

theorem set_of_not_seen (h : isSeen seen id = false) :
    OrderedMap.set seen id now = seen ++ [(id, now)] := by
  rw [OrderedMap.set, if_neg]
  intro hany
  obtain ⟨⟨key, t⟩, hmem, hkey⟩ := List.any_eq_true.mp hany
  obtain rfl : key = id := by simpa using hkey
  exact not_mem_of_not_seen h hmem

theorem concat_keys (hkeys : (seen.map (·.1)).Nodup) (now : Int) (h : isSeen seen id = false) :
    ((seen ++ [(id, now)]).map (·.1)).Nodup := by
  rw [List.map_append, List.nodup_append]
  refine ⟨hkeys, List.nodup_singleton _, ?_⟩
  rintro key hkey _ hlast rfl
  obtain ⟨⟨_, t⟩, hentry, rfl⟩ := List.mem_map.mp hkey
  rw [List.map_cons, List.map_nil, List.mem_singleton] at hlast
  dsimp only at hlast
  rw [hlast] at hentry
  exact not_mem_of_not_seen h hentry

theorem mem_pruneSeen {entry : JsString × Int} (h : entry ∈ pruneSeen seen now) : entry ∈ seen := by
  have hsorted := mem_of_mem_window h
  rw [List.mem_insertionSort] at hsorted
  exact (entriesOf_perm seen).mem_iff.mp (List.mem_of_mem_filter hsorted)

theorem length_pruneSeen_le : (pruneSeen seen now).length ≤ MAX_SEEN_ENVELOPE_IDS := by
  rw [pruneSeen, length_window]
  exact min_le_left _ _

/-- What is left of the entries before the last ones are taken. -/
theorem sorted_keys (h : (seen.map (·.1)).Nodup) (now : Int) :
    ((((entriesOf seen).filter fun entry => now - MAX_SEEN_AGE_MS ≤ entry.2).insertionSort
      fun a b => a.2 ≤ b.2).map (·.1)).Nodup := by
  have hentries : ((entriesOf seen).map (·.1)).Nodup :=
    ((entriesOf_perm seen).map _).nodup_iff.mpr h
  refine ((List.perm_insertionSort _ _).map _).nodup_iff.mpr ?_
  exact hentries.sublist (List.filter_sublist.map _)

theorem pruneSeen_keys (h : (seen.map (·.1)).Nodup) : ((pruneSeen seen now).map (·.1)).Nodup :=
  (sorted_keys h now).sublist ((List.drop_sublist _ _).map _)

/-- An entry is kept, too old, or older than as many others as are kept. -/
theorem pruneSeen_cases (hkeys : (seen.map (·.1)).Nodup) (hmem : (id, t) ∈ seen) :
    (id, t) ∈ pruneSeen seen now ∨ t < now - MAX_SEEN_AGE_MS ∨
      (pruneSeen seen now).length = MAX_SEEN_ENVELOPE_IDS ∧
        id ∉ (pruneSeen seen now).map (·.1) ∧ ∀ entry ∈ pruneSeen seen now, t ≤ entry.2 := by
  by_cases hage : now - MAX_SEEN_AGE_MS ≤ t
  swap
  · exact .inr (.inl (Int.not_le.mp hage))
  set sorted := ((entriesOf seen).filter fun entry => now - MAX_SEEN_AGE_MS ≤ entry.2).insertionSort
    fun a b => a.2 ≤ b.2 with hsorted
  have hprune : pruneSeen seen now = window MAX_SEEN_ENVELOPE_IDS sorted := rfl
  have hin : (id, t) ∈ sorted := by
    rw [hsorted, List.mem_insertionSort, List.mem_filter]
    exact ⟨(entriesOf_perm seen).mem_iff.mpr hmem, by simpa using hage⟩
  rw [hprune]
  rw [← spilled_append_window MAX_SEEN_ENVELOPE_IDS sorted, List.mem_append] at hin
  rcases hin with hspilled | hkept
  · right; right
    have hsplit := spilled_append_window MAX_SEEN_ENVELOPE_IDS sorted
    have hnodup : (sorted.map (·.1)).Nodup := sorted_keys hkeys now
    have hordered : sorted.Pairwise fun a b => a.2 ≤ b.2 := List.pairwise_insertionSort _ _
    rw [← hsplit, List.map_append, List.nodup_append] at hnodup
    rw [← hsplit, List.pairwise_append] at hordered
    refine ⟨length_window_of_spilled hspilled, fun hid => ?_, fun entry hentry =>
      hordered.2.2 _ hspilled _ hentry⟩
    exact hnodup.2.2 id (List.mem_map.mpr ⟨_, hspilled, rfl⟩) id hid rfl
  · exact .inl hkept

end

-- ---------------------------------------------------------------------------
-- What one event does
-- ---------------------------------------------------------------------------

section
variable {pillar : Pillar} {opts : PillarProofSourceOptions} {P P' : List Event → Prop}
  {seen : Seen} {history : List Event} {event : Event} {envelope : PillarEnvelope} {now : Int}
  {proof : IdentityProofEvent}

/-- Where the set stays as it is. -/
theorem Keeps.push (h : Keeps P history seen)
    (hnew : ∀ envelope t proof, event = .admitted envelope t (some proof) → ¬ P' [])
    (hlater : ∀ later, P' (event :: later) → P later ∨ forgets (event :: later) = true)
    (hforgets : ∀ later, forgets later = true → forgets (event :: later) = true) :
    Keeps P' (event :: history) seen where
  keys := h.keys
  few := h.few
  real entry hentry := (h.real entry hentry).cons event
  held later envelope t proof past hhistory hnone hP := by
    cases later with
    | nil =>
      rw [List.nil_append, List.cons.injEq] at hhistory
      exact absurd hP (hnew _ _ _ hhistory.1)
    | cons last later =>
      rw [List.cons_append, List.cons.injEq] at hhistory
      obtain ⟨rfl, hhistory⟩ := hhistory
      rcases hlater later hP with hP | hforgot
      · have hbefore : ∀ t', ¬ Delivered later envelope.id t' := fun t' hdelivered =>
          hnone t' (hdelivered.cons event)
        rcases h.held later envelope t proof past hhistory hbefore hP with hseen | hexcused | hforgot
        · exact .inl hseen
        · exact .inr (.inl (hexcused.cons event))
        · exact .inr (.inr (hforgets later hforgot))
      · exact .inr (.inr hforgot)

/-- A set that nothing is asked of. -/
theorem Keeps.nothing (h : ∀ later, ¬ P (event :: later)) (hnew : ¬ P []) :
    Keeps P (event :: history) [] where
  keys := List.nodup_nil
  few := Nat.zero_le _
  real _ hentry := by cases hentry
  held later envelope t proof past hhistory hnone hP := by
    cases later with
    | nil => exact absurd hP hnew
    | cons last later =>
      rw [List.cons_append, List.cons.injEq] at hhistory
      exact absurd (hhistory.1 ▸ hP) (h later)

/-- An entry of the set is still there after `markSeen`, or excused. -/
theorem markSeen_cases (hreal : ∀ entry ∈ seen, Delivered history entry.1 entry.2)
    (hkeys : (seen.map (·.1)).Nodup) (hunseen : isSeen seen envelope.id = false) {id : JsString}
    {t : Int} (hmem : (id, t) ∈ seen ++ [(envelope.id, now)]) :
    (id, t) ∈ markSeen seen envelope.id now ∨
      Excused (.admitted envelope now (some proof) :: history) id t := by
  have hset : OrderedMap.set seen envelope.id now = seen ++ [(envelope.id, now)] :=
    set_of_not_seen hunseen
  have hlast : Delivered (.admitted envelope now (some proof) :: history) envelope.id now :=
    ⟨envelope, proof, rfl, List.mem_cons_self⟩
  have hall : ∀ entry ∈ seen ++ [(envelope.id, now)],
      Delivered (.admitted envelope now (some proof) :: history) entry.1 entry.2 := by
    intro entry hentry
    rcases List.mem_append.mp hentry with hentry | hentry
    · exact (hreal entry hentry).cons _
    · rw [List.mem_singleton.mp hentry]
      exact hlast
  have hnodup := concat_keys hkeys now hunseen
  unfold markSeen
  rw [hset]
  rcases pruneSeen_cases hnodup hmem with hkept | hold | ⟨hmany, hapart, hnewer⟩
  · exact .inl hkept
  · exact .inr (.aged envelope.id now hlast (Int.add_lt_of_lt_sub_right hold))
  · refine .inr (.crowded _ (pruneSeen_keys hnodup) ?_ hapart ?_)
    · rw [List.length_map]
      exact hmany
    intro other hother
    obtain ⟨⟨_, later⟩, hentry, rfl⟩ := List.mem_map.mp hother
    exact ⟨later, hnewer _ hentry, hall _ (mem_pruneSeen hentry)⟩

theorem Keeps.mark (h : Keeps (fun _ => True) history seen)
    (hunseen : isSeen seen envelope.id = false) :
    Keeps (fun _ => True) (.admitted envelope now (some proof) :: history)
      (markSeen seen envelope.id now) where
  keys := by
    unfold markSeen
    rw [set_of_not_seen hunseen]
    exact pruneSeen_keys (concat_keys h.keys now hunseen)
  few := length_pruneSeen_le
  real entry hentry := by
    have hmem := mem_pruneSeen hentry
    rw [set_of_not_seen hunseen] at hmem
    rcases List.mem_append.mp hmem with hmem | hmem
    · exact (h.real entry hmem).cons _
    · rw [List.mem_singleton.mp hmem]
      exact ⟨envelope, proof, rfl, List.mem_cons_self⟩
  held later earlier t proof' past hhistory hnone _ := by
    cases later with
    | nil =>
      rw [List.nil_append, List.cons.injEq, Event.admitted.injEq] at hhistory
      obtain ⟨⟨rfl, rfl, -⟩, -⟩ := hhistory
      exact (markSeen_cases h.real h.keys hunseen
        (List.mem_append_right _ List.mem_cons_self)).imp_right .inl
    | cons last later =>
      rw [List.cons_append, List.cons.injEq] at hhistory
      obtain ⟨rfl, hhistory⟩ := hhistory
      have hbefore : ∀ t', ¬ Delivered later earlier.id t' := fun t' hdelivered =>
        hnone t' (hdelivered.cons _)
      rcases h.held later earlier t proof' past hhistory hbefore trivial with
        hseen | hexcused | hforgot
      · exact (markSeen_cases h.real h.keys hunseen
          (List.mem_append_left _ hseen)).imp_right .inl
      · exact .inr (.inl (hexcused.cons _))
      · exact .inr (.inr hforgot)

/-- What is handed over has not been seen. -/
theorem Keeps.fresh (h : Keeps (fun _ => True) history seen)
    (hunseen : isSeen seen envelope.id = false) (haccepted : Accepted pillar opts envelope now proof) :
    Fresh pillar opts history (.admitted envelope now (some proof)) := by
  refine ⟨haccepted, fun between earlier t proof' older hhistory hid hnone => ?_⟩
  rw [← hid] at hnone ⊢
  rcases h.held between earlier t proof' older hhistory hnone trivial with hseen | hrest
  · rw [hid] at hseen
    exact absurd hseen (not_mem_of_not_seen hunseen)
  · exact hrest

end

-- ---------------------------------------------------------------------------
-- Runs
-- ---------------------------------------------------------------------------

section
variable {pillar : Pillar} {opts : PillarProofSourceOptions} {source after : PillarProofSource}
  {file : Option ProofSourceState} {history events : List Event} {world world' : World}

theorem Accepted.of_proofOf {envelope : PillarEnvelope} {now : Int} {proof : IdentityProofEvent}
    (hkind : envelope.kind = js "esig:identity-proof") (hsize : serializedBytes envelope ≤ opts.sizeCap)
    (hopened : pillar.opens envelope = true) (hallowed : opts.allows envelope.sender now = true)
    (hproof : proofOf pillar envelope now = some proof) : Accepted pillar opts envelope now proof := by
  refine ⟨hkind, hsize, hopened, hallowed, ?_⟩
  obtain ⟨payload, hpayload, hrest⟩ := Option.bind_eq_some_iff.mp hproof
  obtain ⟨value, hvalue, hshape⟩ := Option.bind_eq_some_iff.mp hpayload
  obtain ⟨expiresAt, hexpires, hlast⟩ := Option.bind_eq_some_iff.mp hrest
  split_ifs at hlast with hexpired
  exact ⟨value, payload, expiresAt, hvalue, hshape, hexpires, Int.not_le.mp hexpired,
    (Option.some.inj hlast).symm⟩

/-- What the handling of one envelope does. -/
theorem handleEnvelope_cases (pillar : Pillar) (opts : PillarProofSourceOptions)
    (source : PillarProofSource) (envelope : PillarEnvelope) (now : Int) :
    ((handleEnvelope pillar opts source envelope now).1.state = source.state ∧
      ((handleEnvelope pillar opts source envelope now).2 = [] ∨
        (handleEnvelope pillar opts source envelope now).2 = [.admitted envelope now none])) ∨
    ∃ proof, Accepted pillar opts envelope now proof ∧
      isSeen source.state.seenEnvelopeIds envelope.id = false ∧
      (handleEnvelope pillar opts source envelope now).1.state.seenEnvelopeIds =
        markSeen source.state.seenEnvelopeIds envelope.id now ∧
      (handleEnvelope pillar opts source envelope now).2 = [.admitted envelope now (some proof)] := by
  unfold handleEnvelope
  split_ifs with hkind hseen hsize hopen hallow
  iterate 5 exact .inl ⟨rfl, .inl rfl⟩
  rcases consumeRateBudget opts.senderCap source.senderRateWindows envelope.sender now with
    ⟨within, windows⟩
  cases within with
  | false => exact .inl ⟨rfl, .inl rfl⟩
  | true =>
    cases hproof : proofOf pillar envelope now with
    | none => exact .inl ⟨rfl, .inr rfl⟩
    | some proof =>
      refine .inr ⟨proof, .of_proofOf (not_not.mp hkind) (not_lt.mp hsize) ?_ ?_ hproof, ?_, ?_⟩
      · simpa using hopen
      · simpa using hallow
      · simpa using hseen
      · simp only [Bool.not_true, Bool.false_eq_true, if_false, and_self]

/-- A note that neither hands over a proof nor touches the file. -/
theorem World.Ok.quiet (h : World.Ok pillar opts ⟨source, file, history⟩) {envelope : PillarEnvelope}
    {now : Int} : World.Ok pillar opts ⟨source, file, .admitted envelope now none :: history⟩ where
  memory := h.memory.push (fun _ _ _ hevent => by cases hevent) (fun _ _ => .inl trivial) fun _ => id
  file := h.file.push (fun _ _ _ hevent => by cases hevent) (fun _ => .inl) fun _ => id
  fresh := ⟨trivial, h.fresh⟩

theorem World.Ok.handle (h : World.Ok pillar opts ⟨source, file, history⟩) (envelope : PillarEnvelope)
    (now : Int) : World.Ok pillar opts ⟨(handleEnvelope pillar opts source envelope now).1, file,
      (handleEnvelope pillar opts source envelope now).2 ++ history⟩ := by
  obtain ⟨hstate, hevents | hevents⟩ | ⟨proof, haccepted, hunseen, hseen, hevents⟩ :=
    handleEnvelope_cases pillar opts source envelope now
  · rw [hevents]
    exact ⟨hstate ▸ h.memory, h.file, h.fresh⟩
  · rw [hevents]
    exact ⟨hstate ▸ h.quiet.memory, h.quiet.file, h.quiet.fresh⟩
  · rw [hevents]
    refine ⟨?_, ?_, h.memory.fresh hunseen haccepted, h.fresh⟩
    · dsimp only
      rw [hseen]
      exact h.memory.mark hunseen
    · exact h.file.push (fun _ _ _ _ => Bool.false_ne_true) (fun _ => .inl) fun _ => id

theorem World.Ok.handleAll (fetched : List Fetched)
    (h : World.Ok pillar opts ⟨source, file, history⟩) :
    World.Ok pillar opts ⟨(handleAll pillar opts source fetched).1, file,
      (handleAll pillar opts source fetched).2 ++ history⟩ := by
  induction fetched generalizing source history with
  | nil => exact h
  | cons one rest ih =>
    have hadvanced : World.Ok pillar opts ⟨source.advance one.seq, file, history⟩ :=
      ⟨h.memory, h.file, h.fresh⟩
    have hrest := ih (hadvanced.handle one.envelope one.now)
    rw [← List.append_assoc] at hrest
    exact hrest

theorem World.Ok.step (h : World.Ok pillar opts world) (hnext : Next pillar opts world world') :
    World.Ok pillar opts world' := by
  cases hnext with
  | pass fetched handled =>
    have hall := h.handleAll fetched
    rw [handled] at hall
    refine ⟨?_, ?_, trivial, hall.fresh⟩
    · exact hall.memory.push (fun _ _ _ hevent => by cases hevent) (fun _ _ => .inl trivial) fun _ => id
    · exact hall.memory.push (fun _ _ _ hevent => by cases hevent) (fun _ _ => .inl trivial) fun _ => id
  | torn fetched handled =>
    have hall := h.handleAll fetched
    rw [handled] at hall
    refine ⟨?_, ?_, trivial, hall.fresh⟩
    · exact hall.memory.push (fun _ _ _ hevent => by cases hevent) (fun _ _ => .inl trivial) fun _ => id
    · exact .nothing (fun _ => Bool.false_ne_true) Bool.false_ne_true
  | threw fetched seq handled =>
    have hall := h.handleAll fetched
    rw [handled] at hall
    refine ⟨?_, hall.file, hall.fresh⟩
    cases seq <;> exact hall.memory
  | restart =>
    refine ⟨?_, ?_, trivial, h.fresh⟩
    · refine h.file.push (fun _ _ _ hevent => by cases hevent) (fun later _ => ?_) fun later hlater => ?_
      · cases hfile : onFile later with
        | true => exact .inl rfl
        | false => exact .inr (by simp [forgets, hfile])
      · simp [forgets, hlater]
    · refine h.file.push (fun _ _ _ hevent => by cases hevent) (fun _ => .inl) fun later hlater => ?_
      simp [forgets, hlater]

theorem World.Ok.start : World.Ok pillar opts {} where
  memory := ⟨List.nodup_nil, Nat.zero_le _, fun _ h => (by cases h), fun later _ _ _ _ h =>
    absurd h.symm (by simp)⟩
  file := ⟨List.nodup_nil, Nat.zero_le _, fun _ h => (by cases h), fun later _ _ _ _ h =>
    absurd h.symm (by simp)⟩
  fresh := trivial

theorem World.Ok.run (hrun : Relation.ReflTransGen (Next pillar opts) {} world) :
    World.Ok pillar opts world := by
  induction hrun with
  | refl => exact .start
  | tail _ hnext ih => exact ih.step hnext

/-- Whatever the carrier returns, whenever saving fails and the process restarts: a
proof that is handed over has passed every check, and its envelope was not handed
over before, or that was too long ago, before as many others as are kept, or not on
file when a process started. No more than the bound is kept. -/
theorem proofs_guarded (hrun : Relation.ReflTransGen (Next pillar opts) {} world) :
    (∀ later envelope now proof past,
      world.history = later ++ .admitted envelope now (some proof) :: past →
      Accepted pillar opts envelope now proof ∧
        ∀ between earlier t proof' older,
          past = between ++ .admitted earlier t (some proof') :: older → earlier.id = envelope.id →
          (∀ t', ¬ Delivered between envelope.id t') →
          Excused past envelope.id t ∨ forgets between = true) ∧
    world.source.state.seenEnvelopeIds.length ≤ MAX_SEEN_ENVELOPE_IDS ∧
    (world.file.getD {}).seenEnvelopeIds.length ≤ MAX_SEEN_ENVELOPE_IDS := by
  have hok := World.Ok.run hrun
  refine ⟨fun later envelope now proof past hhistory => ?_, hok.memory.few, hok.file.few⟩
  exact Each.split (hhistory ▸ hok.fresh)

end

-- ---------------------------------------------------------------------------
-- A run
-- ---------------------------------------------------------------------------

namespace Sample

def envelope : PillarEnvelope where
  json := .object [textMember "id" "env_1", textMember "sender" "uuaid:foundation:agent:a",
    textMember "kind" "esig:identity-proof"]
  id := js "env_1"
  sender := js "uuaid:foundation:agent:a"
  kind := js "esig:identity-proof"
  hasId := rfl
  hasSender := rfl
  hasKind := rfl

def integrityProof : Json := .object [textMember "type" "DataIntegrityProof",
  textMember "cryptosuite" "eddsa-jcs-2022", textMember "created" "2026-09-01T00:00:00Z",
  textMember "verificationMethod" "did:key:a", textMember "proofPurpose" "assertionMethod",
  textMember "proofValue" "z1"]

def payload : Json := .object [(js "v", .number (.finite 1)), textMember "envelopeId" "e",
  textMember "signerId" "s", textMember "uuaid" "u", textMember "expiresAt" "2026-09-02T00:00:00Z",
  (js "proof", integrityProof)]

def pillar : Pillar where
  opens _ := true
  decrypt _ := some payload
  dateParse _ := some 1788307200000

def opts : PillarProofSourceOptions where
  isAllowedSender := some fun sender _ => sender == js "uuaid:foundation:agent:a"
  maxEnvelopesPerSenderPerMinute := some 1

def proof : IdentityProofEvent :=
  ⟨js "e", js "s", js "u", integrityProof, none, js "uuaid:foundation:agent:a", js "env_1"⟩

theorem proofOf_eq {now : Int} (h : now < 1788307200000) :
    proofOf pillar envelope now = some proof := by
  have hpayload : isIdentityProofPayload payload = some
      ⟨js "e", js "s", js "u", integrityProof, js "2026-09-02T00:00:00Z", none⟩ := rfl
  unfold proofOf
  simp only [pillar, Option.bind_some, hpayload, Option.bind_eq_bind]
  rw [if_neg (Int.not_le.mpr h)]
  rfl

/-- A source that has just started takes the envelope. -/
theorem taken {now : Int} (h : now < 1788307200000) :
    (handleEnvelope pillar opts {} envelope now).2 = [.admitted envelope now (some proof)] := by
  have hsize : ¬ opts.sizeCap < serializedBytes envelope := by decide +kernel
  have hallowed : opts.allows envelope.sender now = true := by
    change (envelope.sender == js "uuaid:foundation:agent:a") = true
    decide
  unfold handleEnvelope
  rw [if_neg (by decide), if_neg (by decide), if_neg hsize, if_neg (by decide),
    if_neg (by rw [hallowed]; decide), proofOf_eq h]
  rfl

/-- The process stops before it has saved, and the next one is given the envelope again. -/
theorem run : ∃ world, Relation.ReflTransGen (Next pillar opts) {} world ∧
    world.history = [.saved] ++ .admitted envelope 2000 (some proof) ::
      ([.restarted] ++ [.admitted envelope 1000 (some proof)]) := by
  have hfirst := @taken 1000 (by decide)
  have hsecond := @taken 2000 (by decide)
  refine ⟨_, .head (.threw [⟨0, envelope, 1000⟩] none rfl)
    (.head .restart (.single (.pass [⟨0, envelope, 2000⟩] rfl))), ?_⟩
  change .saved :: ([] ++ (handleEnvelope pillar opts {} envelope 2000).2 ++
    .restarted :: ([] ++ (handleEnvelope pillar opts {} envelope 1000).2 ++ [])) = _
  rw [hfirst, hsecond]
  rfl

end Sample

theorem proofs_guarded_again :
    Accepted Sample.pillar Sample.opts Sample.envelope 2000 Sample.proof ∧
      (Excused [.restarted, .admitted Sample.envelope 1000 (some Sample.proof)] Sample.envelope.id 1000 ∨
        forgets [.restarted] = true) := by
  obtain ⟨world, hrun, hhistory⟩ := Sample.run
  obtain ⟨haccepted, hagain⟩ := (proofs_guarded hrun).1 _ _ _ _ _ hhistory
  refine ⟨haccepted, hagain [.restarted] Sample.envelope 1000 Sample.proof [] rfl rfl ?_⟩
  rintro t ⟨envelope, proof, -, hmem⟩
  cases List.mem_singleton.mp hmem

end EsigSuite.PillarBridge.ProofSource
