import EsigSuite.Mcp.ReminderCounts
import EsigSuite.Mcp.TerminalStatus
import EsigSuite.Mcp.NextReminder

/-!
# The order of scheduled reminders

A pass finds out which reminder is next by looking at the envelope, and claims
one later, at whatever place is next by then. The two are the same, and the
reminders go out in order, where no other claim comes in between.
-/

namespace EsigSuite.Mcp

open Lib
open EnvelopeFile (getRev setRev)

variable {ι : Type}

-- ---------------------------------------------------------------------------
-- Indices
-- ---------------------------------------------------------------------------

def scheduledList (e : McpEnvelope) (signerId : String) : List Time := listOf e signerId .scheduled

/-- The index that the pass had found due. -/
def foundIndex (c : ClaimFor) : Nat := (scheduledList c.envelopeIn c.signerId).length

def Purpose.scheduled : Purpose → Option ClaimFor
  | .claim c _ => if c.kind = .scheduled then some c else none
  | _ => none

/-- The index at which a claim is stored. -/
def claimedIndex (w : Write ι) : Nat :=
  match w.tag.purpose with
  | .claim c _ => (scheduledList w.old c.signerId).length
  | _ => 0

/-- A scheduled reminder was sent to the signer. -/
def Send.schedules (envelopeId signerId : String) (d : Send ι) : Bool :=
  d.reminds envelopeId signerId && d.tag.purpose.scheduled.isSome

def scheduledSends (envelopeId signerId : String) (s : World ι) : List (Send ι) :=
  s.sends.filter (·.schedules envelopeId signerId)

/-- Each index is sent once, in increasing order, by a pass that began when it
was due. -/
structure SentInOrder (server : Server) (envelopeId signerId : String) (s : World ι) : Prop where
  increasing : (scheduledSends envelopeId signerId s).Pairwise fun d d' =>
    ∀ w ∈ s.history, ∀ w' ∈ s.history, w.tag = d.tag → w'.tag = d'.tag →
      claimedIndex w < claimedIndex w'
  claimed : ∀ d ∈ scheduledSends envelopeId signerId s, ∃ w ∈ s.history, w.tag = d.tag
  due : ∀ d ∈ scheduledSends envelopeId signerId s, ∀ w ∈ s.history, w.tag = d.tag →
    ∃ c at_, d.tag.purpose.scheduled = some c ∧ c.foundAt = some at_ ∧
      claimedIndex w < server.config.durationsMs.length ∧
      w.old.createdAt + server.config.durationsMs.getD (claimedIndex w) 0 ≤ at_

/-- A pass claims the index that it had found, and the claim is the last one as
long as it is held. -/
def InTurn : Op ι → World ι → Prop
  | .update ⟨_, .claim c _⟩ e, s => c.kind = .scheduled →
    ∀ cur ∈ s.rows, Replaced e cur → (scheduledList cur c.signerId).length = foundIndex c
  | .update ⟨_, .rollback c _ index _⟩ e, s => c.kind = .scheduled →
    ∀ cur ∈ s.rows, Replaced e cur → (scheduledList cur c.signerId).length = index + 1
  | .deliver ⟨_, .claim c _⟩ envelope _, s => c.kind = .scheduled →
    ∀ cur ∈ s.rows, cur.id = envelope.id → (scheduledList cur c.signerId).length = foundIndex c + 1
  | _, _ => True

instance (op : Op ι) (s : World ι) : Decidable (InTurn op s) := by
  apply Op.casesOn (motive := fun op => Decidable (InTurn op s)) op
  case update =>
    rintro ⟨who, purpose⟩ e
    apply Purpose.casesOn (motive := fun purpose =>
      Decidable (InTurn (.update ⟨who, purpose⟩ e) s)) purpose
    case claim =>
      exact fun c _ => inferInstanceAs (Decidable (c.kind = .scheduled → ∀ cur ∈ s.rows, _ → _))
    case rollback =>
      exact fun c _ _ _ => inferInstanceAs (Decidable (c.kind = .scheduled → ∀ cur ∈ s.rows, _ → _))
    all_goals
      intros
      exact .isTrue trivial
  case deliver =>
    rintro ⟨who, purpose⟩ envelope links
    apply Purpose.casesOn (motive := fun purpose =>
      Decidable (InTurn (.deliver ⟨who, purpose⟩ envelope links) s)) purpose
    case claim =>
      exact fun c _ => inferInstanceAs (Decidable (c.kind = .scheduled → ∀ cur ∈ s.rows, _ → _))
    all_goals
      intros
      exact .isTrue trivial
  all_goals
    intros
    exact .isTrue trivial

-- ---------------------------------------------------------------------------
-- What was read
-- ---------------------------------------------------------------------------

/-- What was read is stored, with the time it was created. -/
def Remembered (s : World ι) (t : Track (Duties ι)) : Prop :=
  ∀ e ∈ t.seen, ∃ row ∈ s.rows, row.id = e.id ∧ row.createdAt = e.createdAt

section
variable {server : Server} {s s' : World ι} {ts : ι → Track (Duties ι)} {i : ι} {op : Op ι}
  {r : Res op} {t : Track (Duties ι)} {own : Duties ι}

theorem Edits.replaced {cur e : McpEnvelope} {drawn : List String} (h : Edits drawn cur e) :
    Replaced e cur :=
  ⟨h.id.symm, h.tenantId.symm, by rw [getRev, getRev, h.mcpRev]⟩

/-- A row keeps its time. -/
theorem ClaimStep.createdAt (h : ClaimStep server t own s s' op) {row : McpEnvelope}
    (hids : (s.rows.map (·.id)).Nodup) (hrow : row ∈ s.rows) :
    ∃ row' ∈ s'.rows, row'.id = row.id ∧ row'.createdAt = row.createdAt := by
  cases h with
  | same hrows =>
    rcases hrows with hrows | ⟨e, -, hrows⟩ <;> rw [hrows]
    · exact ⟨row, hrow, rfl, rfl⟩
    · exact ⟨row, List.mem_append_left _ hrow, rfl, rfl⟩
  | write tag e j cur hj hedits hwrites hrows =>
    rw [hrows]
    by_cases hsame : row.id = cur.id
    · obtain rfl : row = cur := eq_of_key hids hrow (List.mem_of_getElem? hj) hsame
      exact ⟨_, List.mem_set (List.getElem?_eq_some_iff.mp hj).1 _, hedits.id,
        hwrites.rewrite.createdAt⟩
    · exact ⟨row, mem_set_of_ne hj hrow hsame _, rfl, rfl⟩
  | send tag envelope links ok hwho hrows =>
    exact ⟨row, hrows ▸ hrow, rfl, rfl⟩

theorem Remembered.step (h : Remembered s t) (hids : (s.rows.map (·.id)).Nodup)
    (hstep : ClaimStep server (ts i) own s s' op) : Remembered s' t := fun e he => by
  obtain ⟨row, hrow, hid, hcreated⟩ := h e he
  obtain ⟨row', hrow', hid', hcreated'⟩ := hstep.createdAt hids hrow
  exact ⟨row', hrow', hid'.trans hid, hcreated'.trans hcreated⟩

theorem Remembered.track (h : Remembered s' t) (hexec : exec op s r s') :
    Remembered s' ((serviceRules server).track t op r) := fun e he => by
  rcases List.mem_append.mp he with hgiven | hseen
  · exact ⟨e, given_stored hexec e hgiven, rfl, rfl⟩
  · exact h e hseen

end

-- ---------------------------------------------------------------------------
-- What a write does to a list
-- ---------------------------------------------------------------------------

/-- The claim of a scheduled reminder of the signer. -/
def Held.about (envelopeId signerId : String) (h : Held) : Prop :=
  h.envelopeId = envelopeId ∧ h.claim.signerId = signerId ∧ h.claim.kind = .scheduled

/-- A write adds its claim at the end of the list, takes its claim from the end,
or leaves the list. -/
inductive ListStep (envelopeId signerId : String) (own : Duties ι) (tag : Tag ι) (cur e : McpEnvelope) :
    Prop
  | claim (c : ClaimFor) (sentTimestamp : Time) (hpurpose : tag.purpose = .claim c sentTimestamp)
      (hid : cur.id = envelopeId) (hsigner : c.signerId = signerId) (hkind : c.kind = .scheduled)
      (hindex : (scheduledList cur signerId).length = foundIndex c)
      (hlist : scheduledList e signerId = scheduledList cur signerId ++ [sentTimestamp])
      (hheld : own.heldAfter e tag.purpose = some ⟨envelopeId, c, sentTimestamp, foundIndex c⟩)
  | rollback (h : Held) (hheld : own.held = some h) (habout : h.about envelopeId signerId)
      (hindex : (scheduledList cur signerId).length = h.index + 1)
      (hlist : scheduledList e signerId = (scheduledList cur signerId).eraseIdx h.index)
      (hnone : own.heldAfter e tag.purpose = none)
  | other (hlist : cur.id = envelopeId → scheduledList e signerId = scheduledList cur signerId)
      (hheld : ∀ h, own.heldAfter e tag.purpose = some h → h.about envelopeId signerId →
        own.held = some h)

section
variable {server : Server} {t : Track (Duties ι)} {tag : Tag ι} {cur e : McpEnvelope} {s : World ι}

theorem list_step (envelopeId signerId : String) (hwrites : Writes server t tag cur e)
    (hedits : Edits t.drawn cur e) (hcur : cur ∈ s.rows) (hturn : InTurn (.update tag e) s) :
    ListStep envelopeId signerId t.own tag cur e := by
  obtain ⟨who, purpose⟩ := tag
  rcases hwrites.rewrite.reminders with ⟨c, sentTimestamp, hpurpose, -, -, -, hedited⟩ |
    ⟨c, sentTimestamp, index, left, hpurpose, hedited⟩ | hnone
  · obtain rfl : purpose = _ := hpurpose
    by_cases habout : cur.id = envelopeId ∧ c.signerId = signerId ∧ c.kind = .scheduled
    · obtain ⟨hid, rfl, hkind⟩ := habout
      have hindex : (scheduledList cur c.signerId).length = foundIndex c :=
        hturn hkind cur hcur hedits.replaced
      have hlist : scheduledList e c.signerId = scheduledList cur c.signerId ++ [sentTimestamp] := by
        rw [scheduledList, scheduledList, ← hkind, hedited, Duties.listOf_withList]
      refine .claim c sentTimestamp rfl hid rfl hkind hindex hlist ?_
      rw [Duties.heldAfter, hedits.id, hid, hkind]
      change some (Held.mk envelopeId c sentTimestamp ((scheduledList e c.signerId).length - 1)) = _
      rw [hlist, List.length_append, hindex]
      rfl
    · refine .other (fun hid => ?_) ?_
      · rw [scheduledList, scheduledList, hedited]
        by_cases hkind : c.kind = .scheduled
        · exact listOf_withList_other (fun hsame => habout ⟨hid, hsame.symm, hkind⟩) _
        · exact listOf_withList_kind (Ne.symm hkind) _
      · rintro h hheld ⟨hid, hsigner, hkind⟩
        cases hheld
        exact absurd ⟨hedits.id.symm.trans hid, hsigner, hkind⟩ habout
  · obtain rfl : purpose = _ := hpurpose
    have hheld := (hwrites.rollsBack c sentTimestamp index left rfl).1
    by_cases habout : cur.id = envelopeId ∧ c.signerId = signerId ∧ c.kind = .scheduled
    · obtain ⟨hid, rfl, hkind⟩ := habout
      refine .rollback _ hheld ⟨hid, rfl, hkind⟩ (hturn hkind cur hcur hedits.replaced) ?_ rfl
      rw [scheduledList, scheduledList, ← hkind, hedited, Duties.listOf_withList]
    · refine .other (fun hid => ?_) (fun h hnone => by cases hnone)
      rw [scheduledList, scheduledList, hedited]
      by_cases hkind : c.kind = .scheduled
      · exact listOf_withList_other (fun hsame => habout ⟨hid, hsame.symm, hkind⟩) _
      · exact listOf_withList_kind (Ne.symm hkind) _
  · refine .other (fun _ => ?_) fun h hheld _ => ?_
    · rw [scheduledList, listOf, sentOfSigner, hnone.reminders]
      rfl
    · rw [← hheld]
      obtain ⟨hclaims, hreturns, -⟩ := hnone
      cases purpose <;> first | rfl | exact absurd hclaims (Option.some_ne_none _) |
        exact absurd hreturns (Option.some_ne_none _)

end

-- ---------------------------------------------------------------------------
-- The invariant
-- ---------------------------------------------------------------------------

/-- The list of the signer reaches beyond an index. -/
def Beyond (envelopeId signerId : String) (rows : List McpEnvelope) (index : Nat) : Prop :=
  ∃ row ∈ rows, row.id = envelopeId ∧ index < (scheduledList row signerId).length

def sendIndex (d : Send ι) : Nat := (d.tag.purpose.scheduled.map foundIndex).getD 0

/-- What is held, and what was sent, stands at an index of its own in the list. -/
structure Places (envelopeId signerId : String) (s : World ι) (held : ι → Held → Prop) : Prop where
  place : ∀ i h, held i h → h.index = foundIndex h.claim ∧ Beyond envelopeId signerId s.rows h.index ∧
    (∃ w ∈ s.history, w.tag = ⟨i, .claim h.claim h.sentTimestamp⟩) ∧
    ∀ d ∈ scheduledSends envelopeId signerId s, sendIndex d ≠ h.index
  apart : ∀ i j h h', i ≠ j → held i h → held j h' → h.index ≠ h'.index
  sent : ∀ d ∈ scheduledSends envelopeId signerId s,
    Beyond envelopeId signerId s.rows (sendIndex d) ∧ ∃ w ∈ s.history, w.tag = d.tag
  order : (scheduledSends envelopeId signerId s).Pairwise fun d d' => sendIndex d < sendIndex d'

def heldAbout (envelopeId signerId : String) (ts : ι → Track (Duties ι)) (i : ι) (h : Held) : Prop :=
  (ts i).own.held = some h ∧ h.about envelopeId signerId

structure Ordered (server : Server) (envelopeId signerId : String) (s : World ι)
    (ts : ι → Track (Duties ι)) : Prop where
  who : ∀ i, (ts i).own.who = i
  remembered : ∀ i, Remembered s (ts i)
  written : ∀ w ∈ s.history, ∀ c, w.tag.purpose.scheduled = some c →
    claimedIndex w = foundIndex c ∧ Due server c ∧ w.old.createdAt = c.envelopeIn.createdAt
  places : Places envelopeId signerId s (heldAbout envelopeId signerId ts)

section
variable {server : Server} {envelopeId signerId : String} {s s' : World ι}
  {ts : ι → Track (Duties ι)} {i : ι} {op : Op ι}

theorem Beyond.append {rows : List McpEnvelope} {index : Nat}
    (h : Beyond envelopeId signerId rows index) (more : List McpEnvelope) :
    Beyond envelopeId signerId (rows ++ more) index := by
  obtain ⟨row, hrow, hrest⟩ := h
  exact ⟨row, List.mem_append_left _ hrow, hrest⟩

/-- The list of a replaced row reaches as far as needed. -/
theorem Beyond.set {rows : List McpEnvelope} {index j : Nat} {cur new : McpEnvelope}
    (h : Beyond envelopeId signerId rows index) (hids : (rows.map (·.id)).Nodup)
    (hj : rows[j]? = some cur) (hid : new.id = cur.id)
    (hlength : cur.id = envelopeId → index < (scheduledList cur signerId).length →
      index < (scheduledList new signerId).length) :
    Beyond envelopeId signerId (rows.set j new) index := by
  obtain ⟨row, hrow, hrowid, hindex⟩ := h
  by_cases hsame : row.id = cur.id
  · obtain rfl : row = cur := eq_of_key hids hrow (List.mem_of_getElem? hj) hsame
    exact ⟨new, List.mem_set (List.getElem?_eq_some_iff.mp hj).1 _, hid.trans hrowid,
      hlength hrowid hindex⟩
  · exact ⟨row, mem_set_of_ne hj hrow hsame _, hrowid, hindex⟩

theorem Beyond.lt {rows : List McpEnvelope} {index : Nat} {cur : McpEnvelope}
    (h : Beyond envelopeId signerId rows index) (hids : (rows.map (·.id)).Nodup)
    (hcur : cur ∈ rows) (hid : cur.id = envelopeId) :
    index < (scheduledList cur signerId).length := by
  obtain ⟨row, hrow, hrowid, hindex⟩ := h
  rwa [eq_of_key hids hrow hcur (hrowid.trans hid.symm)] at hindex

/-- What the scheduler had found due. -/
theorem Due.scheduled {c : ClaimFor} (h : Due server c) (hkind : c.kind = .scheduled) :
    ∃ at_, c.foundAt = some at_ ∧ foundIndex c < server.config.durationsMs.length ∧
      c.envelopeIn.createdAt + server.config.durationsMs.getD (foundIndex c) 0 ≤ at_ := by
  obtain ⟨envelopeIn, signer, kind, foundAt⟩ := c
  obtain rfl : kind = .scheduled := hkind
  cases foundAt with
  | none => exact h.elim
  | some at_ =>
    obtain ⟨-, ⟨hlength, -⟩, hdue⟩ := (dueAt_iff (e := envelopeIn) at_).mp ⟨_, h⟩
    exact ⟨at_, rfl, hlength, hdue⟩

theorem Ordered.sentInOrder (h : Ordered server envelopeId signerId s ts) :
    SentInOrder server envelopeId signerId s := by
  have hscheduled : ∀ d ∈ scheduledSends envelopeId signerId s,
      ∃ c, d.tag.purpose.scheduled = some c := fun d hd => by
    have hsome := (Bool.and_eq_true_iff.mp (List.mem_filter.mp hd).2).2
    exact Option.isSome_iff_exists.mp hsome
  have hindex : ∀ d ∈ scheduledSends envelopeId signerId s, ∀ w ∈ s.history, w.tag = d.tag →
      claimedIndex w = sendIndex d := fun d hd w hw htag => by
    obtain ⟨c, hc⟩ := hscheduled d hd
    rw [(h.written w hw c (htag ▸ hc)).1, sendIndex, hc]
    rfl
  refine ⟨?_, fun d hd => (h.places.sent d hd).2, fun d hd w hw htag => ?_⟩
  · refine h.places.order.imp_of_mem fun {d d'} hd hd' hlt w hw w' hw' htag htag' => ?_
    rw [hindex d hd w hw htag, hindex d' hd' w' hw' htag']
    exact hlt
  · obtain ⟨c, hc⟩ := hscheduled d hd
    obtain ⟨hclaimed, hdue, hcreated⟩ := h.written w hw c (htag ▸ hc)
    have hkind : c.kind = .scheduled := by
      obtain ⟨⟨who, purpose⟩, id, ok⟩ := d
      cases purpose with
      | claim c' sentTimestamp =>
        change (if c'.kind = .scheduled then some c' else none) = some c at hc
        split at hc
        next hkind => exact Option.some.inj hc ▸ hkind
        next => cases hc
      | _ => cases hc
    obtain ⟨at_, hfound, hlength, hle⟩ := hdue.scheduled hkind
    exact ⟨c, at_, hc, hfound, hclaimed ▸ hlength, by rwa [hcreated, hclaimed]⟩

-- ---------------------------------------------------------------------------
-- Steps
-- ---------------------------------------------------------------------------

section
variable {H H' : ι → Held → Prop}

theorem scheduledSends_congr (hsends : s'.sends = s.sends) :
    scheduledSends envelopeId signerId s' = scheduledSends envelopeId signerId s := by
  rw [scheduledSends, hsends, scheduledSends]

/-- No claim is new. -/
theorem Places.keep (h : Places envelopeId signerId s H) (hheld : ∀ i h, H' i h → H i h)
    (hplace : ∀ i h, H' i h → Beyond envelopeId signerId s.rows h.index →
      Beyond envelopeId signerId s'.rows h.index)
    (hsent : ∀ d ∈ scheduledSends envelopeId signerId s,
      Beyond envelopeId signerId s.rows (sendIndex d) → Beyond envelopeId signerId s'.rows (sendIndex d))
    (hhistory : ∀ w ∈ s.history, w ∈ s'.history) (hsends : scheduledSends envelopeId signerId s' = scheduledSends envelopeId signerId s) :
    Places envelopeId signerId s' H' where
  place i h' hh' := by
    obtain ⟨hindex, hbeyond, ⟨w, hw, htag⟩, hunsent⟩ := h.place i h' (hheld i h' hh')
    rw [hsends]
    exact ⟨hindex, hplace i h' hh' hbeyond, ⟨w, hhistory w hw, htag⟩, hunsent⟩
  apart i j h₁ h₂ hij hh₁ hh₂ := h.apart i j h₁ h₂ hij (hheld i h₁ hh₁) (hheld j h₂ hh₂)
  sent := by
    rw [hsends]
    intro d hd
    obtain ⟨hbeyond, w, hw, htag⟩ := h.sent d hd
    exact ⟨hsent d hd hbeyond, w, hhistory w hw, htag⟩
  order := by
    rw [hsends]
    exact h.order

/-- A claim is held at the end of the list. -/
theorem Places.claim (h : Places envelopeId signerId s H) (new : Held)
    (hheld : ∀ j h', H' j h' → (j = i ∧ h' = new) ∨ (j ≠ i ∧ H j h'))
    (hindex : new.index = foundIndex new.claim)
    (hend : ∀ n, Beyond envelopeId signerId s.rows n → n < new.index)
    (hplace : Beyond envelopeId signerId s'.rows new.index)
    (hbeyond : ∀ n, Beyond envelopeId signerId s.rows n → Beyond envelopeId signerId s'.rows n)
    (hhistory : ∀ w ∈ s.history, w ∈ s'.history)
    (hwritten : ∃ w ∈ s'.history, w.tag = ⟨i, .claim new.claim new.sentTimestamp⟩)
    (hsends : s'.sends = s.sends) : Places envelopeId signerId s' H' where
  place j h' hh' := by
    rw [scheduledSends_congr hsends]
    rcases hheld j h' hh' with ⟨rfl, rfl⟩ | ⟨-, hold⟩
    · exact ⟨hindex, hplace, hwritten, fun d hd => (hend _ (h.sent d hd).1).ne⟩
    · obtain ⟨hfound, hreach, ⟨w, hw, htag⟩, hunsent⟩ := h.place j h' hold
      exact ⟨hfound, hbeyond _ hreach, ⟨w, hhistory w hw, htag⟩, hunsent⟩
  apart j k h₁ h₂ hjk hh₁ hh₂ := by
    rcases hheld j h₁ hh₁ with ⟨rfl, rfl⟩ | ⟨-, hold₁⟩
    · rcases hheld k h₂ hh₂ with ⟨rfl, -⟩ | ⟨-, hold₂⟩
      · exact absurd rfl hjk
      · exact (hend _ (h.place k h₂ hold₂).2.1).ne'
    · rcases hheld k h₂ hh₂ with ⟨rfl, rfl⟩ | ⟨-, hold₂⟩
      · exact (hend _ (h.place j h₁ hold₁).2.1).ne
      · exact h.apart j k h₁ h₂ hjk hold₁ hold₂
  sent := by
    rw [scheduledSends_congr hsends]
    intro d hd
    obtain ⟨hreach, w, hw, htag⟩ := h.sent d hd
    exact ⟨hbeyond _ hreach, w, hhistory w hw, htag⟩
  order := by
    rw [scheduledSends_congr hsends]
    exact h.order

/-- What is held is sent, while it is the last of the list. -/
theorem Places.send (h : Places envelopeId signerId s H) {d : Send ι} {sent : Held}
    (hsent : H i sent) (hheld : ∀ j h', H' j h' → j ≠ i ∧ H j h')
    (hindex : sendIndex d = sent.index) (htag : d.tag = ⟨i, .claim sent.claim sent.sentTimestamp⟩)
    (hlast : ∀ n, Beyond envelopeId signerId s.rows n → n ≤ sent.index)
    (hrows : s'.rows = s.rows) (hhistory : s'.history = s.history)
    (hsends : scheduledSends envelopeId signerId s' = scheduledSends envelopeId signerId s ++ [d]) :
    Places envelopeId signerId s' H' := by
  obtain ⟨-, hreach, hwritten, hunsent⟩ := h.place i sent hsent
  refine ⟨fun j h' hh' => ?_, fun j k h₁ h₂ hjk hh₁ hh₂ => ?_, ?_, ?_⟩
  · obtain ⟨hj, hold⟩ := hheld j h' hh'
    obtain ⟨hfound, hbeyond, hclaimed, hother⟩ := h.place j h' hold
    rw [hrows, hhistory, hsends]
    refine ⟨hfound, hbeyond, hclaimed, List.forall_mem_append.mpr
      ⟨hother, List.forall_mem_singleton.mpr ?_⟩⟩
    rw [hindex]
    exact h.apart i j sent h' (Ne.symm hj) hsent hold
  · exact h.apart j k h₁ h₂ hjk (hheld j h₁ hh₁).2 (hheld k h₂ hh₂).2
  · rw [hsends, hrows, hhistory]
    refine List.forall_mem_append.mpr ⟨h.sent, List.forall_mem_singleton.mpr ?_⟩
    rw [hindex, htag]
    exact ⟨hreach, hwritten⟩
  · rw [hsends]
    refine List.pairwise_append.mpr ⟨h.order, List.pairwise_singleton _ _, fun d' hd' d'' hd'' => ?_⟩
    rw [List.mem_singleton.mp hd'', hindex]
    exact lt_of_le_of_ne (hlast _ (h.sent d' hd').1) (hunsent d' hd')

end

section
variable [DecidableEq ι] {r : Res op} {t : Track (Duties ι)}

theorem heldAbout_update {j : ι} {h : Held}
    (hheld : heldAbout envelopeId signerId (Function.update ts i t) j h) :
    (j = i ∧ t.own.held = some h ∧ h.about envelopeId signerId) ∨
      (j ≠ i ∧ heldAbout envelopeId signerId ts j h) := by
  unfold heldAbout at hheld
  by_cases hj : j = i
  · subst hj
    rw [Function.update_self] at hheld
    exact .inl ⟨rfl, hheld⟩
  · rw [Function.update_of_ne hj] at hheld
    exact .inr ⟨hj, hheld⟩

/-- The thread holds nothing that it did not hold. -/
theorem heldAbout_keep
    (hkeep : ∀ h, t.own.held = some h → h.about envelopeId signerId → (ts i).own.held = some h)
    (j : ι) (h : Held) (hheld : heldAbout envelopeId signerId (Function.update ts i t) j h) :
    heldAbout envelopeId signerId ts j h := by
  rcases heldAbout_update hheld with ⟨rfl, hh, habout⟩ | ⟨-, hold⟩
  · exact ⟨hkeep h hh habout, habout⟩
  · exact hold

/-- A write puts a claim where its pass had found it, and takes back the last. -/
theorem Places.write (h : Places envelopeId signerId s (heldAbout envelopeId signerId ts))
    (hids : (s.rows.map (·.id)).Nodup) {tag : Tag ι} {cur e : McpEnvelope} {j : Nat}
    (hj : s.rows[j]? = some cur) (hid : e.id = cur.id) (htag : tag.who = i)
    (hheld : t.own.held = (ts i).own.heldAfter e tag.purpose)
    (hstep : ListStep envelopeId signerId (ts i).own tag cur e)
    (hrows : s'.rows = s.rows.set j (setRev e (getRev e + 1)))
    (hhistory : s'.history = s.history ++ [⟨tag, cur, setRev e (getRev e + 1)⟩])
    (hsends : s'.sends = s.sends) :
    Places envelopeId signerId s' (heldAbout envelopeId signerId (Function.update ts i t)) := by
  have hcur : cur ∈ s.rows := List.mem_of_getElem? hj
  have hkept : ∀ w ∈ s.history, w ∈ s'.history := fun w hw => by
    rw [hhistory]
    exact List.mem_append_left _ hw
  have hset : ∀ n, Beyond envelopeId signerId s.rows n →
      (cur.id = envelopeId → n < (scheduledList cur signerId).length →
        n < (scheduledList e signerId).length) → Beyond envelopeId signerId s'.rows n :=
    fun n hn hlength => by
      rw [hrows]
      exact hn.set hids hj hid hlength
  cases hstep with
  | claim c sentTimestamp hpurpose hcurid hsigner hkind hindex hlist hnew =>
    have hlength : (scheduledList e signerId).length = (scheduledList cur signerId).length + 1 := by
      rw [hlist, List.length_append, List.length_singleton]
    refine h.claim (i := i) ⟨envelopeId, c, sentTimestamp, foundIndex c⟩ (fun k h' hh' => ?_) rfl
      (fun n hn => hindex ▸ hn.lt hids hcur hcurid) ?_ (fun n hn => hset n hn fun _ hlt => ?_)
      hkept ⟨⟨tag, cur, setRev e (getRev e + 1)⟩, ?_, ?_⟩ hsends
    · rcases heldAbout_update hh' with ⟨rfl, hh, -⟩ | hold
      · rw [hheld, hnew] at hh
        exact .inl ⟨rfl, (Option.some.inj hh).symm⟩
      · exact .inr hold
    · rw [hrows]
      refine ⟨_, List.mem_set (List.getElem?_eq_some_iff.mp hj).1 _, hid.trans hcurid, ?_⟩
      change foundIndex c < (scheduledList e signerId).length
      omega
    · omega
    · rw [hhistory]
      exact List.mem_append_right _ (List.mem_singleton.mpr rfl)
    · obtain ⟨who, purpose⟩ := tag
      obtain rfl : who = i := htag
      obtain rfl : purpose = _ := hpurpose
      rfl
  | rollback held hown habout hindex hlist hnone =>
    have hlength : (scheduledList e signerId).length = held.index := by
      rw [hlist, List.length_eraseIdx_of_lt (by omega), hindex, Nat.add_sub_cancel]
    have hless : ∀ n, n ≠ held.index → Beyond envelopeId signerId s.rows n →
        Beyond envelopeId signerId s'.rows n := fun n hne hn => hset n hn fun _ hlt => by omega
    have hgone : ∀ k h', heldAbout envelopeId signerId (Function.update ts i t) k h' →
        k ≠ i ∧ heldAbout envelopeId signerId ts k h' := fun k h' hh' => by
      rcases heldAbout_update hh' with ⟨rfl, hh, -⟩ | hold
      · rw [hheld, hnone] at hh
        cases hh
      · exact hold
    refine h.keep (fun k h' hh' => (hgone k h' hh').2) (fun k h' hh' hn => ?_) (fun d hd hn => ?_)
      hkept (scheduledSends_congr hsends)
    · obtain ⟨hk, hold⟩ := hgone k h' hh'
      exact hless _ (h.apart k i h' held hk hold ⟨hown, habout⟩) hn
    · exact hless _ ((h.place i held ⟨hown, habout⟩).2.2.2 d hd) hn
  | other hlist hnothing =>
    have hsame : ∀ n, Beyond envelopeId signerId s.rows n → Beyond envelopeId signerId s'.rows n :=
      fun n hn => hset n hn fun hhere hlt => by rwa [hlist hhere]
    exact h.keep (heldAbout_keep fun h' hh' habout => hnothing h' (hheld ▸ hh') habout)
      (fun k h' _ hn => hsame _ hn) (fun d _ hn => hsame _ hn) hkept (scheduledSends_congr hsends)

/-- A reminder goes out while its claim is the last. -/
theorem Places.deliver (h : Places envelopeId signerId s (heldAbout envelopeId signerId ts))
    (hids : (s.rows.map (·.id)).Nodup) {tag : Tag ι} {envelope : DeliveryEnvelope}
    {links : List DeliveryLink} {ok : Bool} (htag : tag.who = i)
    (hturn : InTurn (.deliver tag envelope links) s)
    (hclaim : ∀ c sentTimestamp, tag.purpose = .claim c sentTimestamp →
      ∃ index, (ts i).own.held = some ⟨envelope.id, c, sentTimestamp, index⟩)
    (hheld : t.own.held = if tag.purpose.claims.isSome && ok then none else (ts i).own.held)
    (hrows : s'.rows = s.rows) (hhistory : s'.history = s.history)
    (hsends : s'.sends = s.sends ++ [⟨tag, envelope.id, ok⟩]) :
    Places envelopeId signerId s' (heldAbout envelopeId signerId (Function.update ts i t)) := by
  have hkeep : ∀ h', t.own.held = some h' → (ts i).own.held = some h' := fun h' hh' => by
    rw [hheld] at hh'
    split at hh'
    · cases hh'
    · exact hh'
  have hsent : scheduledSends envelopeId signerId s' = scheduledSends envelopeId signerId s ++
      [(⟨tag, envelope.id, ok⟩ : Send ι)].filter (·.schedules envelopeId signerId) := by
    rw [scheduledSends, hsends, List.filter_append, scheduledSends]
  by_cases hhit : (⟨tag, envelope.id, ok⟩ : Send ι).schedules envelopeId signerId = true
  · rw [List.filter_cons_of_pos hhit, List.filter_nil] at hsent
    obtain ⟨⟨⟨rfl, hid⟩, hsigner⟩, hsome⟩ := by
      simpa only [Send.schedules, Send.reminds, Bool.and_eq_true, beq_iff_eq] using hhit
    obtain ⟨who, purpose⟩ := tag
    obtain rfl : who = i := htag
    cases purpose with
    | claim c sentTimestamp =>
      obtain ⟨index, hhad⟩ := hclaim c sentTimestamp rfl
      have hsame : c.signerId = signerId := Option.some.inj hsigner
      have hkind : c.kind = .scheduled := by
        by_contra hmanual
        change (if c.kind = .scheduled then some c else none).isSome = true at hsome
        rw [if_neg hmanual] at hsome
        cases hsome
      have habout : (⟨envelope.id, c, sentTimestamp, index⟩ : Held).about envelopeId signerId :=
        ⟨hid, hsame, hkind⟩
      have hfound : index = foundIndex c := (h.place who _ ⟨hhad, habout⟩).1
      have hindex : sendIndex (⟨⟨who, .claim c sentTimestamp⟩, envelope.id, true⟩ : Send ι) = index := by
        change ((if c.kind = .scheduled then some c else none).map foundIndex).getD 0 = _
        rw [if_pos hkind, hfound]
        rfl
      refine h.send ⟨hhad, habout⟩ (fun j h' hh' => ?_) hindex rfl (fun n hn => ?_) hrows hhistory hsent
      · rcases heldAbout_update hh' with ⟨rfl, hh, -⟩ | hold
        · rw [hheld] at hh
          cases hh
        · exact hold
      · obtain ⟨row, hrow, hrowid, hlt⟩ := hn
        have hlength := hturn hkind row hrow (hrowid.trans hid.symm)
        rw [hsame] at hlength
        change n ≤ index
        omega
    | _ => cases hsigner
  · rw [List.filter_cons_of_neg hhit, List.filter_nil, List.append_nil] at hsent
    exact h.keep (heldAbout_keep fun h' hh' _ => hkeep h' hh') (fun _ _ _ hn => hrows ▸ hn)
      (fun _ _ hn => hrows ▸ hn) (fun w hw => hhistory ▸ hw) hsent

theorem Ordered.step (h : Ordered server envelopeId signerId s ts) (hbase : Base s ts)
    (hexec : exec op s r s') (hturn : InTurn op s)
    (hstep : ClaimStep server (ts i) ((serviceRules server).track (ts i) op r).own s s' op) :
    Ordered server envelopeId signerId s'
      (Function.update ts i ((serviceRules server).track (ts i) op r)) := by
  have hwho : ((serviceRules server).track (ts i) op r).own.who = (ts i).own.who :=
    next_who (ts i) server.config.webhook op r
  have hremembered : ∀ j, Remembered s' (Function.update ts i ((serviceRules server).track (ts i) op r) j) :=
    (Function.forall_update_iff ts fun _ t => Remembered s' t).mpr
      ⟨((h.remembered i).step hbase.ids hstep).track hexec, fun j _ =>
        (h.remembered j).step hbase.ids hstep⟩
  refine ⟨(Function.forall_update_iff ts fun j t => t.own.who = j).mpr
    ⟨hwho.trans (h.who i), fun j _ => h.who j⟩, hremembered, ?_, ?_⟩
  · cases hstep with
    | same hrows hhistory => rw [hhistory]; exact h.written
    | send tag envelope links ok hwho hrows hhistory => rw [hhistory]; exact h.written
    | write tag e j cur hj hedits hwrites hrows hhistory =>
      rw [hhistory]
      refine List.forall_mem_append.mpr ⟨h.written, List.forall_mem_singleton.mpr fun c hc => ?_⟩
      have hcur : cur ∈ s.rows := List.mem_of_getElem? hj
      obtain ⟨who, purpose⟩ := tag
      cases purpose with
      | claim c' sentTimestamp =>
        change (if c'.kind = .scheduled then some c' else none) = some c at hc
        split at hc
        next hkind =>
          obtain rfl := Option.some.inj hc
          obtain ⟨hid, hdue⟩ : cur.id = c'.envelopeIn.id ∧ Due server c' := by
            rcases hwrites.rewrite.reminders with ⟨c, time, hpurpose, hid, -, hdue, -⟩ |
              ⟨c, time, index, left, hpurpose, -⟩ | hnone
            · cases hpurpose
              exact ⟨hid, hdue⟩
            · cases hpurpose
            · exact absurd hnone.claims (Option.some_ne_none _)
          obtain ⟨row, hrow, hrowid, hcreated⟩ :=
            h.remembered i _ (hwrites.claims c' sentTimestamp rfl).2
          rw [eq_of_key hbase.ids hrow hcur (hrowid.trans hid.symm)] at hcreated
          exact ⟨hturn hkind cur hcur hedits.replaced, hdue, hcreated⟩
        next => cases hc
      | _ => cases hc
  · cases hstep with
    | same hrows hhistory hsends hheld =>
      have hkept : ∀ n, Beyond envelopeId signerId s.rows n → Beyond envelopeId signerId s'.rows n := by
        rcases hrows with hrows | ⟨e, -, hrows⟩ <;> rw [hrows]
        · exact fun _ hn => hn
        · exact fun _ hn => hn.append _
      exact h.places.keep (heldAbout_keep fun h' hh' _ => hheld ▸ hh') (fun _ _ _ hn => hkept _ hn)
        (fun _ _ hn => hkept _ hn) (fun w hw => hhistory ▸ hw) (scheduledSends_congr hsends)
    | write tag e j cur hj hedits hwrites hrows hhistory hsends hheld =>
      exact h.places.write hbase.ids hj hedits.id (hwrites.who.trans (h.who i)) hheld
        (list_step envelopeId signerId hwrites hedits (List.mem_of_getElem? hj) hturn) hrows hhistory
        hsends
    | send tag envelope links ok htag hrows hhistory hsends hclaim hheld =>
      exact h.places.deliver hbase.ids (htag.trans (h.who i)) hturn hclaim hheld hrows hhistory hsends

/-- Whatever is called, in any order and whatever fails: where each pass claims
the index that it had found, and no later one is claimed until that claim is
settled, the scheduled reminders of a signer go out in order and not early. -/
theorem scheduled_in_order {calls : ι → Call}
    {c : World ι × (ι → Prog (Op ι) Res (Except Thrown Unit))} (hstart : Starts s)
    (hhistory : s.history = []) (hsends : s.sends = [])
    (hrun : Run (Guarded exec InTurn) (serve server calls s) c) (envelopeId signerId : String) :
    SentInOrder server envelopeId signerId c.1 := by
  have hbegun : Serving server (serve server calls s) started := .start hstart calls
  have hnone : scheduledSends envelopeId signerId s = [] := by rw [scheduledSends, hsends]; rfl
  have hordered : Ordered server envelopeId signerId s started :=
    { who := fun _ => rfl
      remembered := fun _ _ he => by cases he
      written := by rw [hhistory]; exact List.forall_mem_nil _
      places :=
        { place := fun _ _ h => by cases h.1
          apart := fun _ _ _ _ _ h => by cases h.1
          sent := by rw [hnone]; exact List.forall_mem_nil _
          order := by rw [hnone]; exact .nil } }
  obtain ⟨ts, -, h⟩ := hbegun.run (J := fun s ts => Ordered server envelopeId signerId s ts)
    (fun _ _ _ _ h => h.1) (fun s ts i op r s' hbase h hexec hpermits =>
      h.step hbase hexec.1 hexec.2 (.of_exec hbase hexec.1 hpermits)) hordered hrun
  exact h.sentInOrder

end

end

namespace ReminderSample

/-- What is claimed is taken back. -/
def rollingBack (who : Bool) : List (Bool × Turn) := [(who, {}), (who, {})]

/-- One pass after the other, the first of which fails to send. -/
def inTurn : List (Bool × Turn) :=
  looking false 15 ++ sending false 15 false ++ rollingBack false ++ looking true 15 ++
    sending true 15 true

end ReminderSample

theorem scheduled_in_order_sample :
    let c := turned ReminderSample.inTurn ReminderSample.begun
    SentInOrder ServiceSample.server "envelope" "ann" c.1 ∧
      scheduledSends "envelope" "ann" c.1 ≠ [] :=
  ⟨scheduled_in_order ReminderSample.starts rfl rfl (turned_guarded (by decide +kernel)) _ _,
    List.length_pos_iff.mp (by decide +kernel)⟩

/-- Two passes overlap, and the second sends the reminder after the one that is
due. -/
theorem overlapping_early : ∃ c, Run exec ReminderSample.begun c ∧
    ¬ SentInOrder ServiceSample.server "envelope" "ann" c.1 := by
  refine ⟨turned ReminderSample.overlapping ReminderSample.begun, turned_run (by decide +kernel),
    fun h => ?_⟩
  have hsent : ∃ d ∈ scheduledSends "envelope" "ann"
        (turned ReminderSample.overlapping ReminderSample.begun).1,
      d.tag.who = true ∧ d.tag.purpose.scheduled.bind (·.foundAt) = some 15 := by decide +kernel
  have hclaimed : ∀ w ∈ (turned ReminderSample.overlapping ReminderSample.begun).1.history,
      w.tag.who = true → claimedIndex w = 1 ∧ w.old.createdAt = 0 := by decide +kernel
  obtain ⟨d, hd, hwho, hfound⟩ := hsent
  obtain ⟨w, hw, htag⟩ := h.claimed d hd
  obtain ⟨c, at_, hc, hat, -, hdue⟩ := h.due d hd w hw htag
  obtain ⟨hindex, hcreated⟩ := hclaimed w hw (htag ▸ hwho)
  rw [hc, Option.bind_some, hat] at hfound
  cases hfound
  rw [hindex, hcreated] at hdue
  exact absurd hdue (by decide)

end EsigSuite.Mcp
