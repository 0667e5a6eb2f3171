import EsigSuite.Mcp.Tracks
import EsigSuite.Mcp.ServiceEvents

/-!
# The event log over all interleavings

Any number of `appendEvent` calls on one envelope, among writers who leave its
log alone. Where no audit row of trimmed events fails, the log is the end of
what was appended and the rest is reported once. Where one fails after the
update was written, the loop appends again.
-/

namespace EsigSuite.Mcp

open Lib
open EnvelopeFile (getRev setRev)
open Protocol (Triple)

variable {ι : Type}

-- ---------------------------------------------------------------------------
-- The calls
-- ---------------------------------------------------------------------------

def Leaves {β : Type} (e : McpEnvelope) (r : Option (McpEnvelope × β)) : Prop :=
  ∀ edited b, r = some (edited, b) → KeepsLog e edited

/-- `AppendEventInput`. The callback asks only the outside. -/
structure AppendEventInput (ι : Type) where
  purpose : Nat → Purpose
  now : M ι Time
  build : Build ι
  now_outside : Outside (fun _ => True) now
  build_outside : ∀ e, Outside (Leaves e) (build e)

/-- Another write of the envelope. -/
structure OtherWrite (ι : Type) where
  purpose : Nat → Purpose
  mutate : McpEnvelope → M ι (Option (McpEnvelope × Unit))
  mutate_outside : ∀ e, Outside (Leaves e) (mutate e)

inductive LogCall (ι : Type)
  | append (input : AppendEventInput ι)
  | write (other : OtherWrite ι)

def logThread (server : Server) (envelopeId : String) (who : ι) :
    LogCall ι → Prog (Op ι) Res (Except Thrown (Option EsigEvent))
  | .append input =>
    (appendEvent server who input.purpose input.now envelopeId input.build).run
  | .write other =>
    ((fun _ => none) <$> updateWithRetry server who other.purpose (fun _ purpose => purpose)
      envelopeId other.mutate : M ι (Option EsigEvent)).run

-- ---------------------------------------------------------------------------
-- What is appended, dropped and reported
-- ---------------------------------------------------------------------------

def newEvents (w : Write ι) : List EsigEvent :=
  (eventsOf w.new).filter fun event => event ∉ eventsOf w.old

def droppedEvents (w : Write ι) : List EsigEvent :=
  (eventsOf w.old).filter fun event => event ∉ eventsOf w.new

def appended (s : World ι) : List EsigEvent := s.history.flatMap newEvents

def dropped (s : World ι) : List EsigEvent := s.history.flatMap droppedEvents

/-- The events that the updates of one caller appended. -/
def appendedBy [DecidableEq ι] (who : ι) (s : World ι) : List EsigEvent :=
  (s.history.filter (·.tag.who = who)).flatMap newEvents

def trimmedIdsOf (envelopeId : String) (entry : AuditLogEntry) : List String :=
  if entry.action = .events_trimmed ∧ entry.targetId = envelopeId then
    match entry.metadata with
    | .trimmed trimmedIds => trimmedIds
    | _ => []
  else []

/-- The ids in the `events.trimmed` rows of the envelope. -/
def reported (envelopeId : String) (s : World ι) : List String :=
  s.audits.flatMap (trimmedIdsOf envelopeId)

-- ---------------------------------------------------------------------------
-- The rules
-- ---------------------------------------------------------------------------

/-- What is followed of a call: the envelope it was last given, whether it has
appended, and the ids it has still to report. -/
structure AppendOwn (ι : Type) where
  who : ι
  last : Option McpEnvelope := none
  wrote : Bool := false
  due : List String := []

/-- The ids that go when an event is appended. -/
def trimmedIds (e : McpEnvelope) : List String :=
  ((eventsOf e).take ((eventsOf e).length + 1 - MAX_EVENTS)).map (·.id)

/-- The log has an event under an identifier that was just drawn. -/
def hasNew (drawn : List String) (e : McpEnvelope) : Bool :=
  (eventsOf e).any fun event => event.id ∈ drawn

/-- A report of trimmed events is written. -/
def Reported : (op : Op ι) → Res op → Prop
  | .audit entry, r => entry.action = .events_trimmed → (r : Except Thrown Unit) = .ok ()
  | _, _ => True

namespace AppendOwn

def found (own : AppendOwn ι) : Except Thrown (Option McpEnvelope) → AppendOwn ι
  | .ok (some e) => { own with last := some e }
  | _ => own

def updated (t : Track (AppendOwn ι)) (e : McpEnvelope) :
    Except Thrown McpEnvelope → AppendOwn ι
  | .ok _ =>
    match t.own.last with
    | some read =>
      if hasNew t.drawn e then { t.own with wrote := true, due := trimmedIds read } else t.own
    | none => t.own
  | .error _ => t.own

theorem updated_ok {t : Track (AppendOwn ι)} {e read : McpEnvelope} (e' : McpEnvelope)
    (hlast : t.own.last = some read) (hnew : hasNew t.drawn e = true) :
    updated t e (.ok e') = { t.own with wrote := true, due := trimmedIds read } := by
  simp only [updated, hlast, hnew, if_true]

theorem updated_same {t : Track (AppendOwn ι)} {e : McpEnvelope} (r : Except Thrown McpEnvelope)
    (hold : hasNew t.drawn e = false) : updated t e r = t.own := by
  cases r with
  | error error => rfl
  | ok e' =>
    cases hlast : t.own.last with
    | none => simp only [updated, hlast]
    | some read => simp [updated, hlast, hold]

def audited (own : AppendOwn ι) (entry : AuditLogEntry) : AppendOwn ι :=
  if entry.action = .events_trimmed then { own with due := [] } else own

def next (t : Track (AppendOwn ι)) : (op : Op ι) → Res op → AppendOwn ι
  | .findById .., r => t.own.found r
  | .update _ e, r => updated t e r
  | .audit entry, _ => t.own.audited entry
  | _, _ => t.own

/-- One envelope is written: one event at most, and its report follows. -/
def rules (envelopeId : String) : Rules ι (AppendOwn ι) where
  answers := Reported
  edit t tag read e :=
    t.own.last = some read ∧ read.id = envelopeId ∧ t.own.due = [] ∧
      (hasNew t.drawn e = true → tag.who = t.own.who ∧ t.own.wrote = false)
  allows t
    | .audit entry => entry.action = .events_trimmed → entry.targetId = envelopeId ∧
        entry.metadata = .trimmed t.own.due ∧ t.own.due ≠ []
    | .insert _ => False
    | _ => True
  next := next

theorem passes (envelopeId : String) : (rules envelopeId : Rules ι _).Passes where
  allows t op hop := by cases op <;> first | trivial | cases hop
  next t op r hop := by cases op <;> first | rfl | cases hop

end AppendOwn

-- ---------------------------------------------------------------------------
-- The programs under the rules
-- ---------------------------------------------------------------------------

/-- Nothing is owed. -/
def Settled (who : ι) (t : Track (AppendOwn ι)) : Prop := t.own.who = who ∧ t.own.due = []

/-- Nothing has been appended either. -/
def Unwritten (who : ι) (t : Track (AppendOwn ι)) : Prop := Settled who t ∧ t.own.wrote = false

def Holding (e : McpEnvelope) (t : Track (AppendOwn ι)) : Prop :=
  t.own.last = some e ∧ e ∈ t.seen

section
variable {server : Server} {who : ι} {envelopeId tenantId : String} {tag : Tag ι}
  {P : Track (AppendOwn ι) → Prop}

theorem find_triple (hP : ∀ t e, P t →
      P { t with seen := e :: t.seen, own := { t.own with last := some e } }) :
    (AppendOwn.rules envelopeId).watch.protocol.Triple ((store tag).findById tenantId envelopeId) P
      (fun r t => P t ∧ ∀ e, r = some e → Holding e t ∧ e.id = envelopeId) (fun _ => P) := by
  refine Rules.call fun t r hPt hanswers _ => ⟨trivial, ?_⟩
  match r, hanswers with
  | .error e, _ => exact hPt
  | .ok none, _ => exact ⟨hPt, fun e he => by cases he⟩
  | .ok (some e), hanswers =>
    refine ⟨hP t e hPt, ?_⟩
    rintro _ ⟨⟩
    exact ⟨⟨rfl, List.mem_cons_self⟩, (hanswers e rfl).2⟩

theorem uuid_triple (hP : ∀ t id, P t → P { t with drawn := id :: t.drawn }) :
    (AppendOwn.rules envelopeId).watch.protocol.Triple (randomUUID : M ι String) P
      (fun id t => P t ∧ id ∈ t.drawn) (fun _ => P) :=
  .lift (Rules.call fun t id hPt _ _ => ⟨trivial, hP t id hPt, List.mem_cons_self⟩)

theorem trimmed_ids {e edited : McpEnvelope} (hlog : eventsOf edited = eventsOf e)
    (event : EsigEvent) :
    (appendEventInMemory edited event).2.map (·.id) = trimmedIds e := by
  rw [trimmedIds, ← spilled_push _ _ event MAX_EVENTS_pos, ← hlog]
  rfl

theorem appended_log {e edited : McpEnvelope} (hlog : eventsOf edited = eventsOf e)
    (event : EsigEvent) :
    eventsOf (appendEventInMemory edited event).1 = lastEvents (eventsOf e ++ [event]) := by
  rw [appendEventInMemory, eventsOf_setEvents, hlog, lastEvents, window]

/-- The report of what an append has trimmed. -/
theorem auditTrimmed_triple {trimmed : List EsigEvent}
    {E : Thrown → Track (AppendOwn ι) → Prop} :
    (AppendOwn.rules envelopeId).watch.protocol.Triple
      (auditTrimmed server envelopeId trimmed : M ι Unit)
      (fun t => t.own.who = who ∧ t.own.due = trimmed.map (·.id)) (fun _ => Settled who) E := by
  unfold auditTrimmed
  split
  next h => exact .pure fun t _ ht => ⟨ht.1, ht.2.trans (by rw [h, List.map_nil])⟩
  next h =>
    refine Rules.call fun t r ht _ hreported => ⟨fun _ => ⟨rfl, by rw [ht.2]; rfl, ?_⟩, ?_⟩
    · rw [ht.2]
      simpa using h
    · rw [show r = Except.ok () from hreported rfl]
      exact ⟨ht.1, rfl⟩

/-- The update of an append, with its report. -/
theorem writeEvent_triple {e edited : McpEnvelope} {event : EsigEvent} (hkeeps : KeepsLog e edited)
    (hid : e.id = envelopeId) :
    (AppendOwn.rules envelopeId).watch.protocol.Triple
      (writeEvent server ⟨who, purpose⟩ envelopeId (appendEventInMemory edited event))
      (fun t => (Unwritten who t ∧ Holding e t) ∧ event.id ∈ t.drawn)
      (fun o t => Settled who t ∧ (o ≠ none → Unwritten who t)) (fun _ _ => False) := by
  unfold writeEvent
  refine Triple.tryCatch (M := fun _ t => Unwritten who t) ?_ fun error =>
    .pure fun t _ h => ⟨h.1, fun _ => h⟩
  have hlog := appended_log hkeeps.2.2.2 event
  refine Triple.bind (M := fun _ t => t.own.who = who ∧
    t.own.due = (appendEventInMemory edited event).2.map (·.id)) ?_ fun _ => ?_
  · refine Rules.call fun t r ⟨⟨hunwritten, hlast, hseen⟩, hevent⟩ _ _ => ⟨⟨⟨e, hseen, ?_, ?_⟩, trivial⟩, ?_⟩
    · exact ⟨hkeeps.1, hkeeps.2.1, hkeeps.2.2.1, .inr ⟨event, hevent, hlog⟩⟩
    · exact ⟨hlast, hid, hunwritten.1.2, fun _ => ⟨hunwritten.1.1.symm, hunwritten.2⟩⟩
    · match r with
      | .error error => exact hunwritten
      | .ok updated =>
        have hnew : hasNew t.drawn (appendEventInMemory edited event).1 = true := by
          rw [hasNew, hlog, List.any_eq_true]
          exact ⟨event, mem_window_push _ _ _ MAX_EVENTS_pos, by simpa using hevent⟩
        have hown := AppendOwn.updated_ok updated hlast hnew
        refine ⟨?_, ?_⟩
        · change (AppendOwn.updated t _ (.ok updated)).who = who
          rw [hown]
          exact hunwritten.1.1
        · change (AppendOwn.updated t _ (.ok updated)).due = _
          rw [hown, trimmed_ids hkeeps.2.2.2]
  · exact auditTrimmed_triple.bind fun _ => .pure fun t _ h => ⟨h, fun hnone => absurd rfl hnone⟩

/-- `appendEvent` appends once at most, and has nothing to report when it is over. -/
theorem appendAttempts_triple (input : AppendEventInput ι) (attempts : Nat) :
    (AppendOwn.rules envelopeId).watch.protocol.Triple
      (appendAttempts server who input.purpose input.now envelopeId input.build attempts)
      (Unwritten who) (fun _ => Settled who) (fun _ => Settled who) := by
  induction attempts with
  | zero => exact .throw fun t _ h => h.1
  | succ attempts ih =>
    rw [appendAttempts]
    refine (find_triple (P := Unwritten who) fun _ _ h => h).mono (fun _ _ h => h) (fun _ _ _ h => h)
      (fun _ _ _ h => h.1) |>.bind fun found => ?_
    cases found with
    | none => exact .throw fun t _ h => h.1.1
    | some e =>
      refine Triple.know (q := e.id = envelopeId) (fun t _ h => (h.2 e rfl).2) fun hid => ?_
      refine Triple.mono (P := fun t => Unwritten who t ∧ Holding e t) ?_
        (fun t _ h => ⟨h.1, (h.2 e rfl).1⟩) (fun _ _ _ h => h) fun _ _ _ h => h
      refine ((AppendOwn.passes envelopeId).triple (input.build_outside e) _).mono (fun _ _ h => h)
        (fun _ _ _ h => h) (fun _ t _ h => h.1.1) |>.bind fun built => .given fun hbuilt => ?_
      match built, hbuilt with
      | none, _ => exact .pure fun t _ h => h.1.1
      | some (edited, event), hbuilt =>
        have hkeeps : KeepsLog e edited := hbuilt edited event rfl
        refine (uuid_triple (P := fun t => Unwritten who t ∧ Holding e t) fun _ _ h => h).mono
          (fun _ _ h => h) (fun _ _ _ h => h) (fun _ t _ h => h.1.1) |>.bind fun id => ?_
        refine ((AppendOwn.passes envelopeId).triple input.now_outside _).mono (fun _ _ h => h)
          (fun _ _ _ h => h.2) (fun _ t _ h => h.1.1.1) |>.bind fun createdAt => ?_
        refine ((writeEvent_triple hkeeps hid).mono (fun _ _ h => h) (fun _ _ _ h => h)
          (fun _ _ _ h => h.elim)).bind fun outcome => ?_
        cases outcome with
        | none => exact .pure fun t _ h => h.1
        | some error =>
          dsimp only
          split
          · exact .throw fun t _ h => h.1
          · exact ih.mono (fun t _ h => h.2 nofun) (fun _ _ _ h => h) fun _ _ _ h => h

/-- A writer who appends nothing and draws nothing. -/
def Aside (who : ι) (t : Track (AppendOwn ι)) : Prop := Settled who t ∧ t.drawn = []

theorem hasNew_nil (e : McpEnvelope) : hasNew [] e = false := by simp [hasNew]

theorem writeUpdate_triple {e edited : McpEnvelope} (hkeeps : KeepsLog e edited)
    (hid : e.id = envelopeId) :
    (AppendOwn.rules envelopeId).watch.protocol.Triple (writeUpdate tag edited)
      (fun t => Aside who t ∧ Holding e t) (fun _ => Aside who) fun _ => Settled who := by
  unfold writeUpdate
  refine Triple.tryCatch (M := fun _ => Aside who) ?_ fun error => .pure fun t _ h => h
  refine Triple.bind (M := fun _ => Aside who) ?_ fun _ => .pure fun t _ h => h
  refine Rules.call fun t r ⟨haside, hlast, hseen⟩ _ _ => ?_
  have hold : hasNew t.drawn edited = false := by
    rw [haside.2]
    exact hasNew_nil edited
  have haside' : Aside who ((AppendOwn.rules envelopeId).advance t (.update tag edited) r) := by
    refine ⟨?_, ?_⟩
    · change Settled who { t with own := AppendOwn.updated t edited r }
      rw [AppendOwn.updated_same r hold]
      exact haside.1
    · change t.drawn.filter _ = []
      rw [haside.2]
      rfl
  refine ⟨⟨⟨e, hseen, ⟨hkeeps.1, hkeeps.2.1, hkeeps.2.2.1, .inl hkeeps.2.2.2⟩,
    hlast, hid, haside.1.2, fun hnew => ?_⟩, trivial⟩, ?_⟩
  · rw [hold] at hnew
    cases hnew
  · cases r <;> exact haside'

theorem updateAttempts_triple (other : OtherWrite ι) (attempts : Nat) :
    (AppendOwn.rules envelopeId).watch.protocol.Triple
      (updateAttempts server who other.purpose (fun _ purpose => purpose) envelopeId other.mutate
        attempts)
      (Aside who) (fun _ => Settled who) (fun _ => Settled who) := by
  induction attempts with
  | zero => exact .throw fun t _ h => h.1
  | succ attempts ih =>
    rw [updateAttempts]
    refine (find_triple (P := Aside who) fun _ _ h => h).mono (fun _ _ h => h) (fun _ _ _ h => h)
      (fun _ _ _ h => h.1) |>.bind fun found => ?_
    cases found with
    | none => exact .throw fun t _ h => h.1.1
    | some e =>
      refine Triple.know (q := e.id = envelopeId) (fun t _ h => (h.2 e rfl).2) fun hid => ?_
      refine Triple.mono (P := fun t => Aside who t ∧ Holding e t) ?_
        (fun t _ h => ⟨h.1, (h.2 e rfl).1⟩) (fun _ _ _ h => h) fun _ _ _ h => h
      refine ((AppendOwn.passes envelopeId).triple (other.mutate_outside e) _).mono
        (fun _ _ h => h) (fun _ _ _ h => h) (fun _ t _ h => h.1.1) |>.bind fun built =>
          .given fun hbuilt => ?_
      rcases built with _ | ⟨edited, b⟩
      · exact .pure fun t _ h => h.1.1
      · refine (writeUpdate_triple (hbuilt edited b rfl) hid).bind fun outcome => ?_
        cases outcome with
        | ok e' => exact .pure fun t _ h => h.1
        | error error =>
          dsimp only
          split
          · exact .throw fun t _ h => h.1
          · exact ih

end

end EsigSuite.Mcp
