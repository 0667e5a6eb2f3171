import EsigSuite.Mcp.EventLog
import EsigSuite.Lib.Polling
import Mathlib.Data.Int.Order.Basic

/-!
# Polling the event log

A client of `esig_list_events` asks again and again for the events after the last one
that it has seen, among calls of `appendEvent` that read one clock. The `createdAt` of
an event is read between the read and the write of the envelope, so the log grows by
time; but two events may have the same one.
-/

namespace EsigSuite.Mcp

open Lib Lib.Polling
open EnvelopeFile (getRev setRev)
open Protocol (Triple)

variable {ι : Type}

-- ---------------------------------------------------------------------------
-- listEvents
-- ---------------------------------------------------------------------------

/-- `listEvents` of `events/log.ts`. -/
def listEvents (e : McpEnvelope) (since : Option Time) : List EsigEvent :=
  match since with
  | none => eventsOf e
  | some since => (eventsOf e).filter fun event => since < event.createdAt

/-- `EnvelopeService.listEvents`. -/
def serviceListEvents (server : Server) (tag : Tag ι) (envelopeId : String) (since : Option Time) :
    M ι (List EsigEvent) := do
  match ← (store tag).findById server.config.tenant envelopeId with
  | none => throw (.error ("envelope not found: " ++ envelopeId))
  | some e => return listEvents e since

theorem listEvents_eq (e : McpEnvelope) (since : Option Time) :
    listEvents e since = newer EsigEvent.createdAt since (eventsOf e) := by cases since <;> rfl

-- ---------------------------------------------------------------------------
-- One clock and one poller
-- ---------------------------------------------------------------------------

abbrev EventMove := Move EsigEvent

/-- `clock` is the last time that was read, and `moves` is what has happened to the log
of one envelope. -/
structure Observed (ι : Type) where
  world : World ι
  clock : Time
  moves : List EventMove

/-- The events that the last writes have appended to the envelope. -/
def newlyAppended (envelopeId : String) (s s' : World ι) : List EsigEvent :=
  ((s'.history.drop s.history.length).filter (·.new.id == envelopeId)).flatMap newEvents

/-- The clock does not go back. -/
def Ticks : (op : Op ι) → Time → Res op → Time → Prop
  | .now, clock, r, clock' => clock ≤ (r : Time) ∧ clock' = r
  | _, clock, _, clock' => clock' = clock

def Observed.exec (envelopeId : String) (op : Op ι) (o : Observed ι) (r : Res op) (o' : Observed ι) :
    Prop :=
  Mcp.exec op o.world r o'.world ∧ Ticks op o.clock r o'.clock ∧
    o'.moves = o.moves ++ (newlyAppended envelopeId o.world o'.world).map .append

/-- The client asks with the `createdAt` of the last event that it has seen. A request
that fails tells it nothing. -/
def Observed.Polls (server : Server) (tag : Tag ι) (envelopeId : String) (o o' : Observed ι) : Prop :=
  ∃ events s', Prog.Eval Mcp.exec
      (serviceListEvents server tag envelopeId (cursor EsigEvent.createdAt o.moves)).run o.world
      (.ok events) s' ∧
    o' = { o with world := s', moves := o.moves ++ [.poll events] }

/-- A call of a caller, or a request of the client. -/
def PolledStep [DecidableEq ι] {α : Type} (server : Server) (tag : Tag ι) (envelopeId : String)
    (c c' : Observed ι × (ι → Prog (Op ι) Res α)) : Prop :=
  Step (Observed.exec envelopeId) c c' ∨ (c.1.Polls server tag envelopeId c'.1 ∧ c'.2 = c.2)

def PolledRun [DecidableEq ι] {α : Type} (server : Server) (tag : Tag ι) (envelopeId : String) :
    Observed ι × (ι → Prog (Op ι) Res α) → Observed ι × (ι → Prog (Op ι) Res α) → Prop :=
  Relation.ReflTransGen (PolledStep server tag envelopeId)

-- ---------------------------------------------------------------------------
-- The rules
-- ---------------------------------------------------------------------------

/-- The envelope that a call was last given, and the time that it has read since. -/
structure StampOwn where
  last : Option McpEnvelope := none
  stamp : Option Time := none

namespace StampOwn

def found (own : StampOwn) : Except Thrown (Option McpEnvelope) → StampOwn
  | .ok (some e) => { last := some e }
  | _ => own

def next (t : Track StampOwn) : (op : Op ι) → Res op → StampOwn
  | .findById .., r => t.own.found r
  | .now, r => { t.own with stamp := some (r : Time) }
  | .update .., _ => { t.own with stamp := none }
  | _, _ => t.own

/-- The envelope that was read last is written, with no event or with one of the time
that was read since. -/
def rules (envelopeId : String) : Rules ι StampOwn where
  edit t _ read e :=
    t.own.last = some read ∧ read.id = envelopeId ∧
      (eventsOf e = eventsOf read ∨ ∃ event : EsigEvent, event.id ∈ t.drawn ∧
        t.own.stamp = some event.createdAt ∧ eventsOf e = lastEvents (eventsOf read ++ [event]))
  allows _
    | .insert _ => False
    | _ => True
  next := next

end StampOwn

section
variable {server : Server} {who : ι} {envelopeId : String}

/-- The thread was last given this envelope. -/
def Given (e : McpEnvelope) (t : Track StampOwn) : Prop := t.own.last = some e ∧ e ∈ t.seen

def Anything (_ : Track StampOwn) : Prop := True

theorem find_given {tag : Tag ι} {tenantId : String} :
    (StampOwn.rules envelopeId).watch.protocol.Triple ((store tag).findById tenantId envelopeId)
      Anything (fun r t => ∀ e, r = some e → Given e t ∧ e.id = envelopeId) (fun _ => Anything) := by
  refine Rules.call fun t r _ hanswers _ => ⟨trivial, ?_⟩
  match r, hanswers with
  | .error e, _ => trivial
  | .ok none, _ => exact fun e he => by cases he
  | .ok (some e), hanswers =>
    rintro _ ⟨⟩
    exact ⟨⟨rfl, List.mem_cons_self⟩, (hanswers e rfl).2⟩

/-- What is outside may be the clock. -/
theorem outside_given {α : Type} {R : α → Prop} {x : M ι α} (hx : Outside R x) (e : McpEnvelope) :
    (StampOwn.rules envelopeId).watch.protocol.Triple x (Given e) (fun a t => R a ∧ Given e t)
      fun _ => Anything := by
  refine Protocol.Holds.post (Watch.within (P := Given e) hx fun op hop t r hlawful hP => ?_) fun
    | .ok _, _, _, h => h
    | .error _, _, _, _ => trivial
  have hpermits : (StampOwn.rules envelopeId).permits t op := by cases op <;> trivial
  refine ⟨⟨hlawful, hpermits⟩, ?_⟩
  obtain ⟨hlast, hseen⟩ := hP
  cases op <;> first | exact ⟨hlast, hseen⟩ | cases hop

theorem uuid_given (e : McpEnvelope) :
    (StampOwn.rules envelopeId).watch.protocol.Triple (randomUUID : M ι String) (Given e)
      (fun id t => Given e t ∧ id ∈ t.drawn) (fun _ => Anything) :=
  .lift (Rules.call fun _ _ h _ _ => ⟨trivial, h, List.mem_cons_self⟩)

theorem now_given (e : McpEnvelope) (id : String) :
    (StampOwn.rules envelopeId).watch.protocol.Triple (now : M ι Time)
      (fun t => Given e t ∧ id ∈ t.drawn)
      (fun createdAt t => (Given e t ∧ id ∈ t.drawn) ∧ t.own.stamp = some createdAt)
      (fun _ => Anything) :=
  .lift (Rules.call fun _ _ h _ _ => ⟨trivial, h, rfl⟩)

theorem audit_given {action : AuditAction} {targetId : String} {metadata : AuditMetadata}
    {P : Track StampOwn → Prop} (hP : ∀ t, P t) :
    (StampOwn.rules envelopeId).watch.protocol.Triple
      (audit server action targetId metadata : M ι Unit) P (fun _ => P) fun _ => P := by
  refine Rules.call fun t r _ _ _ => ⟨trivial, ?_⟩
  cases r <;> exact hP _

theorem writeEvent_given {tag : Tag ι} {e edited : McpEnvelope} {event : EsigEvent}
    (hkeeps : KeepsLog e edited) (hid : e.id = envelopeId) :
    (StampOwn.rules envelopeId).watch.protocol.Triple
      (writeEvent server tag envelopeId (appendEventInMemory edited event))
      (fun t => (Given e t ∧ event.id ∈ t.drawn) ∧ t.own.stamp = some event.createdAt)
      (fun _ => Anything) (fun _ => Anything) := by
  refine Triple.tryCatch (M := fun _ => Anything) ?_ fun error => .pure fun _ _ _ => trivial
  have hlog := appended_log hkeeps.2.2.2 event
  refine Triple.bind (M := fun _ => Anything) ?_ fun _ => Triple.bind (M := fun _ => Anything) ?_
    fun _ => .pure fun _ _ _ => trivial
  · refine Rules.call fun t r ⟨⟨⟨hlast, hseen⟩, hevent⟩, hstamp⟩ _ _ => ⟨⟨⟨e, hseen, ?_, ?_⟩, trivial⟩, ?_⟩
    · exact ⟨hkeeps.1, hkeeps.2.1, hkeeps.2.2.1, .inr ⟨event, hevent, hlog⟩⟩
    · exact ⟨hlast, hid, .inr ⟨event, hevent, hstamp, hlog⟩⟩
    · cases r <;> trivial
  · unfold auditTrimmed
    split
    · exact .pure fun _ _ h => h
    · exact audit_given fun _ => trivial

theorem appendAttempts_given (input : AppendEventInput ι) (hnow : input.now = now) (attempts : Nat) :
    (StampOwn.rules envelopeId).watch.protocol.Triple
      (appendAttempts server who input.purpose input.now envelopeId input.build attempts)
      Anything (fun _ => Anything) (fun _ => Anything) := by
  induction attempts with
  | zero => exact .throw fun _ _ h => h
  | succ attempts ih =>
    rw [appendAttempts]
    refine find_given.bind fun found => ?_
    cases found with
    | none => exact .throw fun _ _ _ => trivial
    | some e =>
      refine Triple.know (q := e.id = envelopeId) (fun t _ h => (h e rfl).2) fun hid => ?_
      refine Triple.mono (P := Given e) ?_ (fun t _ h => (h e rfl).1) (fun _ _ _ h => h) fun _ _ _ h => h
      refine (outside_given (input.build_outside e) e).bind fun built => .given fun hbuilt => ?_
      rcases built with _ | ⟨edited, event⟩
      · exact .pure fun _ _ _ => trivial
      · refine (uuid_given e).bind fun id => ?_
        rw [hnow]
        refine (now_given e id).bind fun createdAt => ?_
        refine (writeEvent_given (hbuilt edited event rfl) hid).bind fun outcome => ?_
        cases outcome with
        | none => exact .pure fun _ _ h => h
        | some error =>
          dsimp only
          split
          · exact .throw fun _ _ h => h
          · exact hnow ▸ ih

theorem writeUpdate_given {tag : Tag ι} {e edited : McpEnvelope} (hkeeps : KeepsLog e edited)
    (hid : e.id = envelopeId) :
    (StampOwn.rules envelopeId).watch.protocol.Triple (writeUpdate tag edited)
      (Given e) (fun _ => Anything) fun _ => Anything := by
  refine Triple.tryCatch (M := fun _ => Anything) ?_ fun error => .pure fun _ _ _ => trivial
  refine Triple.bind (M := fun _ => Anything) ?_ fun _ => .pure fun _ _ h => h
  refine Rules.call fun t r ⟨hlast, hseen⟩ _ _ => ⟨⟨⟨e, hseen, ?_, ?_⟩, trivial⟩, ?_⟩
  · exact ⟨hkeeps.1, hkeeps.2.1, hkeeps.2.2.1, .inl hkeeps.2.2.2⟩
  · exact ⟨hlast, hid, .inl hkeeps.2.2.2⟩
  · cases r <;> trivial

theorem updateAttempts_given (other : OtherWrite ι) (attempts : Nat) :
    (StampOwn.rules envelopeId).watch.protocol.Triple
      (updateAttempts server who other.purpose (fun _ purpose => purpose) envelopeId other.mutate
        attempts)
      Anything (fun _ => Anything) (fun _ => Anything) := by
  induction attempts with
  | zero => exact .throw fun _ _ h => h
  | succ attempts ih =>
    rw [updateAttempts]
    refine find_given.bind fun found => ?_
    cases found with
    | none => exact .throw fun _ _ _ => trivial
    | some e =>
      refine Triple.know (q := e.id = envelopeId) (fun t _ h => (h e rfl).2) fun hid => ?_
      refine Triple.mono (P := Given e) ?_ (fun t _ h => (h e rfl).1) (fun _ _ _ h => h) fun _ _ _ h => h
      refine (outside_given (other.mutate_outside e) e).bind fun built => .given fun hbuilt => ?_
      rcases built with _ | ⟨edited, b⟩
      · exact .pure fun _ _ _ => trivial
      · refine (writeUpdate_given (hbuilt edited b rfl) hid).bind fun outcome => ?_
        cases outcome with
        | ok e' => exact .pure fun _ _ h => h
        | error error =>
          dsimp only
          split
          · exact .throw fun _ _ h => h
          · exact ih

/-- Every caller reads the one clock. -/
def OneClock (calls : ι → LogCall ι) : Prop := ∀ i input, calls i = .append input → input.now = now

theorem logThread_given {calls : ι → LogCall ι} (hclock : OneClock calls) :
    (StampOwn.rules envelopeId).watch.Obeyed (fun i => logThread server envelopeId i (calls i))
      (fun _ _ => Anything) fun _ => { own := {} } := by
  refine fun i => ⟨trivial, Anything, trivial, ?_⟩
  show (StampOwn.rules envelopeId).watch.protocol.Holds (logThread server envelopeId i (calls i)) _ _
  cases hcall : calls i with
  | append input =>
    exact Protocol.Holds.post (appendAttempts_given input (hclock i input hcall) MAX_ATTEMPTS)
      fun _ _ _ _ => trivial
  | write other =>
    have hwrite : (StampOwn.rules envelopeId).watch.protocol.Triple
        ((fun _ => (none : Option EsigEvent)) <$> updateWithRetry server i other.purpose
          (fun _ purpose => purpose) envelopeId other.mutate)
        Anything (fun _ => Anything) fun _ => Anything :=
      Triple.map (Q := fun _ => Anything) (updateAttempts_given other MAX_ATTEMPTS)
    exact Protocol.Holds.post hwrite fun _ _ _ _ => trivial

end

-- ---------------------------------------------------------------------------
-- The invariant
-- ---------------------------------------------------------------------------

/-- A time that was read after an envelope: as long as that envelope is the one stored,
nothing in the log is later. -/
def Stamped (envelopeId : String) (o : Observed ι) (own : StampOwn) : Prop :=
  ∀ t, own.stamp = some t → t ≤ o.clock ∧ ∀ read, own.last = some read → read.id = envelopeId →
    (∃ row ∈ o.world.rows, row.id = envelopeId ∧ getRev row = getRev read) →
    ∀ event ∈ appendedIn o.moves, event.createdAt ≤ t

structure Timely (envelopeId : String) (o : Observed ι) (ts : ι → Track StampOwn) : Prop where
  nodup : ((appendedIn o.moves).map (·.id)).Nodup
  drawn : ∀ event ∈ appendedIn o.moves, event.id ∈ o.world.drawn
  unused : ∀ i, ∀ event ∈ appendedIn o.moves, event.id ∉ (ts i).drawn
  log : ∀ e ∈ o.world.rows, e.id = envelopeId → eventsOf e = lastEvents (appendedIn o.moves)
  sorted : (appendedIn o.moves).Pairwise fun a b => a.createdAt ≤ b.createdAt
  past : ∀ event ∈ appendedIn o.moves, event.createdAt ≤ o.clock
  fresh : ∀ i, Stamped envelopeId o (ts i).own
  seen : ∀ i read, (ts i).own.last = some read → read ∈ (ts i).seen
  answered : Answered EsigEvent.createdAt MAX_EVENTS o.moves

section
variable [DecidableEq ι] {envelopeId : String} {o o' : Observed ι} {ts : ι → Track StampOwn} {i : ι}

/-- Nothing happens to the envelope. -/
theorem Timely.retrack (h : Timely envelopeId o ts) (hrows : o'.world.rows = o.world.rows)
    (hgrown : ∀ id ∈ o.world.drawn, id ∈ o'.world.drawn) (hclock : o.clock ≤ o'.clock)
    (hmoves : o'.moves = o.moves) {t : Track StampOwn}
    (hdrawn : ∀ event ∈ appendedIn o.moves, event.id ∉ t.drawn) (hfresh : Stamped envelopeId o' t.own)
    (hseen : ∀ read, t.own.last = some read → read ∈ t.seen) :
    Timely envelopeId o' (Function.update ts i t) where
  nodup := hmoves ▸ h.nodup
  drawn := fun event hevent => hgrown _ (h.drawn event (hmoves ▸ hevent))
  unused := (Function.forall_update_iff ts fun _ u => ∀ event ∈ appendedIn o'.moves, event.id ∉ u.drawn).mpr
    ⟨hmoves ▸ hdrawn, fun j _ => hmoves ▸ h.unused j⟩
  log := hmoves ▸ hrows ▸ h.log
  sorted := hmoves ▸ h.sorted
  past := fun event hevent => (h.past event (hmoves ▸ hevent)).trans hclock
  fresh := (Function.forall_update_iff ts fun _ u => Stamped envelopeId o' u.own).mpr
    ⟨hfresh, fun j _ time htime => ⟨(h.fresh j time htime).1.trans hclock, by
      rw [hmoves, hrows]
      exact (h.fresh j time htime).2⟩⟩
  seen := (Function.forall_update_iff ts fun _ u => ∀ read, u.own.last = some read → read ∈ u.seen).mpr
    ⟨hseen, fun j _ => h.seen j⟩
  answered := hmoves ▸ h.answered

theorem newlyAppended_same {s s' : World ι} (h : s'.history = s.history) :
    newlyAppended envelopeId s s' = [] := by
  rw [newlyAppended, h, List.drop_length]
  rfl

theorem newlyAppended_wrote {s : World ι} {j : Nat} {w : Write ι} (h : w.new.id = envelopeId) :
    newlyAppended envelopeId s (wrote s j w) = newEvents w := by
  rw [newlyAppended, wrote, List.drop_left, List.filter_cons_of_pos (by simpa using h)]
  simp

omit [DecidableEq ι] in
/-- What a thread has read is older than what has just been written. -/
theorem older_than_written (hbase : Base o.world ts) {j : Nat} {cur new read : McpEnvelope} {w : ι}
    (hj : o.world.rows[j]? = some cur) (hcur : cur.id = envelopeId) (hid : new.id = cur.id)
    (hrev : getRev cur < getRev new) (hread : read ∈ (ts w).seen) (hreadid : read.id = envelopeId) :
    ¬ ∃ row ∈ o.world.rows.set j new, row.id = envelopeId ∧ getRev row = getRev read := by
  rintro ⟨row, hrow, hrowid, hsame⟩
  have hnew : row = new := eq_of_mem_set_key hbase.ids hj hid hrow (hrowid.trans hcur.symm)
  obtain ⟨old, hold, holdid, hle, -⟩ := hbase.current w read hread
  have hsamerow : old = cur :=
    eq_of_key hbase.ids hold (List.mem_of_getElem? hj) (holdid.trans (hreadid.trans hcur.symm))
  rw [hsamerow] at hle
  rw [hnew] at hsame
  omega

/-- No time that was read before the write is fresh after it. -/
theorem Timely.fresh_wrote (hbase : Base o.world ts) (h : Timely envelopeId o ts) {j : Nat}
    {tag : Tag ι} {cur new : McpEnvelope} (hj : o.world.rows[j]? = some cur)
    (hcur : cur.id = envelopeId) (hid : new.id = cur.id) (hrev : getRev cur < getRev new)
    {t : Track StampOwn} (hstamp : t.own.stamp = none) (moves : List EventMove) (k : ι) :
    Stamped envelopeId ⟨wrote o.world j ⟨tag, cur, new⟩, o.clock, moves⟩
      (Function.update ts i t k).own := by
  revert k
  refine (Function.forall_update_iff ts fun _ u =>
    Stamped envelopeId ⟨wrote o.world j ⟨tag, cur, new⟩, o.clock, moves⟩ u.own).mpr ⟨?_, ?_⟩
  · intro time htime
    cases hstamp.symm.trans htime
  · intro k _ time htime
    refine ⟨(h.fresh k time htime).1, fun read hread hreadid hrow => ?_⟩
    exact absurd hrow (older_than_written hbase hj hcur hid hrev (h.seen k read hread) hreadid)

theorem Timely.rewrite (hbase : Base o.world ts) (h : Timely envelopeId o ts) {j : Nat}
    {tag : Tag ι} {cur new : McpEnvelope} (hj : o.world.rows[j]? = some cur)
    (hcur : cur.id = envelopeId) (hid : new.id = cur.id) (hrev : getRev cur < getRev new)
    (hlog : eventsOf new = eventsOf cur) {t : Track StampOwn} (hstamp : t.own.stamp = none)
    (hlast : t.own.last = (ts i).own.last) (hseen : ∀ e ∈ (ts i).seen, e ∈ t.seen)
    (hdrawn : ∀ id ∈ t.drawn, id ∈ (ts i).drawn) :
    Timely envelopeId ⟨wrote o.world j ⟨tag, cur, new⟩, o.clock, o.moves⟩ (Function.update ts i t) where
  nodup := h.nodup
  drawn := h.drawn
  unused := (Function.forall_update_iff ts fun _ u => ∀ event ∈ appendedIn o.moves, event.id ∉ u.drawn).mpr
    ⟨fun event hevent hmem => h.unused i event hevent (hdrawn _ hmem), fun k _ => h.unused k⟩
  log := forall_mem_set h.log fun _ => hlog.trans (h.log cur (List.mem_of_getElem? hj) hcur)
  sorted := h.sorted
  past := h.past
  fresh := h.fresh_wrote hbase hj hcur hid hrev hstamp o.moves
  seen := (Function.forall_update_iff ts fun _ u => ∀ read, u.own.last = some read → read ∈ u.seen).mpr
    ⟨fun read hread => hseen read (h.seen i read (hlast ▸ hread)), fun k _ => h.seen k⟩
  answered := h.answered

theorem Timely.append (hbase : Base o.world ts) (h : Timely envelopeId o ts) {j : Nat}
    {tag : Tag ι} {cur new : McpEnvelope} (hj : o.world.rows[j]? = some cur)
    (hcur : cur.id = envelopeId) (hid : new.id = cur.id) (hrev : getRev cur < getRev new)
    {event : EsigEvent} (hlog : eventsOf new = lastEvents (eventsOf cur ++ [event]))
    (hevent : event.id ∈ (ts i).drawn) (hread : (ts i).own.last = some cur)
    (hcreated : (ts i).own.stamp = some event.createdAt) {t : Track StampOwn}
    (hstamp : t.own.stamp = none) (hlast : t.own.last = (ts i).own.last)
    (hseen : ∀ e ∈ (ts i).seen, e ∈ t.seen)
    (hdrawn : ∀ id ∈ t.drawn, id ∈ (ts i).drawn ∧ id ≠ event.id) :
    Timely envelopeId ⟨wrote o.world j ⟨tag, cur, new⟩, o.clock, o.moves ++ [.append event]⟩
      (Function.update ts i t) := by
  have hmem : cur ∈ o.world.rows := List.mem_of_getElem? hj
  have hall : appendedIn (o.moves ++ [.append event]) = appendedIn o.moves ++ [event] := by simp
  -- the time was read after the envelope, and the envelope is the one that is stored
  obtain ⟨hpast, hfresh⟩ := h.fresh i event.createdAt hcreated
  have hlatest : ∀ old ∈ appendedIn o.moves, old.createdAt ≤ event.createdAt :=
    hfresh cur hread hcur ⟨cur, hmem, hcur, rfl⟩
  exact
    { nodup := by
        rw [hall, List.map_append, List.nodup_append]
        refine ⟨h.nodup, List.nodup_singleton _, ?_⟩
        rintro id hold _ hlast rfl
        rw [List.map_singleton, List.mem_singleton] at hlast
        obtain ⟨old, hold, hsame⟩ := List.mem_map.mp hold
        exact h.unused i old hold (hsame.trans hlast ▸ hevent)
      drawn := by
        rw [hall]
        refine List.forall_mem_append.mpr ⟨h.drawn, fun last hlast => ?_⟩
        rw [List.mem_singleton.mp hlast]
        exact hbase.own_drawn i _ hevent
      unused := by
        rw [hall]
        refine (Function.forall_update_iff ts fun _ u =>
          ∀ old ∈ appendedIn o.moves ++ [event], old.id ∉ u.drawn).mpr ⟨?_, fun k hk => ?_⟩
        · refine List.forall_mem_append.mpr ⟨fun old hold hin => h.unused i old hold (hdrawn _ hin).1, ?_⟩
          intro last hlast hin
          rw [List.mem_singleton.mp hlast] at hin
          exact (hdrawn _ hin).2 rfl
        · refine List.forall_mem_append.mpr ⟨h.unused k, fun last hlast => ?_⟩
          rw [List.mem_singleton.mp hlast]
          exact hbase.apart i k (Ne.symm hk) _ hevent
      log := by
        intro e he hsame
        rw [eq_of_mem_set_key hbase.ids hj hid he (hsame.trans hcur.symm), hlog,
          h.log cur hmem hcur, hall]
        exact window_window_push _ _ _ MAX_EVENTS_pos
      sorted := by
        rw [hall]
        refine List.pairwise_append.mpr ⟨h.sorted, List.pairwise_singleton _ _, fun old hold last hlast => ?_⟩
        rw [List.mem_singleton.mp hlast]
        exact hlatest old hold
      past := by
        rw [hall]
        refine List.forall_mem_append.mpr ⟨h.past, fun last hlast => ?_⟩
        rw [List.mem_singleton.mp hlast]
        exact hpast
      fresh := h.fresh_wrote hbase hj hcur hid hrev hstamp _
      seen := (Function.forall_update_iff ts fun _ u => ∀ read, u.own.last = some read → read ∈ u.seen).mpr
        ⟨fun read hread => hseen read (h.seen i read (hlast ▸ hread)), fun k _ => h.seen k⟩
      answered := h.answered.append event }

theorem Timely.update (hbase : Base o.world ts) (h : Timely envelopeId o ts) {tag : Tag ι}
    {e : McpEnvelope} (hswap : Swapped tag e o.world o'.world) (hclock : o'.clock = o.clock)
    (hmoves : o'.moves = o.moves ++ (newlyAppended envelopeId o.world o'.world).map .append)
    (hpermits : (StampOwn.rules envelopeId).permits (ts i) (.update tag e)) :
    Timely envelopeId o' (Function.update ts i ((StampOwn.rules envelopeId).track (ts i) (.update tag e)
      (.ok (setRev e (getRev e + 1))))) := by
  obtain ⟨world, clock, moves⟩ := o'
  cases hclock
  obtain ⟨j, cur, hj, hread, hedits, ⟨hlast, hid, hlog⟩, rfl⟩ := hbase.swapped hpermits hswap
  have hnewid : (setRev e (getRev e + 1)).id = cur.id := hedits.id
  have hrev : getRev cur < getRev (setRev e (getRev e + 1)) := by
    rw [getRev, getRev, setRev, getRev, hedits.mcpRev]
    exact Nat.lt_succ_self _
  have hnewly := newlyAppended_wrote (s := o.world) (j := j) (w := ⟨tag, cur, setRev e (getRev e + 1)⟩)
    (hnewid.trans hid)
  replace hmoves : moves = o.moves ++ _ :=
    hmoves.trans (congrArg (fun events => o.moves ++ events.map Move.append) hnewly)
  rcases hlog with hsame | ⟨event, hevent, hcreated, hlog⟩
  · rw [newEvents_same (w := ⟨tag, cur, setRev e (getRev e + 1)⟩) hsame, List.map_nil,
      List.append_nil] at hmoves
    cases hmoves
    exact h.rewrite hbase hj hid hnewid hrev hsame rfl rfl (fun _ => List.mem_append_right _)
      fun id hin => (List.mem_filter.mp hin).1
  · have hnew : event ∉ eventsOf cur := fun hin =>
      hbase.log_unused i cur (List.mem_of_getElem? hj) event hin hevent
    rw [newEvents_append (w := ⟨tag, cur, setRev e (getRev e + 1)⟩) hlog hnew, List.map_singleton] at hmoves
    cases hmoves
    refine h.append hbase hj hid hnewid hrev hlog hevent hlast hcreated rfl rfl
      (fun _ => List.mem_append_right _) fun id hin => ?_
    obtain ⟨hin, hkept⟩ := List.mem_filter.mp hin
    refine ⟨hin, ?_⟩
    rintro rfl
    simp only [Bool.not_eq_true', List.any_eq_false, beq_iff_eq] at hkept
    exact hkept event (hlog ▸ mem_window_push _ _ _ MAX_EVENTS_pos) rfl

theorem Timely.step (hbase : Base o.world ts) (h : Timely envelopeId o ts) {op : Op ι} {r : Res op}
    (hexec : Observed.exec envelopeId op o r o')
    (hpermits : (StampOwn.rules envelopeId).permits (ts i) op) :
    Timely envelopeId o' (Function.update ts i ((StampOwn.rules envelopeId).track (ts i) op r)) := by
  obtain ⟨hexec, hticks, hmoves⟩ := hexec
  have hquiet (hsame : o'.world.history = o.world.history) : o'.moves = o.moves := by
    rw [hmoves, newlyAppended_same hsame, List.map_nil, List.append_nil]
  have hfresh (hrows : o'.world.rows = o.world.rows) (hmoves : o'.moves = o.moves)
      (hclock : o.clock ≤ o'.clock) : Stamped envelopeId o' (ts i).own := fun t ht =>
    ⟨(h.fresh i t ht).1.trans hclock, hrows ▸ hmoves ▸ (h.fresh i t ht).2⟩
  have hseen (es : List McpEnvelope) : ∀ read, (ts i).own.last = some read → read ∈ es ++ (ts i).seen :=
    fun read hread => List.mem_append_right _ (h.seen i read hread)
  cases op with
  | insert e => exact hpermits.2.2.elim
  | update tag e =>
    rcases hexec with ⟨hswap, rfl⟩ | ⟨hsame, error, rfl⟩
    · exact h.update hbase hswap hticks hmoves hpermits
    · refine h.retrack (congrArg (·.rows) hsame) (fun _ hin => by rwa [hsame]) hticks.ge
        (hquiet (congrArg (·.history) hsame))
        (fun event hevent hin => h.unused i event hevent (List.mem_filter.mp hin).1) ?_ (hseen _)
      intro t ht
      cases ht
  | random =>
    obtain ⟨-, hsame⟩ := hexec
    have hhistory := hquiet (congrArg (·.history) hsame)
    exact h.retrack (congrArg (·.rows) hsame) (fun _ hin => by rw [hsame]; exact List.mem_cons_of_mem _ hin)
      hticks.ge hhistory (h.unused i) (hfresh (congrArg (·.rows) hsame) hhistory hticks.ge) (hseen _)
  | randomUUID =>
    obtain ⟨hnew, hsame⟩ := hexec
    have hhistory := hquiet (congrArg (·.history) hsame)
    refine h.retrack (congrArg (·.rows) hsame) (fun _ hin => by rw [hsame]; exact List.mem_cons_of_mem _ hin)
      hticks.ge hhistory (fun event hevent hin => ?_)
      (hfresh (congrArg (·.rows) hsame) hhistory hticks.ge) (hseen _)
    rcases List.mem_cons.mp hin with heq | hin
    · exact hnew (heq ▸ h.drawn event hevent)
    · exact h.unused i event hevent hin
  | now =>
    obtain ⟨hle, hclock⟩ := hticks
    have hsame : SameRows o.world o'.world := sameRows hexec rfl
    refine h.retrack hsame.1 (fun _ hin => hsame.2.1 ▸ hin) (hclock ▸ hle) (hquiet hsame.2.2)
      (h.unused i) ?_ (hseen _)
    rintro _ ⟨⟩
    refine ⟨hclock.ge, fun _ _ _ _ event hevent => ?_⟩
    rw [hquiet hsame.2.2] at hevent
    exact (h.past event hevent).trans hle
  | findById tag tenantId id =>
    have hsame : SameRows o.world o'.world := sameRows hexec rfl
    have htrack (own : StampOwn) (es : List McpEnvelope)
        (hfresh : Stamped envelopeId o' own) (hlast : ∀ read, own.last = some read → read ∈ es ++ (ts i).seen) :
        Timely envelopeId o' (Function.update ts i
          { ts i with seen := es ++ (ts i).seen, lawful := (ts i).lawful ∧ True, own }) :=
      h.retrack hsame.1 (fun _ hin => hsame.2.1 ▸ hin) hticks.ge (hquiet hsame.2.2) (h.unused i)
        hfresh hlast
    match r with
    | .error e => exact htrack _ _ (hfresh hsame.1 (hquiet hsame.2.2) hticks.ge) (hseen _)
    | .ok none => exact htrack _ _ (hfresh hsame.1 (hquiet hsame.2.2) hticks.ge) (hseen _)
    | .ok (some e) =>
      refine htrack { last := some e } [e] (fun t ht => by cases ht) ?_
      rintro _ ⟨⟩
      exact List.mem_cons_self
  | _ =>
    have hsame : SameRows o.world o'.world := sameRows hexec rfl
    exact h.retrack hsame.1 (fun _ hin => hsame.2.1 ▸ hin) hticks.ge (hquiet hsame.2.2)
      (h.unused i) (hfresh hsame.1 (hquiet hsame.2.2) hticks.ge) (hseen _)

omit [DecidableEq ι] in
/-- What the client is told is read off the log at one moment. -/
theorem polls_cases {server : Server} {tag : Tag ι} (h : o.Polls server tag envelopeId o') :
    ∃ e ∈ o.world.rows, e.id = envelopeId ∧ o' = { o with
      moves := o.moves ++ [.poll (listEvents e (cursor EsigEvent.createdAt o.moves))] } := by
  obtain ⟨events, s', ⟨r, t, hexec, hrest⟩, rfl⟩ := h
  rcases hexec with ⟨rfl, rfl⟩ | ⟨rfl, error, rfl⟩
  · cases hfound : o.world.rows.find? fun e => e.tenantId == server.config.tenant && e.id == envelopeId with
    | none =>
      rw [hfound] at hrest
      cases hrest.1
    | some e =>
      rw [hfound] at hrest
      obtain ⟨hevents, rfl⟩ := hrest
      cases hevents
      have hkey := List.find?_some hfound
      simp only [Bool.and_eq_true, beq_iff_eq] at hkey
      exact ⟨e, List.mem_of_find?_eq_some hfound, hkey.2, rfl⟩
  · cases hrest.1

omit [DecidableEq ι] in
theorem Timely.poll {server : Server} {tag : Tag ι} (h : Timely envelopeId o ts)
    (hpolls : o.Polls server tag envelopeId o') :
    Timely envelopeId o' ts ∧ o'.world = o.world := by
  obtain ⟨e, he, hid, rfl⟩ := polls_cases hpolls
  have hevents : listEvents e (cursor EsigEvent.createdAt o.moves) =
      newer EsigEvent.createdAt (cursor EsigEvent.createdAt o.moves) (window MAX_EVENTS (appendedIn o.moves)) := by
    rw [listEvents_eq, h.log e he hid]
  have hall (events : List EsigEvent) : appendedIn (o.moves ++ [.poll events]) = appendedIn o.moves := by
    simp
  exact
    ⟨{ nodup := by rw [hall]; exact h.nodup
       drawn := by rw [hall]; exact h.drawn
       unused := by rw [hall]; exact h.unused
       log := by rw [hall]; exact h.log
       sorted := by rw [hall]; exact h.sorted
       past := by rw [hall]; exact h.past
       fresh := fun i t ht => by rw [hall]; exact h.fresh i t ht
       seen := h.seen
       answered := hevents ▸ h.answered.poll }, rfl⟩

-- ---------------------------------------------------------------------------
-- Every interleaving
-- ---------------------------------------------------------------------------

/-- The log before the calls, and a clock that is not behind it. -/
structure PollStart (envelopeId : String) (start : List EsigEvent) (o : Observed ι) : Prop where
  log : LogStart envelopeId start o.world
  sorted : start.Pairwise fun a b => a.createdAt ≤ b.createdAt
  past : ∀ event ∈ start, event.createdAt ≤ o.clock
  moves : o.moves = start.map .append

omit [DecidableEq ι] in
theorem appendedIn_map_append (events : List EsigEvent) :
    appendedIn (events.map Move.append) = events := by
  induction events with
  | nil => rfl
  | cons event events ih => rw [List.map_cons, appendedIn_cons_append, ih]

omit [DecidableEq ι] in
theorem PollStart.timely {start : List EsigEvent} (h : PollStart envelopeId start o) :
    Timely envelopeId o fun _ : ι => { own := {} } := by
  have hall : appendedIn o.moves = start := by rw [h.moves, appendedIn_map_append]
  exact
    { nodup := by rw [hall]; exact h.log.start_nodup
      drawn := by rw [hall]; exact h.log.start_drawn
      unused := fun _ _ _ => List.not_mem_nil
      log := fun e he hid => by
        rw [hall, h.log.log e he hid, lastEvents, window_of_le h.log.start_length]
      sorted := by rw [hall]; exact h.sorted
      past := by rw [hall]; exact h.past
      fresh := fun _ t ht => by cases ht
      seen := fun _ _ hread => by cases hread
      answered := fun pre events post heq => by
        have hmem : Move.poll events ∈ start.map Move.append := by rw [← h.moves, heq]; simp
        obtain ⟨_, _, hmove⟩ := List.mem_map.mp hmem
        cases hmove }

omit [DecidableEq ι] in
theorem PollStart.base {start : List EsigEvent} (h : PollStart envelopeId start o) :
    Base o.world fun _ : ι => ({ own := {} } : Track StampOwn) where
  ids := h.log.ids
  row_drawn := h.log.row_drawn
  log_drawn := h.log.log_drawn
  current _ _ he := by cases he
  own_drawn _ _ hid := by cases hid
  row_unused _ _ _ hid := by cases hid
  log_unused _ _ _ _ _ hid := by cases hid
  apart _ _ _ _ hid := by cases hid

theorem polledRun_timely {server : Server} {tag : Tag ι} {start : List EsigEvent} {calls : ι → LogCall ι}
    {o₀ : Observed ι} {c : Observed ι × (ι → Prog (Op ι) Res (Except Thrown (Option EsigEvent)))}
    (hclock : OneClock calls) (hstart : PollStart envelopeId start o₀)
    (hrun : PolledRun server tag envelopeId (o₀, fun i => logThread server envelopeId i (calls i)) c) :
    ∃ ts, Base c.1.world ts ∧ Timely envelopeId c.1 ts ∧
      (StampOwn.rules envelopeId).watch.Obeyed c.2 (fun _ _ => Anything) ts := by
  induction hrun with
  | refl => exact ⟨_, hstart.base, hstart.timely, logThread_given hclock⟩
  | tail _ hlast ih =>
    obtain ⟨ts, hbase, htimely, hobeyed⟩ := ih
    rcases hlast with ⟨i, op, k, r, o', hi, hexec, rfl⟩ | ⟨hpolls, hthreads⟩
    · have hanswers : (StampOwn.rules envelopeId).watch.answers op r :=
        ⟨answers_of_exec hexec.1, trivial⟩
      have hpermits := (hobeyed.next_ok hi hanswers).2
      exact ⟨_, hbase.step hexec.1 hpermits, htimely.step hbase hexec hpermits, hobeyed.step hi hanswers⟩
    · obtain ⟨htimely', hworld⟩ := htimely.poll hpolls
      exact ⟨ts, hworld ▸ hbase, htimely', hthreads ▸ hobeyed⟩

/-- A client whose last request was answered has seen every event, and none twice, if
and only if no event was appended with the `createdAt` of the last event that the
client had seen. -/
theorem polling_complete_iff (server : Server) (tag : Tag ι) (calls : ι → LogCall ι)
    {start : List EsigEvent} {o₀ : Observed ι}
    {threads : ι → Prog (Op ι) Res (Except Thrown (Option EsigEvent))}
    (hclock : OneClock calls) (hstart : PollStart envelopeId start o₀)
    (hrun : PolledRun server tag envelopeId (o₀, fun i => logThread server envelopeId i (calls i))
      (o, threads))
    (hlast : o.moves.getLast?.any Move.isPoll = true) (hfew : Few MAX_EVENTS o.moves) :
    Complete o.moves ↔ Untied EsigEvent.createdAt o.moves := by
  obtain ⟨ts, -, htimely, -⟩ := polledRun_timely hclock hstart hrun
  obtain ⟨m, hm, hpoll⟩ := (Option.any_eq_true _ _).mp hlast
  obtain ⟨moves, hmoves⟩ := List.getLast?_eq_some_iff.mp hm
  cases m with
  | append event => cases hpoll
  | poll events =>
    have hanswered := htimely.answered
    have hsorted := htimely.sorted
    have hnodup := List.Nodup.of_map _ htimely.nodup
    rw [hmoves] at hanswered hsorted hnodup hfew ⊢
    exact complete_iff hanswered hfew hsorted hnodup

end

-- ---------------------------------------------------------------------------
-- Two events of one millisecond
-- ---------------------------------------------------------------------------

/-- One call, answered as the turn says. -/
def Observed.answer (envelopeId : String) (turn : Turn) (op : Op ι) (o : Observed ι) :
    Res op × Observed ι :=
  let done := Mcp.answer turn op o.world
  (done.1,
    { world := done.2
      clock :=
        match op with
        | .now => turn.time
        | _ => o.clock
      moves := o.moves ++ (newlyAppended envelopeId o.world done.2).map .append })

/-- The turn suits the call, and its time is not in the past. -/
def Observed.suits (turn : Turn) (op : Op ι) (o : Observed ι) : Bool :=
  turn.suits op o.world &&
    match op with
    | .now => decide (o.clock ≤ turn.time)
    | _ => true

theorem Observed.answer_sound (envelopeId : String) (turn : Turn) (op : Op ι) (o : Observed ι)
    (h : Observed.suits turn op o = true) :
    Observed.exec envelopeId op o (Observed.answer envelopeId turn op o).1
      (Observed.answer envelopeId turn op o).2 := by
  obtain ⟨hsuits, htime⟩ := Bool.and_eq_true_iff.mp h
  refine ⟨Mcp.answer_sound turn op o.world hsuits, ?_, rfl⟩
  cases op with
  | now =>
    have hle : o.clock ≤ turn.time := of_decide_eq_true htime
    exact ⟨hle, rfl⟩
  | _ => rfl

/-- The state after a request, where the first row is the envelope. -/
def Observed.polled (o : Observed ι) : Observed ι :=
  { o with
    moves := o.moves ++ o.world.rows.head?.toList.map fun e =>
      .poll (listEvents e (cursor EsigEvent.createdAt o.moves)) }

theorem Observed.polled_sound {server : Server} {tag : Tag ι} {envelopeId : String} {o : Observed ι}
    (h : o.world.rows.head?.any (fun e => e.tenantId == server.config.tenant && e.id == envelopeId) = true) :
    o.Polls server tag envelopeId o.polled := by
  obtain ⟨e, hhead, hkey⟩ := (Option.any_eq_true _ _).mp h
  obtain ⟨rest, hrows⟩ := List.head?_eq_some_iff.mp hhead
  refine ⟨listEvents e (cursor EsigEvent.createdAt o.moves), o.world, ?_, ?_⟩
  · have hfound : o.world.rows.find? (fun e => e.tenantId == server.config.tenant && e.id == envelopeId) =
        some e := by
      rw [hrows]
      exact List.find?_cons_of_pos hkey
    exact ⟨.ok (some e), o.world, .inl ⟨rfl, congrArg Except.ok hfound.symm⟩, rfl, rfl⟩
  · rw [Observed.polled, hhead]
    rfl

namespace PollSample

/-- A call that appends one event. -/
def completed : AppendEventInput Bool where
  purpose _ := .plain
  now := now
  build e :=
    return some (e, { type := .envelope_completed, envelopeId := e.id, phase := derivePhase e })
  now_outside := now_outside
  build_outside e := .pure fun edited b h => by cases h; exact ⟨rfl, rfl, rfl, rfl⟩

/-- An envelope without events. -/
def fresh : Observed Bool where
  world := { rows := [ServiceSample.envelope {}], drawn := ["envelope"] }
  clock := 0
  moves := []

abbrev Threads := Bool → Prog (Op Bool) Res (Except Thrown (Option EsigEvent))

def threads : Threads := fun i => logThread ServiceSample.server "envelope" i (.append completed)

/-- The turns of one call, which reads the time 5. -/
def turns (who : Bool) (id : String) : List (Bool × Turn) :=
  [(who, {}), (who, { text := id }), (who, { time := 5 }), (who, {})]

/-- One of the callers appends, and the client asks. -/
def round (who : Bool) (id : String) (c : Observed Bool × Threads) : Observed Bool × Threads :=
  let c' := Schedule.run (Observed.answer "envelope") (turns who id) c
  (c'.1.polled, c'.2)

/-- The checks of a round. -/
def checks (who : Bool) (id : String) (c : Observed Bool × Threads) : Bool :=
  Schedule.checked (Observed.answer "envelope") Observed.suits (turns who id) c &&
    (Schedule.run (Observed.answer "envelope") (turns who id) c).1.world.rows.head?.any fun e =>
      e.tenantId == ServiceSample.server.config.tenant && e.id == "envelope"

theorem round_run {who : Bool} {id : String} {c : Observed Bool × Threads} (h : checks who id c = true) :
    PolledRun ServiceSample.server ⟨true, .plain⟩ "envelope" c (round who id c) := by
  obtain ⟨hturns, hrow⟩ := Bool.and_eq_true_iff.mp h
  have hrun := Schedule.run_checked (Observed.answer_sound "envelope") hturns
  exact .tail (Relation.ReflTransGen.mono (fun _ _ hstep => .inl hstep) _ _ hrun)
    (.inr ⟨Observed.polled_sound hrow, rfl⟩)

theorem fresh_start : PollStart "envelope" [] fresh where
  log :=
    { ids := List.nodup_singleton _
      row_drawn := by simp [fresh, ServiceSample.envelope]
      log_drawn := fun e he event hevent => by
        rw [List.mem_singleton.mp he] at hevent
        cases hevent
      log := fun e he _ => by
        rw [List.mem_singleton.mp he]
        rfl
      start_drawn := fun _ h => by cases h
      start_nodup := List.nodup_nil
      start_length := Nat.zero_le _
      history := rfl
      reported := rfl }
  sorted := .nil
  past _ h := by cases h
  moves := rfl

theorem one_clock : OneClock fun _ : Bool => .append completed := by
  rintro _ _ ⟨⟩
  rfl

/-- Two calls of one millisecond, each with a request behind it. -/
def one : Observed Bool × Threads := round true "first" (fresh, threads)

def two : Observed Bool × Threads := round false "second" one

theorem rounds_checked : checks true "first" (fresh, threads) = true ∧ checks false "second" one = true := by
  decide +kernel

theorem one_run : PolledRun ServiceSample.server ⟨true, .plain⟩ "envelope" (fresh, threads) one :=
  round_run rounds_checked.1

theorem two_run : PolledRun ServiceSample.server ⟨true, .plain⟩ "envelope" (fresh, threads) two :=
  one_run.trans (round_run rounds_checked.2)

end PollSample

theorem polling_complete_one :
    Complete PollSample.one.1.moves ∧ Untied EsigEvent.createdAt PollSample.one.1.moves := by
  have hcomplete : Complete PollSample.one.1.moves := ⟨by decide +kernel, by decide +kernel⟩
  have hfew : Few MAX_EVENTS PollSample.one.1.moves := by
    refine few_of_length ?_
    decide +kernel
  refine ⟨hcomplete, ?_⟩
  exact (polling_complete_iff ServiceSample.server ⟨true, .plain⟩ _ PollSample.one_clock
    PollSample.fresh_start PollSample.one_run (by decide +kernel) hfew).mp hcomplete

/-- The second event has the `createdAt` of the first, and the client, who has seen the
first, is never told of it. -/
theorem tied_event_missed : OneClock (fun _ : Bool => .append PollSample.completed) ∧
    PollStart "envelope" [] PollSample.fresh ∧
    PolledRun ServiceSample.server ⟨true, .plain⟩ "envelope" (PollSample.fresh, PollSample.threads)
      PollSample.two ∧
    PollSample.two.1.moves.getLast?.any Move.isPoll = true ∧ Few MAX_EVENTS PollSample.two.1.moves ∧
    ¬ Complete PollSample.two.1.moves := by
  refine ⟨PollSample.one_clock, PollSample.fresh_start, PollSample.two_run, by decide +kernel,
    few_of_length (by decide +kernel), fun hcomplete => ?_⟩
  have hmissed : ∃ event ∈ appendedIn PollSample.two.1.moves, event ∉ returnedIn PollSample.two.1.moves := by
    decide +kernel
  obtain ⟨event, hevent, hnot⟩ := hmissed
  exact hnot (hcomplete.1 event hevent)

end EsigSuite.Mcp
