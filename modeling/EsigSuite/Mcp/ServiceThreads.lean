import EsigSuite.Mcp.ReminderDuties

/-!
# Runs of the service

Every call obeys `serviceRules`, so an invariant that the permitted calls keep
holds after every interleaving of calls of the service.
-/

namespace EsigSuite.Mcp

open Lib
open EnvelopeFile (getRev setRev)
open Protocol (Triple)
open Duties (Calm Clear Idle Ready)

variable {ι : Type}

-- ---------------------------------------------------------------------------
-- One call
-- ---------------------------------------------------------------------------

namespace Duties

section
variable {server : Server} {who : ι}

/-- A calm program is a call. -/
theorem Calm.call {α : Type} {x : M ι α} (hx : Calm server who (fun _ => True) x fun _ _ => True) :
    (serviceRules server).watch.protocol.Triple (Functor.discard x) (fun t => Clear t ∧ Ready who t)
      (fun _ => Idle who) (fun _ => Idle who) :=
  (Calm.between hx.discard).mono (fun _ _ ht => ht) (fun _ _ _ ht => ⟨ht.1.owing, ht.2⟩)
    fun _ _ _ ht => ⟨ht.1.owing, ht.2⟩

theorem discard_triple {α : Type} {x : M ι α} {P Q : Track (Duties ι) → Prop}
    {E : Thrown → Track (Duties ι) → Prop}
    (hx : (serviceRules server).watch.protocol.Triple x P (fun _ => Q) E) :
    (serviceRules server).watch.protocol.Triple (discard x) P (fun _ => Q) E :=
  hx.bind fun _ => .pure fun _ _ ht => ht

theorem perform_triple (call : Call) :
    (serviceRules server).watch.protocol.Triple (perform server who call)
      (fun t => Clear t ∧ Ready who t) (fun _ => Idle who) (fun _ => Idle who) := by
  have hidle : ∀ t : Track (Duties ι), Clear t ∧ Ready who t → Idle who t := fun _ ht =>
    ⟨ht.1.owing, ht.2⟩
  cases call with
  | create args => exact Calm.create.call
  | resolve token => exact (Calm.resolve (.inl rfl)).any.call
  | recordViewed envelopeId signerId =>
    exact (Calm.between Calm.recordViewed).mono (fun _ _ ht => ht) (fun _ t _ ht => hidle t ht)
      fun _ t _ ht => hidle t ht
  | issueIdentityChallenge envelopeId signerId => exact Calm.issueIdentityChallenge.call
  | acceptPreVerifiedIdentity evt => exact Calm.acceptPreVerifiedIdentity.call
  | sign token image proof => exact discard_triple sign_triple
  | decline token reason => exact discard_triple decline_triple
  | void envelopeId => exact discard_triple void_triple
  | reseal envelopeId => exact Calm.reseal.call
  | sendReminder envelopeId signerId =>
    exact (discard_triple sendReminder_triple).mono (fun _ _ ht => ht) (fun _ t _ ht => hidle t ht)
      fun _ t _ ht => hidle t ht
  | schedulerTick purge =>
    exact schedulerTick_triple.mono (fun _ _ ht => ht) (fun _ t _ ht => hidle t ht)
      fun _ t _ ht => hidle t ht

theorem thread_holds (call : Call) :
    (serviceRules server).watch.protocol.Holds (thread server who call)
      (fun t => Clear t ∧ Ready who t) fun _ => Idle who :=
  Protocol.Holds.post (perform_triple call) fun
    | .ok _, _, _, ht => ht
    | .error _, _, _, ht => ht

end

end Duties

-- ---------------------------------------------------------------------------
-- Steps
-- ---------------------------------------------------------------------------

section
variable {server : Server} {s s' : World ι} {ts : ι → Track (Duties ι)} {i : ι} {op : Op ι}
  {r : Res op}

/-- What a permitted call does to the rows. -/
inductive RowStep (server : Server) (t : Track (Duties ι)) (s s' : World ι) : Op ι → Prop
  | same {op : Op ι} (hrows : s'.rows = s.rows) (hhistory : s'.history = s.history) :
      RowStep server t s s' op
  | insert (e : McpEnvelope) (hfresh : Fresh server t.drawn e)
      (hs' : s' = { s with rows := s.rows ++ [setRev e 0] }) : RowStep server t s s' (.insert e)
  | update (tag : Tag ι) (e : McpEnvelope) (j : Nat) (cur : McpEnvelope)
      (hj : s.rows[j]? = some cur) (hedits : Edits t.drawn cur e) (hwrites : Writes server t tag cur e)
      (hs' : s' = { s with rows := s.rows.set j (setRev e (getRev e + 1)),
                           history := s.history ++ [⟨tag, cur, setRev e (getRev e + 1)⟩] }) :
      RowStep server t s s' (.update tag e)

theorem RowStep.of_exec (hbase : Base s ts) (hexec : exec op s r s')
    (hpermits : (serviceRules server).permits (ts i) op) : RowStep server (ts i) s s' op := by
  cases hstores : op.stores with
  | false =>
    obtain ⟨hrows, -, hhistory⟩ := sameRows hexec hstores
    exact .same hrows hhistory
  | true =>
    cases op with
    | random => obtain ⟨-, rfl⟩ := hexec; exact .same rfl rfl
    | randomUUID => obtain ⟨-, rfl⟩ := hexec; exact .same rfl rfl
    | insert e =>
      rcases hexec with ⟨rfl, -⟩ | ⟨rfl, -⟩
      · exact .insert e hpermits.2.2.1 rfl
      · exact .same rfl rfl
    | update tag e =>
      rcases hexec with ⟨hswap, -⟩ | ⟨rfl, -⟩
      · obtain ⟨j, cur, hj, -, hedits, hwrites, hs'⟩ := hbase.swapped hpermits hswap
        exact .update tag e j cur hj hedits hwrites hs'
      · exact .same rfl rfl
    | _ => cases hstores

end

/-- A row after one was replaced by one of its id. -/
theorem mem_set_cases {rows : List McpEnvelope} {j : Nat} {cur new e : McpEnvelope}
    (hids : (rows.map (·.id)).Nodup) (hj : rows[j]? = some cur) (hid : new.id = cur.id)
    (he : e ∈ rows.set j new) : e = new ∨ (e ∈ rows ∧ e.id ≠ cur.id) := by
  by_cases hsame : e.id = cur.id
  · have hkey : ((rows.set j new).map (·.id)).Nodup := by rwa [map_set_same hj hid]
    have hnew : new ∈ rows.set j new := List.mem_set (List.getElem?_eq_some_iff.mp hj).1 _
    exact .inl (eq_of_key hkey he hnew (hsame.trans hid.symm))
  · rcases List.mem_or_eq_of_mem_set he with he | rfl
    · exact .inr ⟨he, hsame⟩
    · exact .inl rfl

/-- The other rows stay. -/
theorem mem_set_of_ne {rows : List McpEnvelope} {j : Nat} {cur e : McpEnvelope}
    (hj : rows[j]? = some cur) (he : e ∈ rows) (hne : e.id ≠ cur.id) (new : McpEnvelope) :
    e ∈ rows.set j new := by
  obtain ⟨k, hk, rfl⟩ := List.mem_iff_getElem.mp he
  have hjk : j ≠ k := by
    rintro rfl
    rw [List.getElem?_eq_getElem hk, Option.some.injEq] at hj
    exact hne (congrArg (·.id) hj)
  refine List.mem_iff_getElem.mpr ⟨k, by simpa using hk, ?_⟩
  simp [hjk]

-- ---------------------------------------------------------------------------
-- Runs
-- ---------------------------------------------------------------------------

/-- A state before the first call: what is stored and logged was drawn. -/
structure Starts (s : World ι) : Prop where
  ids : (s.rows.map (·.id)).Nodup
  row_drawn : ∀ e ∈ s.rows, e.id ∈ s.drawn
  log_drawn : ∀ e ∈ s.rows, ∀ event ∈ eventsOf e, event.id ∈ s.drawn

/-- Nobody has read or drawn anything. -/
def started (i : ι) : Track (Duties ι) := { own := { who := i } }

theorem Starts.base {s : World ι} (h : Starts s) : Base s started where
  ids := h.ids
  row_drawn := h.row_drawn
  log_drawn := h.log_drawn
  current _ _ he := by cases he
  own_drawn _ _ hid := by cases hid
  row_unused _ _ _ hid := by cases hid
  log_unused _ _ _ _ _ hid := by cases hid
  apart _ _ _ _ hid := by cases hid

/-- Every thread stands at a point of a call that obeys the rules. -/
structure Serving [DecidableEq ι] (server : Server)
    (c : World ι × (ι → Prog (Op ι) Res (Except Thrown Unit))) (ts : ι → Track (Duties ι)) : Prop where
  base : Base c.1 ts
  obeyed : (serviceRules server).watch.Obeyed c.2 (fun i _ => Idle i) ts

section
variable [DecidableEq ι] {server : Server} {c c' : World ι × (ι → Prog (Op ι) Res (Except Thrown Unit))}
  {ts : ι → Track (Duties ι)} {steps : (op : Op ι) → World ι → Res op → World ι → Prop}

/-- The service at the beginning of some calls. -/
abbrev serve (server : Server) (calls : ι → Call) (s : World ι) :
    World ι × (ι → Prog (Op ι) Res (Except Thrown Unit)) :=
  (s, fun i => thread server i (calls i))

theorem Serving.start {s : World ι} (hstart : Starts s) (calls : ι → Call) :
    Serving server (serve server calls s) started :=
  ⟨hstart.base, fun i =>
    ⟨trivial, _, ⟨⟨.inl rfl, rfl, rfl⟩, rfl, .inl rfl⟩, Duties.thread_holds (calls i)⟩⟩

/-- A call that has returned is idle. -/
theorem Serving.idle (h : Serving server c ts) {i : ι} {a : Except Thrown Unit}
    (hi : c.2 i = .pure a) : Idle i (ts i) := h.obeyed.finished hi

/-- What each permitted call keeps holds after every interleaving of calls. -/
theorem Serving.run {J : World ι → (ι → Track (Duties ι)) → Prop} (h : Serving server c ts)
    (hsteps : ∀ op s r s', steps op s r s' → exec op s r s')
    (hstep : ∀ s ts i op r s', Base s ts → J s ts → steps op s r s' →
      (serviceRules server).permits (ts i) op →
      J s' (Function.update ts i ((serviceRules server).track (ts i) op r)))
    (hJ : J c.1 ts) (hrun : Run steps c c') : ∃ ts', Serving server c' ts' ∧ J c'.1 ts' := by
  obtain ⟨s, threads⟩ := c
  obtain ⟨s', threads'⟩ := c'
  obtain ⟨ts', hbase, hJ', hobeyed⟩ := Rules.run
    (fun op s r s' h => ⟨hsteps op s r s' h, trivial⟩) hstep h.base hJ h.obeyed hrun
  exact ⟨ts', ⟨hbase, hobeyed⟩, hJ'⟩

/-- An invariant of the stored rows and their history. -/
theorem Serving.rows {J : World ι → Prop} (h : Serving server c ts)
    (hsteps : ∀ op s r s', steps op s r s' → exec op s r s')
    (hstep : ∀ s (ts : ι → Track (Duties ι)) i op r s', Base s ts → J s → steps op s r s' →
      RowStep server (ts i) s s' op → J s')
    (hJ : J c.1) (hrun : Run steps c c') : ∃ ts', Serving server c' ts' ∧ J c'.1 :=
  h.run (J := fun s _ => J s) hsteps (fun s ts i op r s' hbase hJ hop hpermits =>
    hstep s ts i op r s' hbase hJ hop (.of_exec hbase (hsteps op s r s' hop) hpermits)) hJ hrun

end

end EsigSuite.Mcp
