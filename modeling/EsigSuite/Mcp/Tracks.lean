import EsigSuite.Mcp.ServiceWorld
import EsigSuite.Lib.Table
import EsigSuite.Lib.Window

/-!
# What a thread has read and drawn

A `Track` follows one thread: the envelopes it was given and the identifiers it
drew. A thread that writes back edits of what it was given, and puts each
identifier to one use, replaces the very row that it read.
-/

namespace EsigSuite.Mcp

open Lib
open EnvelopeFile (getRev setRev)

variable {ι X : Type}

-- ---------------------------------------------------------------------------
-- Tracks
-- ---------------------------------------------------------------------------

/-- `own` is what a claim follows besides. -/
structure Track (X : Type) where
  seen : List McpEnvelope := []
  drawn : List String := []
  lawful : Prop := True
  own : X

def found : Except Thrown (Option McpEnvelope) → List McpEnvelope
  | .ok (some e) => [e]
  | _ => []

/-- The envelopes in an answer. -/
def given : (op : Op ι) → Res op → List McpEnvelope
  | .insert _, r | .update .., r => found (some <$> (r : Except Thrown McpEnvelope))
  | .findById .., r | .findByTokenHash _, r => found r
  | .listEnvelopes _, r =>
    match (r : Except Thrown (List McpEnvelope)) with
    | .ok es => es
    | .error _ => []
  | _, _ => []

/-- An identifier is used once, whether the write succeeds or not. -/
def drawnAfter : (op : Op ι) → Res op → List String → List String
  | .randomUUID, id, drawn => (id : String) :: drawn
  | .insert e, _, drawn => drawn.filter (· != e.id)
  | .update _ e, _, drawn => drawn.filter fun id => !(eventsOf e).any (·.id == id)
  | _, _, drawn => drawn

/-- What is known of an answer whatever the state. -/
def Answers : (op : Op ι) → Res op → Prop
  | .insert e, r => ∀ e', r = Except.ok e' → e' = setRev e 0
  | .update _ e, r => ∀ e', r = Except.ok e' → e' = setRev e (getRev e + 1)
  | .findById _ tenantId id, r =>
    ∀ e, r = Except.ok (some e) → e.tenantId = tenantId ∧ e.id = id
  | .listEnvelopes tenantId, r => ∀ es, r = Except.ok es → ∀ e ∈ es, e.tenantId = tenantId
  | _, _ => True

/-- What a log keeps. -/
abbrev lastEvents (events : List EsigEvent) : List EsigEvent := window MAX_EVENTS events

theorem MAX_EVENTS_pos : 0 < MAX_EVENTS := by
  unfold MAX_EVENTS
  decide

/-- The key and the revision are not a thread's to change, and an event is new. -/
structure Edits (drawn : List String) (e e' : McpEnvelope) : Prop where
  id : e'.id = e.id
  tenantId : e'.tenantId = e.tenantId
  mcpRev : e'.mcpRev = e.mcpRev
  log : eventsOf e' = eventsOf e ∨
    ∃ event : EsigEvent, event.id ∈ drawn ∧ eventsOf e' = lastEvents (eventsOf e ++ [event])

/-- What a thread makes of the envelope it is given: neither the key, the
revision nor the log. -/
def KeepsLog (e e' : McpEnvelope) : Prop :=
  e'.id = e.id ∧ e'.tenantId = e.tenantId ∧ e'.mcpRev = e.mcpRev ∧ eventsOf e' = eventsOf e

/-- What a claim asks of a thread, and what it follows. -/
structure Rules (ι X : Type) where
  answers : (op : Op ι) → Res op → Prop := fun _ _ => True
  edit : Track X → Tag ι → McpEnvelope → McpEnvelope → Prop := fun _ _ _ _ => True
  allows : Track X → Op ι → Prop := fun _ _ => True
  next : Track X → (op : Op ι) → Res op → X

namespace Rules

variable (rules : Rules ι X)

def permits (t : Track X) : Op ι → Prop
  | .insert e => e.id ∈ t.drawn ∧ eventsOf e = [] ∧ rules.allows t (.insert e)
  | .update tag e =>
    (∃ read ∈ t.seen, Edits t.drawn read e ∧ rules.edit t tag read e) ∧
      rules.allows t (.update tag e)
  | op => rules.allows t op

/-- What is followed after a call. -/
def advance (t : Track X) (op : Op ι) (r : Res op) : Track X :=
  { t with
    seen := given op r ++ t.seen
    drawn := drawnAfter op r t.drawn
    own := rules.next t op r }

def track (t : Track X) (op : Op ι) (r : Res op) : Track X :=
  { rules.advance t op r with lawful := t.lawful ∧ rules.permits t op }

def watch : Watch (Op ι) Res (Track X) where
  answers op r := Answers op r ∧ rules.answers op r
  next := rules.track
  ok t := t.lawful

variable {rules}

theorem track_eq {t : Track X} {op : Op ι} (hlawful : t.lawful) (hpermits : rules.permits t op)
    (r : Res op) : rules.track t op r = rules.advance t op r := by
  have hsame : (t.lawful ∧ rules.permits t op) = t.lawful :=
    propext ⟨fun h => h.1, fun h => ⟨h, hpermits⟩⟩
  rw [track, hsame]
  rfl

theorem call {op : Op ι} {P : Track X → Prop} {Q : Res op → Track X → Prop}
    (h : ∀ t r, P t → Answers op r → rules.answers op r →
      rules.permits t op ∧ Q r (rules.advance t op r)) :
    rules.watch.protocol.Holds (.perform op) P Q := by
  refine Watch.perform fun t r hlawful hP hr => ?_
  obtain ⟨hpermits, hQ⟩ := h t r hP hr.1 hr.2
  refine ⟨⟨hlawful, hpermits⟩, ?_⟩
  rwa [show rules.watch.next t op r = _ from track_eq hlawful hpermits r]

end Rules

/-- The clock and what is outside. -/
def Op.outside : Op ι → Bool
  | .now | .takeRate | .admission | .encryptLink _ | .produce _
  | .persistIdentityBlob _ | .badge _ | .verifyCredential _ => true
  | _ => false

/-- Only the outside is asked, and the result is in `R`. -/
abbrev Outside {α : Type} (R : α → Prop) (x : M ι α) : Prop := Within (·.outside = true) R x

theorem now_outside : Outside (fun _ => True) (now : M ι Time) :=
  .lift ⟨rfl, fun _ => trivial⟩

/-- The rules pass over what is outside. -/
structure Rules.Passes (rules : Rules ι X) : Prop where
  allows : ∀ t op, op.outside = true → rules.allows t op
  next : ∀ t op (r : Res op), op.outside = true → rules.next t op r = t.own

theorem Rules.Passes.permits {rules : Rules ι X} (h : rules.Passes) {op : Op ι}
    (hop : op.outside = true) (t : Track X) : rules.permits t op := by
  cases op <;> first | exact h.allows t _ hop | cases hop

theorem Rules.Passes.track_eq {rules : Rules ι X} (h : rules.Passes) {op : Op ι}
    (hop : op.outside = true) {t : Track X} (hlawful : t.lawful) (r : Res op) :
    rules.track t op r = t := by
  have hgiven : given op r = [] := by cases op <;> first | rfl | cases hop
  have hdrawn : drawnAfter op r t.drawn = t.drawn := by cases op <;> first | rfl | cases hop
  rw [Rules.track_eq hlawful (h.permits hop t), Rules.advance, hgiven, hdrawn, h.next t op r hop,
    List.nil_append]

theorem Rules.Passes.triple {rules : Rules ι X} (h : rules.Passes) {α : Type} {R : α → Prop}
    {x : M ι α} (hx : Outside R x) (P : Track X → Prop) :
    rules.watch.protocol.Triple x P (fun a t => R a ∧ P t) fun _ => P := by
  refine Protocol.Holds.post (Watch.within (P := P) hx fun op hop t r hlawful hP => ?_) fun
    | .ok _, _, _, h => h
    | .error _, _, _, h => h.2
  rw [show rules.watch.next t op r = t from h.track_eq hop hlawful r]
  exact ⟨hlawful, hP⟩

-- ---------------------------------------------------------------------------
-- Rows
-- ---------------------------------------------------------------------------

/-- A row of that envelope is there, and as long as its revision is the one that
was read it is the one that was read. -/
def Current (rows : List McpEnvelope) (e : McpEnvelope) : Prop :=
  ∃ cur ∈ rows, cur.id = e.id ∧ getRev e ≤ getRev cur ∧ (getRev cur = getRev e → cur = e)

theorem Current.of_mem {rows : List McpEnvelope} (h : e ∈ rows) : Current rows e :=
  ⟨e, h, rfl, le_rfl, fun _ => rfl⟩

theorem Current.append {rows : List McpEnvelope} (h : Current rows e) (more : List McpEnvelope) :
    Current (rows ++ more) e := by
  obtain ⟨cur, hcur, hrest⟩ := h
  exact ⟨cur, List.mem_append_left _ hcur, hrest⟩

/-- A row is replaced by one of its id with a higher revision. -/
theorem Current.set {rows : List McpEnvelope} {cur new : McpEnvelope} (h : Current rows e)
    (hj : rows[j]? = some cur) (hid : new.id = cur.id) (hrev : getRev cur < getRev new) :
    Current (rows.set j new) e := by
  obtain ⟨row, hrow, hkey, hle, heq⟩ := h
  obtain ⟨k, hk, rfl⟩ := List.mem_iff_getElem.mp hrow
  by_cases hjk : j = k
  · subst hjk
    rw [List.getElem?_eq_getElem hk, Option.some.injEq] at hj
    subst hj
    refine ⟨new, List.mem_set (by simpa using hk) _, hid.trans hkey, hle.trans hrev.le, ?_⟩
    intro hsame
    omega
  · refine ⟨rows[k], ?_, hkey, hle, heq⟩
    refine List.mem_iff_getElem.mpr ⟨k, by simpa using hk, ?_⟩
    simp [hjk]

/-- What was read and has the revision of the stored row is that row. -/
theorem Current.eq {rows : List McpEnvelope} {cur : McpEnvelope} (h : Current rows e)
    (hnodup : (rows.map (·.id)).Nodup) (hcur : cur ∈ rows) (hid : cur.id = e.id)
    (hrev : getRev cur = getRev e) : cur = e := by
  obtain ⟨row, hrow, hkey, -, heq⟩ := h
  have hsame : row = cur := eq_of_key hnodup hrow hcur (hkey.trans hid.symm)
  subst hsame
  exact heq hrev

theorem forall_mem_set {α : Type} {P : α → Prop} {xs : List α} {j : Nat} {b : α}
    (h : ∀ a ∈ xs, P a) (hb : P b) : ∀ a ∈ xs.set j b, P a := by
  intro a ha
  rcases List.mem_or_eq_of_mem_set ha with ha | rfl
  · exact h a ha
  · exact hb

-- ---------------------------------------------------------------------------
-- The invariant of rows, identifiers and tracks
-- ---------------------------------------------------------------------------

structure Base (s : World ι) (ts : ι → Track X) : Prop where
  ids : (s.rows.map (·.id)).Nodup
  row_drawn : ∀ e ∈ s.rows, e.id ∈ s.drawn
  log_drawn : ∀ e ∈ s.rows, ∀ event ∈ eventsOf e, event.id ∈ s.drawn
  current : ∀ i, ∀ e ∈ (ts i).seen, Current s.rows e
  own_drawn : ∀ i, ∀ id ∈ (ts i).drawn, id ∈ s.drawn
  row_unused : ∀ i, ∀ e ∈ s.rows, e.id ∉ (ts i).drawn
  log_unused : ∀ i, ∀ e ∈ s.rows, ∀ event ∈ eventsOf e, event.id ∉ (ts i).drawn
  apart : ∀ i j, i ≠ j → ∀ id ∈ (ts i).drawn, id ∉ (ts j).drawn

variable {rules : Rules ι X} {s s' : World ι} {ts : ι → Track X} {i : ι} {op : Op ι} {r : Res op}

/-- Nothing that the invariant is about has changed in the state. -/
theorem Base.congr (h : Base s ts) (hrows : s'.rows = s.rows) (hdrawn : s'.drawn = s.drawn) :
    Base s' ts where
  ids := hrows ▸ h.ids
  row_drawn := hrows ▸ hdrawn ▸ h.row_drawn
  log_drawn := hrows ▸ hdrawn ▸ h.log_drawn
  current := hrows ▸ h.current
  own_drawn := hdrawn ▸ h.own_drawn
  row_unused := hrows ▸ h.row_unused
  log_unused := hrows ▸ h.log_unused
  apart := h.apart

section
variable [DecidableEq ι]

/-- A thread forgets identifiers, or is given what is stored. -/
theorem Base.retrack (h : Base s ts) {t : Track X} (hseen : ∀ e ∈ t.seen, Current s.rows e)
    (hdrawn : ∀ id ∈ t.drawn, id ∈ (ts i).drawn) : Base s (Function.update ts i t) where
  ids := h.ids
  row_drawn := h.row_drawn
  log_drawn := h.log_drawn
  current := (Function.forall_update_iff ts fun _ t => ∀ e ∈ t.seen, Current s.rows e).mpr
    ⟨hseen, fun j _ => h.current j⟩
  own_drawn := (Function.forall_update_iff ts fun _ t => ∀ id ∈ t.drawn, id ∈ s.drawn).mpr
    ⟨fun id hid => h.own_drawn i id (hdrawn id hid), fun j _ => h.own_drawn j⟩
  row_unused := (Function.forall_update_iff ts fun _ t => ∀ e ∈ s.rows, e.id ∉ t.drawn).mpr
    ⟨fun e he hid => h.row_unused i e he (hdrawn _ hid), fun j _ => h.row_unused j⟩
  log_unused := (Function.forall_update_iff ts fun _ t =>
      ∀ e ∈ s.rows, ∀ event ∈ eventsOf e, event.id ∉ t.drawn).mpr
    ⟨fun e he event hevent hid => h.log_unused i e he event hevent (hdrawn _ hid),
      fun j _ => h.log_unused j⟩
  apart j k hjk id hj hk := by
    by_cases hji : j = i
    · subst hji
      rw [Function.update_self] at hj
      rw [Function.update_of_ne hjk.symm] at hk
      exact h.apart j k hjk id (hdrawn id hj) hk
    · rw [Function.update_of_ne hji] at hj
      by_cases hki : k = i
      · subst hki
        rw [Function.update_self] at hk
        exact h.apart j k hjk id hj (hdrawn id hk)
      · rw [Function.update_of_ne hki] at hk
        exact h.apart j k hjk id hj hk

/-- A token is given out, which is no identifier of a thread. -/
theorem Base.give (h : Base s ts) (token : String) :
    Base { s with drawn := token :: s.drawn } ts where
  ids := h.ids
  row_drawn e he := List.mem_cons_of_mem _ (h.row_drawn e he)
  log_drawn e he event hevent := List.mem_cons_of_mem _ (h.log_drawn e he event hevent)
  current := h.current
  own_drawn i id hid := List.mem_cons_of_mem _ (h.own_drawn i id hid)
  row_unused := h.row_unused
  log_unused := h.log_unused
  apart := h.apart

/-- A new identifier. -/
theorem Base.draw (h : Base s ts) {id : String} (hnew : id ∉ s.drawn) {t : Track X}
    (hseen : t.seen = (ts i).seen) (hdrawn : t.drawn = id :: (ts i).drawn) :
    Base { s with drawn := id :: s.drawn } (Function.update ts i t) where
  ids := h.ids
  row_drawn e he := List.mem_cons_of_mem _ (h.row_drawn e he)
  log_drawn e he event hevent := List.mem_cons_of_mem _ (h.log_drawn e he event hevent)
  current := (Function.forall_update_iff ts fun _ t => ∀ e ∈ t.seen, Current s.rows e).mpr
    ⟨hseen ▸ h.current i, fun j _ => h.current j⟩
  own_drawn := (Function.forall_update_iff ts fun _ t => ∀ d ∈ t.drawn, d ∈ id :: s.drawn).mpr
    ⟨by
      rw [hdrawn]
      intro d hd
      rcases List.mem_cons.mp hd with rfl | hd
      · exact List.mem_cons_self
      · exact List.mem_cons_of_mem _ (h.own_drawn i d hd),
     fun j _ d hd => List.mem_cons_of_mem _ (h.own_drawn j d hd)⟩
  row_unused := (Function.forall_update_iff ts fun _ t => ∀ e ∈ s.rows, e.id ∉ t.drawn).mpr
    ⟨by
      rw [hdrawn]
      intro e he hd
      rcases List.mem_cons.mp hd with hd | hd
      · exact hnew (hd ▸ h.row_drawn e he)
      · exact h.row_unused i e he hd,
     fun j _ => h.row_unused j⟩
  log_unused := (Function.forall_update_iff ts fun _ t =>
      ∀ e ∈ s.rows, ∀ event ∈ eventsOf e, event.id ∉ t.drawn).mpr
    ⟨by
      rw [hdrawn]
      intro e he event hevent hd
      rcases List.mem_cons.mp hd with hd | hd
      · exact hnew (hd ▸ h.log_drawn e he event hevent)
      · exact h.log_unused i e he event hevent hd,
     fun j _ => h.log_unused j⟩
  apart j k hjk d hj hk := by
    by_cases hji : j = i
    · subst hji
      rw [Function.update_self, hdrawn] at hj
      rw [Function.update_of_ne hjk.symm] at hk
      rcases List.mem_cons.mp hj with rfl | hj
      · exact hnew (h.own_drawn k d hk)
      · exact h.apart j k hjk d hj hk
    · rw [Function.update_of_ne hji] at hj
      by_cases hki : k = i
      · subst hki
        rw [Function.update_self, hdrawn] at hk
        rcases List.mem_cons.mp hk with rfl | hk
        · exact hnew (h.own_drawn j d hj)
        · exact h.apart j k hjk d hj hk
      · rw [Function.update_of_ne hki] at hk
        exact h.apart j k hjk d hj hk

end

/-- A row of an identifier that no thread holds. -/
theorem Base.insert (h : Base s ts) {e : McpEnvelope} (hdrawn : e.id ∈ s.drawn)
    (hunused : ∀ i, e.id ∉ (ts i).drawn) (hnew : ∀ row ∈ s.rows, row.id ≠ e.id)
    (hlog : eventsOf e = []) : Base { s with rows := s.rows ++ [e] } ts where
  ids := by
    rw [List.map_append, List.nodup_append]
    refine ⟨h.ids, by simp, ?_⟩
    simp only [List.mem_map, List.map_cons, List.map_nil, List.mem_singleton]
    rintro _ ⟨row, hrow, rfl⟩ _ rfl
    exact hnew row hrow
  row_drawn := List.forall_mem_append.mpr ⟨h.row_drawn, by simpa using hdrawn⟩
  log_drawn := List.forall_mem_append.mpr ⟨h.log_drawn, by simp [hlog]⟩
  current i e' he' := (h.current i e' he').append _
  own_drawn := h.own_drawn
  row_unused i := List.forall_mem_append.mpr ⟨h.row_unused i, by simpa using hunused i⟩
  log_unused i := List.forall_mem_append.mpr ⟨h.log_unused i, by simp [hlog]⟩
  apart := h.apart

/-- A row is replaced, and what is new in its log no thread holds. -/
theorem Base.swap (h : Base s ts) {j : Nat} {cur new : McpEnvelope} (tag : Tag ι)
    (hj : s.rows[j]? = some cur) (hid : new.id = cur.id) (hrev : getRev cur < getRev new)
    (hlog : ∀ event ∈ eventsOf new, event ∈ eventsOf cur ∨
      (event.id ∈ s.drawn ∧ ∀ i, event.id ∉ (ts i).drawn)) :
    Base { s with rows := s.rows.set j new, history := s.history ++ [⟨tag, cur, new⟩] } ts := by
  have hcur : cur ∈ s.rows := List.mem_of_getElem? hj
  have hlog_drawn : ∀ event ∈ eventsOf new, event.id ∈ s.drawn := fun event hevent =>
    (hlog event hevent).elim (h.log_drawn cur hcur event) (·.1)
  have hlog_unused : ∀ i, ∀ event ∈ eventsOf new, event.id ∉ (ts i).drawn := fun i event hevent =>
    (hlog event hevent).elim (h.log_unused i cur hcur event) (·.2 i)
  exact
    { ids := by
        rw [map_set_same hj hid]
        exact h.ids
      row_drawn := forall_mem_set h.row_drawn (hid ▸ h.row_drawn cur hcur)
      log_drawn := forall_mem_set h.log_drawn hlog_drawn
      current := fun i e he => (h.current i e he).set hj hid hrev
      own_drawn := h.own_drawn
      row_unused := fun i => forall_mem_set (h.row_unused i) (hid ▸ h.row_unused i cur hcur)
      log_unused := fun i => forall_mem_set (h.log_unused i) (hlog_unused i)
      apart := h.apart }

-- ---------------------------------------------------------------------------
-- One call
-- ---------------------------------------------------------------------------

theorem found_stored {p : McpEnvelope → Bool} {rows : List McpEnvelope}
    (h : e ∈ found (.ok (rows.find? p))) : e ∈ rows := by
  cases hfound : rows.find? p with
  | none =>
    rw [hfound] at h
    cases h
  | some row =>
    rw [hfound] at h
    rw [List.mem_singleton.mp h]
    exact List.mem_of_find?_eq_some hfound

/-- The calls that change rows or draw. -/
def Op.stores : Op ι → Bool
  | .random | .randomUUID | .insert _ | .update .. => true
  | _ => false

/-- The rows, their history and what was drawn are as before. -/
def SameRows (s s' : World ι) : Prop :=
  s'.rows = s.rows ∧ s'.drawn = s.drawn ∧ s'.history = s.history

theorem queue_sameRows {op : QueueOp} {r : op.Res} (hexec : op.exec s r s') : SameRows s s' := by
  cases op with
  | enterTick => obtain ⟨-, rfl⟩ := hexec; exact ⟨rfl, rfl, rfl⟩
  | leaveTick => cases hexec; exact ⟨rfl, rfl, rfl⟩
  | _ => rcases hexec with ⟨rfl, -⟩ | ⟨rfl, -⟩ <;> exact ⟨rfl, rfl, rfl⟩

theorem sameRows (hexec : exec op s r s') (hop : op.stores = false) : SameRows s s' := by
  cases op with
  | random => cases hop
  | randomUUID => cases hop
  | insert e => cases hop
  | update tag e => cases hop
  | queue process op => exact queue_sameRows hexec.2
  | deliver tag envelope links => obtain ⟨ok, rfl, -⟩ := hexec; exact ⟨rfl, rfl, rfl⟩
  | enqueue event => rcases hexec with ⟨⟨_, rfl⟩, -⟩ | ⟨rfl, -⟩ <;> exact ⟨rfl, rfl, rfl⟩
  | findById | findByTokenHash | listEnvelopes | audit =>
    rcases hexec with ⟨rfl, -⟩ | ⟨rfl, -⟩ <;> exact ⟨rfl, rfl, rfl⟩
  | _ => cases hexec; exact ⟨rfl, rfl, rfl⟩

theorem drawnAfter_eq {drawn : List String} (hop : op.stores = false) :
    drawnAfter op r drawn = drawn := by
  cases op <;> first | rfl | cases hop

/-- What is given is stored. -/
theorem given_stored (hexec : exec op s r s') : ∀ e ∈ given op r, e ∈ s'.rows := by
  intro e he
  cases op with
  | insert e' =>
    rcases hexec with ⟨rfl, rfl⟩ | ⟨rfl, t, rfl⟩
    · rw [List.mem_singleton.mp he]
      exact List.mem_append_right _ List.mem_cons_self
    · cases he
  | update tag e' =>
    rcases hexec with ⟨⟨j, cur, hj, -, -, -, rfl⟩, rfl⟩ | ⟨rfl, t, rfl⟩
    · rw [List.mem_singleton.mp he]
      exact List.mem_set (List.getElem?_eq_some_iff.mp hj).1 _
    · cases he
  | findById tag tenantId id =>
    rcases hexec with ⟨rfl, rfl⟩ | ⟨rfl, t, rfl⟩
    · exact found_stored he
    · cases he
  | findByTokenHash tokenHash =>
    rcases hexec with ⟨rfl, rfl⟩ | ⟨rfl, t, rfl⟩
    · exact found_stored he
    · cases he
  | listEnvelopes tenantId =>
    rcases hexec with ⟨rfl, rfl⟩ | ⟨rfl, t, rfl⟩
    · exact (List.mem_filter.mp he).1
    · cases he
  | _ => cases he

theorem answers_of_exec (hexec : exec op s r s') : Answers op r := by
  cases op with
  | insert e =>
    intro e' he'
    rcases hexec with ⟨-, hr⟩ | ⟨-, t, hr⟩
    · exact (Except.ok.inj (hr.symm.trans he')).symm
    · cases hr.symm.trans he'
  | update tag e =>
    intro e' he'
    rcases hexec with ⟨-, hr⟩ | ⟨-, t, hr⟩
    · exact (Except.ok.inj (hr.symm.trans he')).symm
    · cases hr.symm.trans he'
  | findById tag tenantId id =>
    intro e he
    rcases hexec with ⟨-, hr⟩ | ⟨-, t, hr⟩
    · have hkey := List.find?_some (Except.ok.inj (hr.symm.trans he))
      simpa using hkey
    · cases hr.symm.trans he
  | listEnvelopes tenantId =>
    intro es hes e he
    rcases hexec with ⟨-, hr⟩ | ⟨-, t, hr⟩
    · rw [← Except.ok.inj (hr.symm.trans hes)] at he
      simpa using (List.mem_filter.mp he).2
    · cases hr.symm.trans hes
  | _ => trivial

/-- The row that a permitted update replaces is one that the thread has read. -/
theorem Base.swapped (h : Base s ts) {tag : Tag ι} {e : McpEnvelope}
    (hpermits : rules.permits (ts i) (.update tag e)) (hswap : Swapped tag e s s') :
    ∃ (j : Nat) (cur : McpEnvelope), s.rows[j]? = some cur ∧ cur ∈ (ts i).seen ∧
      Edits (ts i).drawn cur e ∧ rules.edit (ts i) tag cur e ∧
      s' = { s with rows := s.rows.set j (setRev e (getRev e + 1)),
                    history := s.history ++ [⟨tag, cur, setRev e (getRev e + 1)⟩] } := by
  obtain ⟨⟨read, hread, hedits, hedit⟩, -⟩ := hpermits
  obtain ⟨j, cur, hj, hid, -, hrev, hs'⟩ := hswap
  have hrev' : getRev cur = getRev read := by rw [hrev, getRev, getRev, hedits.mcpRev]
  have hsame : cur = read :=
    (h.current i read hread).eq h.ids (List.mem_of_getElem? hj) (hid.trans hedits.id) hrev'
  subst hsame
  exact ⟨j, cur, hj, hread, hedits, hedit, hs'⟩

section
variable [DecidableEq ι]

/-- A call that leaves rows and identifiers alone. -/
theorem Base.other (h : Base s ts) (hexec : exec op s r s') (hsame : SameRows s s')
    (hsub : ∀ id ∈ drawnAfter op r (ts i).drawn, id ∈ (ts i).drawn) :
    Base s' (Function.update ts i (rules.track (ts i) op r)) := by
  have hbase : Base s' ts := h.congr hsame.1 hsame.2.1
  refine hbase.retrack (fun e he => ?_) hsub
  rcases List.mem_append.mp he with he | he
  · exact .of_mem (given_stored hexec e he)
  · exact hbase.current i e he

theorem Base.step (h : Base s ts) (hexec : exec op s r s') (hpermits : rules.permits (ts i) op) :
    Base s' (Function.update ts i (rules.track (ts i) op r)) := by
  have hgiven := given_stored hexec
  cases op with
  | random =>
    obtain ⟨-, rfl⟩ := hexec
    exact (h.give _).retrack (h.current i) fun id hid => hid
  | randomUUID =>
    obtain ⟨hnew, rfl⟩ := hexec
    exact h.draw hnew rfl rfl
  | insert e =>
    obtain ⟨hid, hlog, -⟩ := hpermits
    have hforget : Base s (Function.update ts i
        { ts i with drawn := (ts i).drawn.filter (· != e.id) }) :=
      h.retrack (h.current i) fun id hid => (List.mem_filter.mp hid).1
    rcases hexec with ⟨rfl, rfl⟩ | ⟨rfl, t, rfl⟩
    · have hinsert := hforget.insert (e := setRev e 0) (h.own_drawn i _ hid)
        ((Function.forall_update_iff ts fun _ t => (setRev e 0).id ∉ t.drawn).mpr
          ⟨fun hmem => by simpa [setRev] using (List.mem_filter.mp hmem).2,
            fun j hj => h.apart i j (Ne.symm hj) _ hid⟩)
        (fun row hrow hsame => h.row_unused i row hrow (hsame ▸ hid)) hlog
      have := hinsert.retrack (i := i) (t := rules.track (ts i) (.insert e) (.ok (setRev e 0)))
        (fun e' he' => by
          rcases List.mem_append.mp he' with he' | he'
          · exact .of_mem (hgiven e' he')
          · exact (h.current i e' he').append _)
        (fun id hid => by rwa [Function.update_self])
      rwa [Function.update_idem] at this
    · exact h.other (.inr ⟨rfl, t, rfl⟩) ⟨rfl, rfl, rfl⟩ fun id hid => (List.mem_filter.mp hid).1
  | update tag e =>
    rcases hexec with ⟨hswap, rfl⟩ | ⟨rfl, t, rfl⟩
    · have hforget : Base s (Function.update ts i
          { ts i with drawn := drawnAfter (.update tag e) (.ok (setRev e (getRev e + 1)) : Res (.update tag e)) (ts i).drawn }) :=
        h.retrack (h.current i) fun id hid => (List.mem_filter.mp hid).1
      obtain ⟨j, cur, hj, hread, hedits, -, rfl⟩ := h.swapped hpermits hswap
      have hrev : getRev cur < getRev (setRev e (getRev e + 1)) := by
        rw [getRev, getRev, setRev, getRev, hedits.mcpRev]
        exact Nat.lt_succ_self _
      have hlog : ∀ event ∈ eventsOf (setRev e (getRev e + 1)), event ∈ eventsOf cur ∨
          (event.id ∈ s.drawn ∧ ∀ k, event.id ∉ (Function.update ts i
            { ts i with drawn := drawnAfter (.update tag e) (.ok (setRev e (getRev e + 1)) : Res (.update tag e)) (ts i).drawn } k).drawn) := by
        intro event hevent
        rcases hedits.log with hlog | ⟨new, hnew, hlog⟩
        · exact .inl (hlog ▸ hevent)
        · rw [show eventsOf (setRev e (getRev e + 1)) = eventsOf e from rfl] at hevent
          rcases List.mem_append.mp (mem_of_mem_window (hlog ▸ hevent)) with hold | hlast
          · exact .inl hold
          · rw [List.mem_singleton.mp hlast] at hevent ⊢
            refine .inr ⟨h.own_drawn i _ hnew, (Function.forall_update_iff ts fun _ t =>
              new.id ∉ t.drawn).mpr ⟨fun hmem => ?_, fun k hk => h.apart i k (Ne.symm hk) _ hnew⟩⟩
            have := (List.mem_filter.mp hmem).2
            simp only [Bool.not_eq_true', List.any_eq_false, beq_iff_eq] at this
            exact this new hevent rfl
      have hswapped := hforget.swap tag hj (show (setRev e (getRev e + 1)).id = cur.id from hedits.id)
        hrev hlog
      have := hswapped.retrack (i := i)
        (t := rules.track (ts i) (.update tag e) (.ok (setRev e (getRev e + 1))))
        (fun e' he' => by
          rcases List.mem_append.mp he' with he' | he'
          · exact .of_mem (hgiven e' he')
          · exact (h.current i e' he').set hj hedits.id hrev)
        (fun id hid => by rwa [Function.update_self])
      rwa [Function.update_idem] at this
    · exact h.other (.inr ⟨rfl, t, rfl⟩) ⟨rfl, rfl, rfl⟩ fun id hid => (List.mem_filter.mp hid).1
  | _ =>
    refine h.other hexec (sameRows hexec rfl) fun id hid => ?_
    rwa [drawnAfter_eq rfl] at hid

-- ---------------------------------------------------------------------------
-- Runs
-- ---------------------------------------------------------------------------

/-- What every call of threads under the rules keeps holds after every
interleaving. -/
theorem Rules.run {α : Type} {steps : (op : Op ι) → World ι → Res op → World ι → Prop}
    {J : World ι → (ι → Track X) → Prop} {Q : ι → α → Track X → Prop}
    {threads threads' : ι → Prog (Op ι) Res α}
    (hsteps : ∀ op s r s', steps op s r s' → exec op s r s' ∧ rules.answers op r)
    (hstep : ∀ s ts i op r s', Base s ts → J s ts → steps op s r s' → rules.permits (ts i) op →
      J s' (Function.update ts i (rules.track (ts i) op r)))
    (hbase : Base s ts) (hJ : J s ts) (hobeyed : rules.watch.Obeyed threads Q ts)
    (hrun : Run steps (s, threads) (s', threads')) :
    ∃ ts', Base s' ts' ∧ J s' ts' ∧ rules.watch.Obeyed threads' Q ts' := by
  have hanswers : ∀ op s r s', steps op s r s' → rules.watch.answers op r := fun op s r s' h =>
    ⟨answers_of_exec (hsteps op s r s' h).1, (hsteps op s r s' h).2⟩
  obtain ⟨ts', ⟨hbase', hJ'⟩, hobeyed'⟩ := Watch.run (J := fun s ts => Base s ts ∧ J s ts) hanswers
    (fun s ts i op r s' ⟨hb, hj⟩ h hok =>
      ⟨hb.step (hsteps op s r s' h).1 hok.2, hstep s ts i op r s' hb hj h hok.2⟩)
    ⟨hbase, hJ⟩ hobeyed hrun
  exact ⟨ts', hbase', hJ', hobeyed'⟩

end

end EsigSuite.Mcp
