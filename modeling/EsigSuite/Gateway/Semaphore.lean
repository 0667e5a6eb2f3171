import EsigSuite.Gateway.Auth
import EsigSuite.Lib.Eventually
import Mathlib.Data.List.Count

/-!
# Sign slots

`Semaphore` of `esig-gateway/src/server.ts`: a release lowers the count and
resolves the first waiter, whose continuation raises the count again later. A
call that arrives between the two sees a free slot.
-/

namespace EsigSuite.Gateway

open Lib

/-- `queue` holds the `resolve` functions of the waiters, here the number of the
call that waits. -/
structure Semaphore where
  limit : Nat
  maxQueue : Nat := limit * 4
  active : Int := 0
  queue : List Nat := []

/-- Where a call to `acquire` is. -/
inductive Call
  | waiting
  /-- Its promise is resolved, its continuation has not run. -/
  | resolved
  /-- It returned a release function, with the `released` flag of that. -/
  | acquired (released : Bool)
  | thrown (error : GatewayThrown)
  deriving DecidableEq

/-- A semaphore with all the calls made on it, in their order. -/
structure Slots where
  semaphore : Semaphore
  calls : List Call := []

namespace Slots

def new (limit : Nat) : Slots := { semaphore := { limit } }

def tooManyRequests (s : Semaphore) : GatewayThrown :=
  .gatewayError .too_many_requests
    (js ("queue depth " ++ toString s.queue.length ++ " >= " ++ toString s.maxQueue))

/-- A call to `acquire`, up to its await or to its end. -/
def acquire (s : Slots) : Slots :=
  let sem := s.semaphore
  if sem.active ≥ sem.limit then
    if sem.queue.length ≥ sem.maxQueue then
      { s with calls := s.calls ++ [.thrown (tooManyRequests sem)] }
    else
      { semaphore := { sem with queue := sem.queue ++ [s.calls.length] }
        calls := s.calls ++ [.waiting] }
  else
    { semaphore := { sem with active := sem.active + 1 }
      calls := s.calls ++ [.acquired false] }

/-- The rest of `acquire` after its await. -/
def proceed (s : Slots) (id : Nat) : Slots where
  semaphore := { s.semaphore with active := s.semaphore.active + 1 }
  calls := s.calls.set id (.acquired false)

/-- The first call of a release function. -/
def release (s : Slots) (id : Nat) : Slots :=
  let sem := { s.semaphore with active := s.semaphore.active - 1 }
  let calls := s.calls.set id (.acquired true)
  match sem.queue with
  | [] => { semaphore := sem, calls }
  | next :: rest => { semaphore := { sem with queue := rest }, calls := calls.set next .resolved }

inductive Event
  | acquire
  | proceed (id : Nat)
  | release (id : Nat)
  deriving DecidableEq

/-- Only a resolved promise is continued, only a returned function is called. -/
def step (s : Slots) : Event → Option Slots
  | .acquire => some s.acquire
  | .proceed id => if s.calls[id]? = some .resolved then some (s.proceed id) else none
  | .release id =>
    match s.calls[id]? with
    | some (.acquired released) => some (if released then s else s.release id)
    | _ => none

/-- The callers that have acquired and not released. -/
def holders (s : Slots) : Nat := s.calls.count (.acquired false)

/-- The waiters that are resolved and not back yet. -/
def woken (s : Slots) : Nat := s.calls.count .resolved

-- ---------------------------------------------------------------------------
-- Runs
-- ---------------------------------------------------------------------------

/-- Callbacks run in any order; at times none does. -/
structure Run (limit : Nat) where
  states : Nat → Slots
  events : Nat → Option Event
  start : states 0 = new limit
  next : ∀ n, (events n).elim (some (states n)) (step (states n)) = some (states (n + 1))

/-- A call that sees a free slot does not take that of a woken waiter. -/
def Unclaimed (s : Slots) : Prop :=
  s.semaphore.active < s.semaphore.limit → s.semaphore.active + s.woken < s.semaphore.limit

instance (s : Slots) : Decidable s.Unclaimed :=
  inferInstanceAs (Decidable (_ → _))

namespace Run

variable {limit : Nat} (r : Run limit)

/-- The call is at this point of it now. -/
def At (n id : Nat) (call : Call) : Prop := (r.states n).calls[id]? = some call

instance (n id : Nat) (call : Call) : Decidable (r.At n id call) :=
  inferInstanceAs (Decidable (_ = _))

/-- Every holder releases. -/
def Releases : Prop := ∀ n id, r.At n id (.acquired false) → ∃ m, n ≤ m ∧ r.At m id (.acquired true)

/-- Every promise that is resolved is continued. -/
def Continues : Prop := ∀ n id, r.At n id .resolved → ∃ m, n ≤ m ∧ r.At m id (.acquired false)

end Run

-- ---------------------------------------------------------------------------
-- What the steps keep
-- ---------------------------------------------------------------------------

/-- A call moves on: one less where it was, one more where it is. -/
theorem count_moved {calls : List Call} {id : Nat} {a b : Call} (h : calls[id]? = some a) (c : Call) :
    (calls.set id b).count c + (if a = c then 1 else 0) = calls.count c + (if b = c then 1 else 0) := by
  obtain ⟨hlt, rfl⟩ := List.getElem?_eq_some_iff.mp h
  rw [List.count_set hlt]
  have hpos : calls[id] = c → 0 < calls.count c := by
    rintro rfl
    exact List.count_pos_iff.mpr (List.getElem_mem hlt)
  simp only [beq_iff_eq]
  split <;> rename_i hac
  · have := hpos hac
    omega
  · omega

/-- The count is that of the holders, the queue that of the waiters, and nobody
waits while a slot is free that no woken waiter will take. -/
structure Consistent (s : Slots) : Prop where
  active : s.semaphore.active = s.holders
  queued : ∀ id, id ∈ s.semaphore.queue ↔ s.calls[id]? = some .waiting
  distinct : s.semaphore.queue.Nodup
  depth : s.semaphore.queue.length ≤ s.semaphore.maxQueue
  busy : s.semaphore.queue ≠ [] → s.semaphore.limit ≤ s.semaphore.active + s.woken

theorem consistent_new (limit : Nat) : Consistent (new limit) where
  active := rfl
  queued id := by simp [new]
  distinct := List.nodup_nil
  depth := Nat.zero_le _
  busy h := absurd rfl h

theorem Consistent.acquire {s : Slots} (h : s.Consistent) : s.acquire.Consistent := by
  have hnot : s.calls.length ∉ s.semaphore.queue := fun hmem => by
    have hget := (h.queued _).mp hmem
    rw [List.getElem?_eq_none (Nat.le_refl _)] at hget
    cases hget
  rw [Slots.acquire]
  split <;> rename_i hfull
  · split <;> rename_i hqueue
    · refine ⟨?_, fun id => ?_, h.distinct, h.depth, fun hne => ?_⟩
      · simpa [holders] using h.active
      · rw [h.queued id]
        grind
      · simpa [woken] using h.busy hne
    · refine ⟨?_, fun id => ?_, ?_, ?_, fun _ => ?_⟩
      · simpa [holders] using h.active
      · rw [List.mem_append, h.queued id]
        grind
      · refine List.nodup_append.mpr ⟨h.distinct, List.pairwise_singleton _ _, fun a ha b hb hab => ?_⟩
        rw [List.mem_singleton.mp hb] at hab
        exact hnot (hab ▸ ha)
      · simp only [List.length_append, List.length_singleton]
        omega
      · dsimp only
        omega
  · refine ⟨?_, fun id => ?_, h.distinct, h.depth, fun hne => ?_⟩
    · have := h.active
      simp [holders] at this ⊢
      omega
    · rw [h.queued id]
      grind
    · have := h.busy hne
      simp [woken] at this ⊢
      omega

theorem Consistent.proceed {s : Slots} {id : Nat} (h : s.Consistent)
    (hid : s.calls[id]? = some .resolved) : (s.proceed id).Consistent := by
  have hholders := count_moved (b := .acquired false) hid (.acquired false)
  have hwoken := count_moved (b := .acquired false) hid .resolved
  refine ⟨?_, fun other => ?_, h.distinct, h.depth, fun hne => ?_⟩
  · have := h.active
    simp [holders, Slots.proceed] at this hholders ⊢
    omega
  · rw [Slots.proceed, h.queued other, List.getElem?_set]
    grind
  · have := h.busy hne
    simp [woken, Slots.proceed] at this hwoken ⊢
    omega

/-- A release hands its slot to the first waiter, if there is one. -/
theorem Consistent.release {s : Slots} {id : Nat} (h : s.Consistent)
    (hid : s.calls[id]? = some (.acquired false)) :
    (s.release id).Consistent ∧ (s.release id).semaphore.active = s.semaphore.active - 1 ∧
      (s.release id).woken = s.woken + (if s.semaphore.queue = [] then 0 else 1) := by
  have hholders := count_moved (b := .acquired true) hid (.acquired false)
  have hwoken := count_moved (b := .acquired true) hid .resolved
  have hactive := h.active
  simp only [holders, reduceCtorEq, if_false, Call.acquired.injEq, if_true] at hholders hwoken hactive
  rw [Slots.release]
  split <;> rename_i hqueue
  · refine ⟨⟨?_, fun other => ?_, ?_, ?_, fun hne => absurd hqueue hne⟩, rfl, ?_⟩
    · simp [holders] at hholders ⊢
      omega
    · rw [h.queued other, List.getElem?_set]
      grind
    · exact h.distinct
    · exact h.depth
    · rw [if_pos hqueue, woken, woken]
      omega
  · rename_i next rest
    have hnext : s.calls[next]? = some .waiting := (h.queued next).mp (hqueue ▸ List.mem_cons_self)
    have hother : next ≠ id := by
      rintro rfl
      rw [hid] at hnext
      cases hnext
    have hwaiting : (s.calls.set id (.acquired true))[next]? = some .waiting := by
      rwa [List.getElem?_set_ne hother.symm]
    have hholders' := count_moved (b := .resolved) hwaiting (.acquired false)
    have hwoken' := count_moved (b := .resolved) hwaiting .resolved
    have hdistinct := List.nodup_cons.mp (hqueue ▸ h.distinct)
    simp only [reduceCtorEq, if_false, if_true] at hholders' hwoken'
    have hcount : ((s.calls.set id (.acquired true)).set next .resolved).count .resolved =
        s.woken + 1 := by
      rw [woken]
      omega
    refine ⟨⟨?_, fun other => ?_, hdistinct.2, ?_, fun hne => ?_⟩, rfl, ?_⟩
    · simp [holders] at hholders ⊢
      omega
    · have hold := h.queued other
      rw [hqueue, List.mem_cons] at hold
      rw [List.getElem?_set, List.getElem?_set]
      grind
    · have := h.depth
      rw [hqueue, List.length_cons] at this
      dsimp only
      omega
    · have := h.busy (hqueue ▸ List.cons_ne_nil _ _)
      rw [woken, hcount]
      dsimp only
      omega
    · rw [if_neg (hqueue ▸ List.cons_ne_nil _ _)]
      exact hcount

/-- All a step can do. -/
theorem step_cases {s s' : Slots} {e : Event} (hstep : s.step e = some s') :
    (e = .acquire ∧ s' = s.acquire) ∨
    (∃ id, e = .proceed id ∧ s.calls[id]? = some .resolved ∧ s' = s.proceed id) ∨
    (∃ id, e = .release id ∧ s.calls[id]? = some (.acquired false) ∧ s' = s.release id) ∨
    ∃ id, e = .release id ∧ s.calls[id]? = some (.acquired true) ∧ s' = s := by
  cases e with
  | acquire => exact .inl ⟨rfl, (Option.some.inj hstep).symm⟩
  | proceed id =>
    rw [step, Option.ite_none_right_eq_some] at hstep
    exact .inr (.inl ⟨id, rfl, hstep.1, (Option.some.inj hstep.2).symm⟩)
  | release id =>
    rw [step] at hstep
    split at hstep
    · rename_i released hid
      cases released with
      | true => exact .inr (.inr (.inr ⟨id, rfl, hid, (Option.some.inj hstep).symm⟩))
      | false => exact .inr (.inr (.inl ⟨id, rfl, hid, (Option.some.inj hstep).symm⟩))
    · cases hstep

theorem Consistent.step {s s' : Slots} {e : Event} (h : s.Consistent) (hstep : s.step e = some s') :
    s'.Consistent := by
  obtain ⟨-, rfl⟩ | ⟨id, -, hid, rfl⟩ | ⟨id, -, hid, rfl⟩ | ⟨id, -, -, rfl⟩ := step_cases hstep
  · exact h.acquire
  · exact h.proceed hid
  · exact (h.release hid).1
  · exact h

theorem step_bounds {s s' : Slots} {e : Event} (hstep : s.step e = some s') :
    s'.semaphore.limit = s.semaphore.limit ∧ s'.semaphore.maxQueue = s.semaphore.maxQueue := by
  obtain ⟨-, rfl⟩ | ⟨id, -, -, rfl⟩ | ⟨id, -, -, rfl⟩ | ⟨id, -, -, rfl⟩ := step_cases hstep
  · grind [acquire]
  · exact ⟨rfl, rfl⟩
  · grind [release]
  · exact ⟨rfl, rfl⟩

/-- While no free slot is taken from a woken waiter, holders and woken waiters
together are no more than the slots. -/
theorem claimed_step {s s' : Slots} {e : Event} (h : s.Consistent) (hstep : s.step e = some s')
    (hfree : e = .acquire → s.Unclaimed)
    (hbound : s.semaphore.active + s.woken ≤ s.semaphore.limit) :
    s'.semaphore.active + s'.woken ≤ s'.semaphore.limit := by
  have hlimit := (step_bounds hstep).1
  obtain ⟨rfl, rfl⟩ | ⟨id, -, hid, rfl⟩ | ⟨id, -, hid, rfl⟩ | ⟨id, -, -, rfl⟩ := step_cases hstep
  · have hroom := hfree rfl
    rw [Unclaimed] at hroom
    rw [acquire]
    split
    · split <;> simpa [woken] using hbound
    · simp [woken] at hroom ⊢
      omega
  · have hwoken := count_moved (b := .acquired false) hid .resolved
    simp [woken, proceed] at hwoken hbound ⊢
    omega
  · obtain ⟨-, hactive, hwoken⟩ := h.release hid
    rw [hlimit, hactive, hwoken]
    split <;> omega
  · exact hbound

/-- A waiter is resolved or comes no later in the queue. A release brings it on. -/
theorem waiting_step {s s' : Slots} {e : Event} {id : Nat} (h : s.Consistent)
    (hstep : s.step e = some s') (hid : s.calls[id]? = some .waiting) :
    s'.calls[id]? = some .resolved ∨ (s'.calls[id]? = some .waiting ∧
      s'.semaphore.queue.idxOf id ≤ s.semaphore.queue.idxOf id ∧
      ∀ holder, e = .release holder → s.calls[holder]? = some (.acquired false) →
        s'.semaphore.queue.idxOf id < s.semaphore.queue.idxOf id) := by
  have hmem : id ∈ s.semaphore.queue := (h.queued id).mpr hid
  have hlt := (List.getElem?_eq_some_iff.mp hid).1
  obtain ⟨rfl, rfl⟩ | ⟨other, rfl, hother, rfl⟩ | ⟨holder, rfl, hholder, rfl⟩ |
    ⟨holder, rfl, hholder, rfl⟩ := step_cases hstep
  · refine .inr ?_
    rw [acquire]
    split
    · split
      · exact ⟨by grind, Nat.le_refl _, nofun⟩
      · exact ⟨by grind, Nat.le_of_eq (List.idxOf_append_of_mem hmem), nofun⟩
    · exact ⟨by grind, Nat.le_refl _, nofun⟩
  · have hne : other ≠ id := fun hsame => by
      rw [hsame, hid] at hother
      cases hother
    exact .inr ⟨by rwa [proceed, List.getElem?_set_ne hne], Nat.le_refl _, nofun⟩
  · have hne : holder ≠ id := fun hsame => by
      rw [hsame, hid] at hholder
      cases hholder
    rw [release]
    split <;> rename_i hqueue
    · rw [hqueue] at hmem
      cases hmem
    · rename_i next rest
      by_cases hnext : next = id
      · subst hnext
        exact .inl (by simp [hlt])
      · have hplace : s.semaphore.queue.idxOf id = rest.idxOf id + 1 := by
          rw [hqueue, List.idxOf_cons_ne _ hnext]
        have hstays : ((s.calls.set holder (.acquired true)).set next .resolved)[id]? = some .waiting := by
          rwa [List.getElem?_set_ne hnext, List.getElem?_set_ne hne]
        exact .inr ⟨hstays, by dsimp only; omega, fun _ _ _ => by dsimp only; omega⟩
  · refine .inr ⟨hid, Nat.le_refl _, fun other hother hheld => ?_⟩
    cases hother
    rw [hholder] at hheld
    cases hheld

/-- Only its release ends a holder. -/
theorem acquired_step {s s' : Slots} {e : Event} {id : Nat} (h : s.Consistent)
    (hstep : s.step e = some s') (hid : s.calls[id]? = some (.acquired false))
    (hne : e ≠ .release id) : s'.calls[id]? = some (.acquired false) := by
  have hlt := (List.getElem?_eq_some_iff.mp hid).1
  obtain ⟨rfl, rfl⟩ | ⟨other, rfl, hother, rfl⟩ | ⟨other, rfl, hother, rfl⟩ | ⟨other, -, -, rfl⟩ :=
    step_cases hstep
  · grind [acquire]
  · have hdiffer : other ≠ id := fun hsame => by
      rw [hsame, hid] at hother
      cases hother
    rwa [proceed, List.getElem?_set_ne hdiffer]
  · have hdiffer : other ≠ id := fun hsame => hne (hsame ▸ rfl)
    rw [release]
    split <;> rename_i hqueue
    · rwa [List.getElem?_set_ne hdiffer]
    · rename_i next rest
      have hwaits := (h.queued next).mp (hqueue ▸ List.mem_cons_self)
      have hnext : next ≠ id := fun hsame => by
        rw [hsame, hid] at hwaits
        cases hwaits
      rwa [List.getElem?_set_ne hnext, List.getElem?_set_ne hdiffer]
  · exact hid

-- ---------------------------------------------------------------------------
-- Whole runs
-- ---------------------------------------------------------------------------

namespace Run

variable {limit : Nat} (r : Run limit)

/-- A moment of a run is idle or a step. -/
theorem next_cases (n : Nat) : (r.events n = none ∧ r.states (n + 1) = r.states n) ∨
    ∃ e, r.events n = some e ∧ (r.states n).step e = some (r.states (n + 1)) := by
  have hnext := r.next n
  cases hevent : r.events n with
  | none =>
    rw [hevent, Option.elim_none] at hnext
    exact .inl ⟨rfl, (Option.some.inj hnext).symm⟩
  | some e =>
    rw [hevent, Option.elim_some] at hnext
    exact .inr ⟨e, rfl, hnext⟩

theorem consistent (n : Nat) : (r.states n).Consistent ∧ (r.states n).semaphore.limit = limit ∧
    (r.states n).semaphore.maxQueue = limit * 4 := by
  induction n with
  | zero =>
    rw [r.start]
    exact ⟨consistent_new limit, rfl, rfl⟩
  | succ n ih =>
    obtain ⟨-, hsame⟩ | ⟨e, -, hstep⟩ := r.next_cases n
    · rwa [hsame]
    · obtain ⟨hlimit, hqueue⟩ := step_bounds hstep
      exact ⟨ih.1.step hstep, hlimit.trans ih.2.1, hqueue.trans ih.2.2⟩

theorem bounded (hfree : ∀ n, r.events n = some .acquire → (r.states n).Unclaimed) (n : Nat) :
    (r.states n).semaphore.active + (r.states n).woken ≤ (r.states n).semaphore.limit := by
  induction n with
  | zero =>
    rw [r.start]
    simp [new, woken]
  | succ n ih =>
    obtain ⟨-, hsame⟩ | ⟨e, hevent, hstep⟩ := r.next_cases n
    · rwa [hsame]
    · exact claimed_step (r.consistent n).1 hstep (fun he => hfree n (he ▸ hevent)) ih

/-- A holder holds until its release. -/
theorem held_until {n m id : Nat} (hle : n ≤ m) (h : r.At n id (.acquired false)) :
    (∃ k, n ≤ k ∧ r.events k = some (.release id) ∧ r.At k id (.acquired false)) ∨
      r.At m id (.acquired false) := by
  induction hle with
  | refl => exact .inr h
  | @step m hle ih =>
    rcases ih with hreleased | hheld
    · exact .inl hreleased
    · obtain ⟨-, hsame⟩ | ⟨e, hevent, hstep⟩ := r.next_cases m
      · exact .inr (by rwa [At, hsame])
      · by_cases he : e = .release id
        · exact .inl ⟨m, hle, he ▸ hevent, hheld⟩
        · exact .inr (acquired_step (r.consistent m).1 hstep hheld he)

/-- While somebody waits, somebody will release. -/
theorem release_comes (hreleases : r.Releases) (hcontinues : r.Continues) {n id : Nat}
    (h : r.At n id .waiting) :
    ∃ m holder, n ≤ m ∧ r.events m = some (.release holder) ∧ r.At m holder (.acquired false) := by
  obtain ⟨hsound, hlimit, hqueue⟩ := r.consistent n
  have hmem := (hsound.queued id).mpr h
  have hbusy := hsound.busy (List.ne_nil_of_mem hmem)
  have hlong := List.length_pos_of_mem hmem
  have hdepth := hsound.depth
  have hactive := hsound.active
  have hholds : ∃ m holder, n ≤ m ∧ r.At m holder (.acquired false) := by
    by_cases hwoken : 0 < (r.states n).woken
    · obtain ⟨other, hother⟩ := List.mem_iff_getElem?.mp (List.count_pos_iff.mp hwoken)
      obtain ⟨m, hm, hheld⟩ := hcontinues n other hother
      exact ⟨m, other, hm, hheld⟩
    · have hheld : 0 < (r.states n).holders := by omega
      obtain ⟨other, hother⟩ := List.mem_iff_getElem?.mp (List.count_pos_iff.mp hheld)
      exact ⟨n, other, Nat.le_refl n, hother⟩
  obtain ⟨m, holder, hm, hheld⟩ := hholds
  obtain ⟨k, hk, hend⟩ := hreleases m holder hheld
  rcases r.held_until hk hheld with ⟨j, hj, hevent, hstill⟩ | hstill
  · exact ⟨j, holder, hm.trans hj, hevent, hstill⟩
  · rw [At, hend] at hstill
    cases hstill

theorem resolved_at_last (hreleases : r.Releases) (hcontinues : r.Continues) {n id : Nat}
    (h : r.At n id .waiting) : ∃ m, n ≤ m ∧ r.At m id .resolved := by
  have hnears : Nears (r.At · id .waiting) (r.At · id .resolved)
      fun n => (r.states n).semaphore.queue.idxOf id := by
    intro n hwaits
    obtain ⟨-, hsame⟩ | ⟨e, -, hstep⟩ := r.next_cases n
    · dsimp only [At]
      rw [hsame]
      exact .inr ⟨hwaits, Nat.le_refl _⟩
    · exact (waiting_step (r.consistent n).1 hstep hwaits).imp_right fun hplace => ⟨hplace.1, hplace.2.1⟩
  refine hnears.reached (fun n hwaits => ?_) h
  obtain ⟨m, holder, hm, hevent, hheld⟩ := r.release_comes hreleases hcontinues hwaits
  refine ⟨m, hm, fun hstill => ?_⟩
  obtain ⟨hnone, -⟩ | ⟨e, he, hstep⟩ := r.next_cases m
  · rw [hnone] at hevent
    cases hevent
  · exact (waiting_step (r.consistent m).1 hstep hstill).imp_right fun hplace =>
      hplace.2.2 holder (Option.some.inj (he.symm.trans hevent)) hheld

theorem released_again {n id : Nat} (h : r.At n id (.acquired true))
    (hevent : r.events n = some (.release id)) : r.states (n + 1) = r.states n := by
  obtain ⟨hnone, -⟩ | ⟨e, he, hstep⟩ := r.next_cases n
  · rw [hnone] at hevent
    cases hevent
  · rw [he] at hevent
    cases hevent
    rw [step, show (r.states n).calls[id]? = some (.acquired true) from h] at hstep
    exact (Option.some.inj hstep).symm

end Run

/-- No more holders than slots as long as no call takes the slot of a woken
waiter; who waits is resolved in the end; a second release does nothing. -/
theorem slots_kept {limit : Nat} (r : Run limit) :
    ((∀ n, r.events n = some .acquire → (r.states n).Unclaimed) → ∀ n, (r.states n).holders ≤ limit) ∧
    (r.Releases → r.Continues → ∀ n id, r.At n id .waiting → ∃ m, n ≤ m ∧ r.At m id .resolved) ∧
    ∀ n id, r.At n id (.acquired true) → r.events n = some (.release id) →
      r.states (n + 1) = r.states n := by
  refine ⟨fun hfree n => ?_, fun hreleases hcontinues n id => r.resolved_at_last hreleases hcontinues,
    fun n id => r.released_again⟩
  have hbound := r.bounded hfree n
  obtain ⟨hsound, hlimit, -⟩ := r.consistent n
  have := hsound.active
  omega

-- ---------------------------------------------------------------------------
-- Runs of finitely many callbacks
-- ---------------------------------------------------------------------------

def allowed : Slots → List Event → Bool
  | _, [] => true
  | s, e :: rest => (s.step e).any fun s' => allowed s' rest

/-- The state after `n` of the callbacks. -/
def after : Slots → List Event → Nat → Slots
  | s, [], _ => s
  | s, _ :: _, 0 => s
  | s, e :: rest, n + 1 => after ((s.step e).getD s) rest n

theorem after_zero (s : Slots) (events : List Event) : after s events 0 = s := by
  cases events <;> rfl

theorem after_next {s : Slots} {events : List Event} (h : allowed s events = true) (n : Nat) :
    (events[n]?).elim (some (after s events n)) (step (after s events n)) =
      some (after s events (n + 1)) := by
  induction events generalizing s n with
  | nil => rfl
  | cons e rest ih =>
    obtain ⟨s', hstep, hrest⟩ := (Option.any_eq_true _ _).mp h
    cases n with
    | zero =>
      rw [List.getElem?_cons_zero, Option.elim_some, after, after, hstep, after_zero]
      rfl
    | succ n =>
      rw [List.getElem?_cons_succ, after, after, hstep, Option.getD_some]
      exact ih hrest n

def Run.of (limit : Nat) (events : List Event) (h : allowed (new limit) events = true) : Run limit where
  states := after (new limit) events
  events n := events[n]?
  start := after_zero _ _
  next := after_next h

theorem after_end {s : Slots} {events : List Event} {n : Nat} (h : events.length ≤ n) :
    after s events n = after s events events.length := by
  induction events generalizing s n with
  | nil => rfl
  | cons e rest ih =>
    obtain ⟨m, rfl⟩ : ∃ m, n = m + 1 := Nat.exists_eq_succ_of_ne_zero (Nat.ne_zero_of_lt h)
    exact ih (Nat.le_of_succ_le_succ h)

/-- One slot and two callers, the first of which releases twice. -/
def inTurn : Run 1 :=
  Run.of 1 [.acquire, .acquire, .release 0, .release 0, .proceed 1, .release 1] (by decide)

theorem inTurn_after {n : Nat} (h : 6 ≤ n) : inTurn.states n = inTurn.states 6 := after_end h

theorem inTurn_ends (n : Nat) : n ≤ 6 ∨ inTurn.states n = inTurn.states 6 :=
  (Nat.le_total n 6).imp_right inTurn_after

theorem inTurn_calls (n id : Nat) {call : Call} (h : inTurn.At n id call) : id < 2 := by
  have hshort : ∀ n < 7, (inTurn.states n).calls.length ≤ 2 := by decide
  have hlt := (List.getElem?_eq_some_iff.mp h).1
  rcases inTurn_ends n with hn | hn
  · exact Nat.lt_of_lt_of_le hlt (hshort n (Nat.lt_succ_of_le hn))
  · rw [hn] at hlt
    exact Nat.lt_of_lt_of_le hlt (hshort 6 (by decide))

theorem slots_kept_sample :
    (∀ n, (inTurn.states n).holders ≤ 1) ∧ (∃ m, 1 < m ∧ inTurn.At m 1 .resolved) ∧
      inTurn.states 4 = inTurn.states 3 := by
  obtain ⟨hbound, hresolved, hagain⟩ := slots_kept inTurn
  have hfree : ∀ n < 6, inTurn.events n = some .acquire → (inTurn.states n).Unclaimed := by decide
  have hholds : ∀ n < 7, ∀ id < 2, inTurn.At n id (.acquired false) →
      inTurn.At 6 id (.acquired true) := by decide
  have hwoken : ∀ n < 7, ∀ id < 2, inTurn.At n id .resolved →
      n ≤ 5 ∧ inTurn.At 5 id (.acquired false) := by decide
  refine ⟨hbound fun n hevent => ?_, ?_, hagain 3 0 rfl rfl⟩
  · exact hfree n (List.getElem?_eq_some_iff.mp hevent).1 hevent
  · refine hresolved (fun n id hid => ?_) (fun n id hid => ?_) 2 1 rfl
    · have hend : inTurn.At 6 id (.acquired true) := by
        rcases inTurn_ends n with hn | hn
        · exact hholds n (Nat.lt_succ_of_le hn) id (inTurn_calls n id hid) hid
        · exact hholds 6 (by decide) id (inTurn_calls n id hid) (by rwa [Run.At, hn] at hid)
      refine ⟨n + 6, Nat.le_add_right n 6, ?_⟩
      rwa [Run.At, inTurn_after (Nat.le_add_left 6 n)]
    · rcases inTurn_ends n with hn | hn
      · obtain ⟨hle, hend⟩ := hwoken n (Nat.lt_succ_of_le hn) id (inTurn_calls n id hid) hid
        exact ⟨5, hle, hend⟩
      · have hlate := hwoken 6 (by decide) id (inTurn_calls n id hid) (by rwa [Run.At, hn] at hid)
        exact absurd hlate.1 (by decide)

/-- A third call comes between the release and the continuation of the second. -/
def overtaken : Run 1 :=
  Run.of 1 [.acquire, .acquire, .release 0, .acquire, .proceed 1] (by decide)

theorem two_holders : ∃ (limit : Nat) (r : Run limit) (n : Nat), limit < (r.states n).holders :=
  ⟨1, overtaken, 5, by decide⟩

end Slots

end EsigSuite.Gateway
