import EsigSuite.Lib.KeyedMutex
import Mathlib.Algebra.GroupWithZero.Nat
import Mathlib.Logic.Relation

/-!
# Calls of `KeyedMutex.run`

`esig-gateway/src/stores.ts`, and the same class in `esig-mcp/src/stores.ts`.
A call is cut where it awaits, and the promises settle one at a time, so that
arrivals, completions and microtasks come in every order. `Inv` relates this
to the mutex that `Lib.KeyedMutex` has proved exclusive.
-/

namespace EsigSuite.Gateway.Mutex

open Lib

inductive Settlement
  | pending
  | fulfilled
  | rejected
  deriving DecidableEq

/-- Where a call is. An outcome is what `fn` returned or threw. -/
inductive Phase (ρ : Type)
  /-- At `await prev`. -/
  | waiting
  | running
  /-- `fn` is over and `finally` is to come. -/
  | settled (outcome : ρ)
  | ended (outcome : ρ)
  /-- `await prev` threw, and `fn` is never called. -/
  | refused

/-- `mine` is resolved when the call has ended; `tail` is `prev.then(() => mine)`. -/
structure Call (κ ρ : Type) where
  key : κ
  prev : Option Nat
  phase : Phase ρ
  tail : Settlement

/-- A promise is named by its call. -/
structure State (κ ρ : Type) where
  calls : List (Call κ ρ)
  tails : κ → Option Nat

variable {κ ρ : Type}

def Phase.over : Phase ρ → Bool
  | .ended _ => true
  | _ => false

/-- `fn` has been called. -/
def Phase.Started : Phase ρ → Prop
  | .running | .settled _ | .ended _ => True
  | .waiting | .refused => False

/-- `fn` has been called and `finally` is not done. -/
def Phase.Inside : Phase ρ → Prop
  | .running | .settled _ => True
  | _ => False

/-- `Promise.resolve()` where there is no tail. -/
def State.settlement (s : State κ ρ) : Option Nat → Settlement
  | none => .fulfilled
  | some p => (s.calls[p]?.map Call.tail).getD .pending

def State.put (s : State κ ρ) (t : Nat) (c : Call κ ρ) : State κ ρ :=
  { s with calls := s.calls.set t c }

def State.initial : State κ ρ := ⟨[], fun _ => none⟩

section
variable [DecidableEq κ]

/-- `this.tails.delete(key)`, if the entry is still the own one. -/
def State.drop (s : State κ ρ) (key : κ) (t : Nat) : State κ ρ :=
  { s with tails := if s.tails key = some t then Function.update s.tails key none else s.tails }

/-- What the runtime does by itself. -/
inductive Micro : State κ ρ → State κ ρ → Prop
  | resume {s : State κ ρ} {t : Nat} {c : Call κ ρ} : s.calls[t]? = some c →
      c.phase = .waiting → s.settlement c.prev = .fulfilled →
      Micro s (s.put t { c with phase := .running })
  | refuse {s : State κ ρ} {t : Nat} {c : Call κ ρ} : s.calls[t]? = some c →
      c.phase = .waiting → s.settlement c.prev = .rejected →
      Micro s (s.put t { c with phase := .refused })
  | leave {s : State κ ρ} {t : Nat} {c : Call κ ρ} {r : ρ} : s.calls[t]? = some c →
      c.phase = .settled r →
      Micro s ((s.put t { c with phase := .ended r }).drop c.key t)
  | fulfil {s : State κ ρ} {t : Nat} {c : Call κ ρ} : s.calls[t]? = some c →
      c.tail = .pending → s.settlement c.prev = .fulfilled → c.phase.over = true →
      Micro s (s.put t { c with tail := .fulfilled })
  | reject {s : State κ ρ} {t : Nat} {c : Call κ ρ} : s.calls[t]? = some c →
      c.tail = .pending → s.settlement c.prev = .rejected →
      Micro s (s.put t { c with tail := .rejected })

/-- Arrivals and completions come from outside, at any time. -/
inductive Step : State κ ρ → State κ ρ → Prop
  | run (s : State κ ρ) (key : κ) :
      Step s ⟨s.calls ++ [⟨key, s.tails key, .waiting, .pending⟩],
        Function.update s.tails key (some s.calls.length)⟩
  | finish {s : State κ ρ} {t : Nat} {c : Call κ ρ} (r : ρ) : s.calls[t]? = some c →
      c.phase = .running → Step s (s.put t { c with phase := .settled r })
  | micro {s s' : State κ ρ} : Micro s s' → Step s s'

def Reachable (s : State κ ρ) : Prop := Relation.ReflTransGen Step State.initial s

end

-- ---------------------------------------------------------------------------
-- The mutex behind the promises
-- ---------------------------------------------------------------------------

def Call.ticket (t : Nat) (c : Call κ ρ) : Ticket κ Nat := ⟨c.key, t, c.phase.over⟩

def State.mutex (s : State κ ρ) : KeyedMutex κ Nat := ⟨s.calls.mapIdx Call.ticket, s.tails⟩

theorem mutex_ticket {s : State κ ρ} {t : Nat} {c : Call κ ρ} (h : s.calls[t]? = some c) :
    s.mutex.tickets[t]? = some (c.ticket t) := by
  rw [State.mutex, List.getElem?_mapIdx, h, Option.map_some]

theorem ticket_call {s : State κ ρ} {t : Nat} {a : Ticket κ Nat}
    (h : s.mutex.tickets[t]? = some a) : ∃ c, s.calls[t]? = some c ∧ a = c.ticket t := by
  rw [State.mutex, List.getElem?_mapIdx, Option.map_eq_some_iff] at h
  obtain ⟨c, hc, rfl⟩ := h
  exact ⟨c, hc, rfl⟩

theorem getElem?_put {s : State κ ρ} {t i : Nat} {c a : Call κ ρ}
    (h : (s.put t c).calls[i]? = some a) : (i = t ∧ a = c) ∨ (i ≠ t ∧ s.calls[i]? = some a) := by
  rw [State.put, List.getElem?_set] at h
  by_cases hi : t = i
  · rw [if_pos hi] at h
    split_ifs at h
    exact .inl ⟨hi.symm, (Option.some.inj h).symm⟩
  · rw [if_neg hi] at h
    exact .inr ⟨Ne.symm hi, h⟩

theorem put_self {s : State κ ρ} {t : Nat} {c c' : Call κ ρ} (h : s.calls[t]? = some c) :
    (s.put t c').calls[t]? = some c' := by
  rw [State.put, List.getElem?_set_self (KeyedMutex.lt_of_getElem? h)]

theorem put_other {s : State κ ρ} {t i : Nat} {c' : Call κ ρ} (hne : i ≠ t) :
    (s.put t c').calls[i]? = s.calls[i]? := by
  rw [State.put, List.getElem?_set_ne hne.symm]

/-- Only leaving shows in the mutex. -/
theorem mutex_put {s : State κ ρ} {t : Nat} {c c' : Call κ ρ} (h : s.calls[t]? = some c)
    (hkey : c'.key = c.key) (hover : c'.phase.over = c.phase.over) : (s.put t c').mutex = s.mutex := by
  have htickets : (s.put t c').calls.mapIdx Call.ticket = s.calls.mapIdx Call.ticket := by
    refine List.ext_getElem? fun i => ?_
    rw [List.getElem?_mapIdx, List.getElem?_mapIdx]
    by_cases hi : i = t
    · rw [hi, put_self h, h, Option.map_some, Option.map_some, Call.ticket, Call.ticket, hkey, hover]
    · rw [put_other hi]
  rw [State.mutex, htickets]
  rfl

theorem mutex_leave [DecidableEq κ] {s : State κ ρ} {t : Nat} {c : Call κ ρ} {r : ρ}
    (h : s.calls[t]? = some c) :
    ((s.put t { c with phase := .ended r }).drop c.key t).mutex = s.mutex.release c.key t := by
  have htickets : (s.put t { c with phase := .ended r }).calls.mapIdx Call.ticket =
      (s.calls.mapIdx Call.ticket).modify t fun ticket => { ticket with released := true } := by
    refine List.ext_getElem? fun i => ?_
    rw [List.getElem?_modify, List.getElem?_mapIdx, List.getElem?_mapIdx]
    by_cases hi : i = t
    · rw [hi, put_self h, h]
      simp [Call.ticket, Phase.over]
    · rw [put_other hi]
      cases s.calls[i]? <;> simp [Ne.symm hi]
  simp only [State.mutex, State.drop, KeyedMutex.release, htickets]
  rfl

theorem mutex_run [DecidableEq κ] (s : State κ ρ) (key : κ) :
    State.mutex ⟨s.calls ++ [⟨key, s.tails key, .waiting, .pending⟩],
      Function.update s.tails key (some s.calls.length)⟩ =
        (s.mutex.enter key s.calls.length).2 := by
  simp [State.mutex, KeyedMutex.enter, List.mapIdx_append, Call.ticket, Phase.over]

-- ---------------------------------------------------------------------------
-- The invariant
-- ---------------------------------------------------------------------------

/-- What is known of a call by itself. -/
structure Call.Good (s : State κ ρ) (t : Nat) (c : Call κ ρ) : Prop where
  queued : c.phase = .waiting → s.mutex.Queued c.key t c.prev t
  holds : c.phase.Inside → s.mutex.Holds c.key t t
  started : c.phase.Started → s.settlement c.prev = .fulfilled
  served : c.phase ≠ .refused ∧ c.tail ≠ .rejected
  resolved : c.tail = .fulfilled → c.phase.over = true
  prev_lt : ∀ p, c.prev = some p → p < t ∧ ∃ b, s.calls[p]? = some b ∧ b.key = c.key

structure Inv (s : State κ ρ) : Prop where
  ok : s.mutex.Ok
  good : ∀ (t : Nat) (c : Call κ ρ), s.calls[t]? = some c → c.Good s t
  in_use : ∀ k t, s.tails k = some t → ∃ c, s.calls[t]? = some c ∧ c.key = k ∧ c.phase.over = false

/-- What no step takes back. -/
structure Call.Keeps (c c' : Call κ ρ) : Prop where
  key : c'.key = c.key
  prev : c'.prev = c.prev
  tail : c.tail = .fulfilled → c'.tail = .fulfilled

section
variable {s s' : State κ ρ} {t : Nat} {c c' : Call κ ρ}

/-- Calls are added and go on. -/
def State.Grows (s s' : State κ ρ) : Prop :=
  ∀ (i : Nat) (a : Call κ ρ), s.calls[i]? = some a → ∃ a', s'.calls[i]? = some a' ∧ a.Keeps a'

theorem State.Grows.settlement (h : s.Grows s') {prev : Option Nat}
    (hprev : s.settlement prev = .fulfilled) : s'.settlement prev = .fulfilled := by
  cases prev with
  | none => rfl
  | some p =>
    cases hp : s.calls[p]? with
    | none => simp [State.settlement, hp] at hprev
    | some a =>
      obtain ⟨a', ha', hkeeps⟩ := h p a hp
      simp only [State.settlement, hp, Option.map_some, Option.getD_some] at hprev
      simp only [State.settlement, ha', Option.map_some, Option.getD_some]
      exact hkeeps.tail hprev

/-- The others do not notice a step that moves only one ticket. -/
theorem Call.Good.mono (h : c.Good s t) (hgrows : s.Grows s')
    (hmoves : KeyedMutex.Moves t s.mutex s'.mutex) : c.Good s' t where
  queued hwaiting := (h.queued hwaiting).moves hmoves
  holds hinside := (h.holds hinside).moves hmoves
  started hstarted := hgrows.settlement (h.started hstarted)
  served := h.served
  resolved := h.resolved
  prev_lt p hp := by
    obtain ⟨hlt, b, hb, hkey⟩ := h.prev_lt p hp
    obtain ⟨b', hb', hkeeps⟩ := hgrows p b hb
    exact ⟨hlt, b', hb', hkeeps.key.trans hkey⟩

theorem grows_put (h : s.calls[t]? = some c) (hkeeps : c.Keeps c') : s.Grows (s.put t c') := by
  intro i a ha
  by_cases hi : i = t
  · subst hi
    cases h.symm.trans ha
    exact ⟨c', put_self h, hkeeps⟩
  · exact ⟨a, (put_other hi).trans ha, rfl, rfl, id⟩

/-- A call that goes on inside the mutex. -/
theorem Inv.put (h : Inv s) (hc : s.calls[t]? = some c) (hkeeps : c.Keeps c')
    (hover : c'.phase.over = c.phase.over) (hgood : c'.Good (s.put t c') t) :
    Inv (s.put t c') := by
  have hmutex := mutex_put hc hkeeps.key hover
  refine ⟨hmutex ▸ h.ok, fun i a ha => ?_, fun k i hi => ?_⟩
  · rcases getElem?_put ha with ⟨rfl, rfl⟩ | ⟨-, ha⟩
    · exact hgood
    · exact (h.good i a ha).mono (grows_put hc hkeeps) (hmutex ▸ KeyedMutex.Moves.refl i _)
  · obtain ⟨a, ha, hkey, hopen⟩ := h.in_use k i hi
    by_cases hit : i = t
    · subst hit
      cases hc.symm.trans ha
      exact ⟨c', put_self hc, hkeeps.key.trans hkey, hover.trans hopen⟩
    · exact ⟨a, (put_other hit).trans ha, hkey, hopen⟩

theorem Inv.settlement (h : Inv s) (prev : Option Nat) : s.settlement prev ≠ .rejected := by
  cases prev with
  | none => nofun
  | some p =>
    cases hp : s.calls[p]? with
    | none => simp [State.settlement, hp]
    | some a =>
      simp only [State.settlement, hp, Option.map_some, Option.getD_some]
      exact (h.good p a hp).served.2

/-- Whoever has waited for a fulfilled tail has the mutex. -/
theorem Inv.resolved (h : Inv s) {prev : Option Nat} (hprev : s.settlement prev = .fulfilled) :
    s.mutex.resolved prev := by
  cases prev with
  | none => trivial
  | some p =>
    cases hp : s.calls[p]? with
    | none => simp [State.settlement, hp] at hprev
    | some a =>
      simp only [State.settlement, hp, Option.map_some, Option.getD_some] at hprev
      exact ⟨a.ticket p, mutex_ticket hp, (h.good p a hp).resolved hprev⟩

theorem Inv.initial : Inv (State.initial : State κ ρ) where
  ok := KeyedMutex.Ok.empty
  good _ _ h := by cases h
  in_use _ _ h := by cases h

theorem Inv.finish (h : Inv s) (hc : s.calls[t]? = some c) (hrunning : c.phase = .running) (r : ρ) :
    Inv (s.put t { c with phase := .settled r }) := by
  have hkeeps : c.Keeps { c with phase := .settled r } := ⟨rfl, rfl, id⟩
  have hover : (Phase.settled r).over = c.phase.over := by rw [hrunning]; rfl
  have hmutex : (s.put t { c with phase := .settled r }).mutex = s.mutex := mutex_put hc rfl hover
  have hgood := (h.good t c hc).mono (grows_put hc hkeeps) (hmutex ▸ KeyedMutex.Moves.refl t _)
  refine h.put hc hkeeps hover ⟨nofun, fun _ => ?_, fun _ => ?_, ⟨nofun, hgood.served.2⟩, ?_,
    hgood.prev_lt⟩
  · exact hgood.holds (by rw [hrunning]; trivial)
  · exact hgood.started (by rw [hrunning]; trivial)
  · intro htail
    rw [hover]
    exact hgood.resolved htail

theorem Inv.resume (h : Inv s) (hc : s.calls[t]? = some c) (hwaiting : c.phase = .waiting)
    (hprev : s.settlement c.prev = .fulfilled) : Inv (s.put t { c with phase := .running }) := by
  have hkeeps : c.Keeps { c with phase := .running } := ⟨rfl, rfl, id⟩
  have hover : (Phase.running : Phase ρ).over = c.phase.over := by rw [hwaiting]; rfl
  have hmutex : (s.put t { c with phase := .running }).mutex = s.mutex := mutex_put hc rfl hover
  have hgood := (h.good t c hc).mono (grows_put hc hkeeps) (hmutex ▸ KeyedMutex.Moves.refl t _)
  refine h.put hc hkeeps hover ⟨nofun, fun _ => ?_, fun _ => ?_, ⟨nofun, hgood.served.2⟩, ?_,
    hgood.prev_lt⟩
  · rw [hmutex]
    exact ((h.good t c hc).queued hwaiting).holds h.ok (h.resolved hprev)
  · exact (grows_put hc hkeeps).settlement hprev
  · intro htail
    rw [hover]
    exact hgood.resolved htail

theorem Inv.fulfil (h : Inv s) (hc : s.calls[t]? = some c) (hprev : c.phase.over = true) :
    Inv (s.put t { c with tail := .fulfilled }) := by
  have hkeeps : c.Keeps { c with tail := .fulfilled } := ⟨rfl, rfl, fun _ => rfl⟩
  have hmutex : (s.put t { c with tail := .fulfilled }).mutex = s.mutex := mutex_put hc rfl rfl
  have hgood := (h.good t c hc).mono (grows_put hc hkeeps) (hmutex ▸ KeyedMutex.Moves.refl t _)
  exact h.put hc hkeeps rfl ⟨hgood.queued, hgood.holds, hgood.started, ⟨hgood.served.1, nofun⟩,
    fun _ => hprev, hgood.prev_lt⟩

variable [DecidableEq κ]

theorem Inv.run (h : Inv s) (key : κ) :
    Inv ⟨s.calls ++ [⟨key, s.tails key, .waiting, .pending⟩],
      Function.update s.tails key (some s.calls.length)⟩ := by
  have hmutex := mutex_run s key
  have hgrows : s.Grows ⟨s.calls ++ [⟨key, s.tails key, .waiting, .pending⟩],
      Function.update s.tails key (some s.calls.length)⟩ := fun i a ha =>
    ⟨a, (List.getElem?_append_left (KeyedMutex.lt_of_getElem? ha)).trans ha, rfl, rfl, id⟩
  refine ⟨hmutex ▸ KeyedMutex.enter_ok h.ok, fun i a ha => ?_, fun k i hi => ?_⟩
  · dsimp only at ha
    rcases Nat.lt_or_ge i s.calls.length with hlt | hge
    · rw [List.getElem?_append_left hlt] at ha
      exact (h.good i a ha).mono hgrows (hmutex ▸ KeyedMutex.enter_moves i)
    · rw [List.getElem?_append_right hge, List.getElem?_singleton] at ha
      split_ifs at ha with hlast
      obtain rfl := (Option.some.inj ha).symm
      obtain rfl : i = s.calls.length := by omega
      exact
        { queued := fun _ => by
            have hqueued : KeyedMutex.Queued (s.mutex.enter key s.calls.length).2 key
                s.calls.length _ _ := KeyedMutex.enter_queued h.ok
            rw [hmutex]
            simpa [KeyedMutex.enter, State.mutex] using hqueued
          holds := False.elim
          started := False.elim
          served := ⟨nofun, nofun⟩
          resolved := nofun
          prev_lt := fun p hp => by
            obtain ⟨b, hb, hkey, -⟩ := h.in_use key p hp
            obtain ⟨b', hb', hkeeps⟩ := hgrows p b hb
            exact ⟨KeyedMutex.lt_of_getElem? hb, b', hb', hkeeps.key.trans hkey⟩ }
  · dsimp only at hi ⊢
    rw [Function.update_apply] at hi
    split_ifs at hi with hk
    · cases hi
      exact ⟨_, List.getElem?_concat_length, hk.symm, rfl⟩
    · obtain ⟨a, ha, hkey, hopen⟩ := h.in_use k i hi
      exact ⟨a, (List.getElem?_append_left (KeyedMutex.lt_of_getElem? ha)).trans ha, hkey, hopen⟩

theorem Inv.leave (h : Inv s) {r : ρ} (hc : s.calls[t]? = some c) (hsettled : c.phase = .settled r) :
    Inv ((s.put t { c with phase := .ended r }).drop c.key t) := by
  have hmutex := mutex_leave (r := r) hc
  have hgood := h.good t c hc
  have hholds := hgood.holds (by rw [hsettled]; trivial)
  have hgrows : s.Grows ((s.put t { c with phase := .ended r }).drop c.key t) :=
    grows_put hc ⟨rfl, rfl, id⟩
  refine ⟨hmutex ▸ KeyedMutex.release_ok h.ok hholds, fun i a ha => ?_, fun k i hi => ?_⟩
  · rcases getElem?_put ha with ⟨rfl, rfl⟩ | ⟨hne, ha⟩
    · refine ⟨nofun, False.elim, fun _ => ?_, ⟨nofun, hgood.served.2⟩, fun _ => rfl, fun p hp => ?_⟩
      · exact hgrows.settlement (hgood.started (by rw [hsettled]; trivial))
      · obtain ⟨hlt, b, hb, hkey⟩ := hgood.prev_lt p hp
        obtain ⟨b', hb', hkeeps⟩ := hgrows p b hb
        exact ⟨hlt, b', hb', hkeeps.key.trans hkey⟩
    · exact (h.good i a ha).mono hgrows (hmutex ▸ KeyedMutex.release_moves hholds hne.symm)
  · have htail : s.tails k = some i ∧ ¬ (k = c.key ∧ i = t) := by
      change (if s.tails c.key = some t then Function.update s.tails c.key none else s.tails) k =
        some i at hi
      split_ifs at hi with hmine
      · rw [Function.update_apply] at hi
        split_ifs at hi with hk
        exact ⟨hi, fun hsame => hk hsame.1⟩
      · refine ⟨hi, ?_⟩
        rintro ⟨rfl, rfl⟩
        exact hmine hi
    obtain ⟨a, ha, hkey, hopen⟩ := h.in_use k i htail.1
    have hit : i ≠ t := by
      rintro rfl
      cases hc.symm.trans ha
      exact htail.2 ⟨hkey.symm, rfl⟩
    exact ⟨a, (put_other hit).trans ha, hkey, hopen⟩

theorem Inv.micro (h : Inv s) (hstep : Micro s s') : Inv s' := by
  cases hstep with
  | resume hc hwaiting hprev => exact h.resume hc hwaiting hprev
  | refuse hc hwaiting hprev => exact absurd hprev (h.settlement _)
  | leave hc hsettled => exact h.leave hc hsettled
  | fulfil hc htail hprev hover => exact h.fulfil hc hover
  | reject hc htail hprev => exact absurd hprev (h.settlement _)

theorem Inv.step (h : Inv s) (hstep : Step s s') : Inv s' := by
  cases hstep with
  | run key => exact h.run key
  | finish r hc hrunning => exact h.finish hc hrunning r
  | micro hmicro => exact h.micro hmicro

theorem Reachable.inv (h : Reachable s) : Inv s := by
  induction h with
  | refl => exact .initial
  | tail _ hstep ih => exact ih.step hstep

end

-- ---------------------------------------------------------------------------
-- Exclusion and order
-- ---------------------------------------------------------------------------

section
variable {s : State κ ρ} {t : Nat} {c : Call κ ρ}

theorem Inv.exclusive (h : Inv s) {t' : Nat} {c' : Call κ ρ} (hc : s.calls[t]? = some c)
    (hc' : s.calls[t']? = some c') (hkey : c.key = c'.key) (hrunning : c.phase = .running)
    (hrunning' : c'.phase = .running) : t = t' := by
  have hholds := (h.good t c hc).holds (by rw [hrunning]; trivial)
  have hholds' := (h.good t' c' hc').holds (by rw [hrunning']; trivial)
  rw [← hkey] at hholds'
  exact hholds.exclusive hholds'

theorem over_ended {phase : Phase ρ} (h : phase.over = true) : ∃ r, phase = .ended r := by
  cases phase with
  | ended r => exact ⟨r, rfl⟩
  | _ => cases h

/-- When a function starts, those of its key that were called before have ended. -/
theorem Inv.in_order (h : Inv s) {t' : Nat} {c' : Call κ ρ} (hlt : t < t')
    (hc : s.calls[t]? = some c) (hc' : s.calls[t']? = some c') (hkey : c.key = c'.key)
    (hstarted : c'.phase.Started) : ∃ r, c.phase = .ended r := by
  have hgood := h.good t' c' hc'
  refine over_ended ?_
  by_cases hinside : c'.phase.Inside
  · exact (hgood.holds hinside).before t _ hlt (mutex_ticket hc) hkey
  · have hover : c'.phase.over = true := by
      cases hphase : c'.phase with
      | ended r => rfl
      | _ =>
        rw [hphase] at hstarted hinside
        first
          | exact absurd trivial hinside
          | exact hstarted.elim
    exact h.ok.in_order t' _ t _ (mutex_ticket hc') (mutex_ticket hc) (Nat.le_of_lt hlt) hkey hover

theorem Inv.drained (h : Inv s) (hdone : ∀ c ∈ s.calls, c.phase.over = true) (k : κ) :
    s.tails k = none := by
  cases htail : s.tails k with
  | none => rfl
  | some t =>
    obtain ⟨c, hc, -, hopen⟩ := h.in_use k t htail
    rw [hdone c (List.mem_of_getElem? hc)] at hopen
    cases hopen

end

-- ---------------------------------------------------------------------------
-- Microtasks
-- ---------------------------------------------------------------------------

/-- The microtasks a call still causes by itself. -/
def Call.load (c : Call κ ρ) : Nat :=
  (match c.phase with
    | .waiting | .settled _ => 1
    | .running | .ended _ | .refused => 0) + if c.tail = .pending then 1 else 0

def State.load (s : State κ ρ) : Nat := (s.calls.map Call.load).sum

theorem load_put {s : State κ ρ} {t : Nat} {c : Call κ ρ} (h : s.calls[t]? = some c)
    (c' : Call κ ρ) : (s.put t c').load + c.load = s.load + c'.load := by
  have hsum : ∀ (calls : List (Call κ ρ)) (t : Nat), calls[t]? = some c →
      ((calls.set t c').map Call.load).sum + c.load = (calls.map Call.load).sum + c'.load := by
    intro calls
    induction calls with
    | nil =>
      intro t ht
      cases ht
    | cons a calls ih =>
      intro t ht
      cases t with
      | zero =>
        cases ht
        simp only [List.set_cons_zero, List.map_cons, List.sum_cons]
        omega
      | succ t =>
        have hrest := ih t ht
        simp only [List.set_cons_succ, List.map_cons, List.sum_cons]
        omega
  exact hsum s.calls t h

section
variable [DecidableEq κ] {s s' : State κ ρ} {t : Nat} {c : Call κ ρ}

/-- They come to an end. -/
theorem Micro.load_lt (h : Micro s s') : s'.load < s.load := by
  cases h with
  | @resume t c hc hwaiting _ =>
    have hload := load_put hc { c with phase := .running }
    simp only [Call.load, hwaiting] at hload
    omega
  | @refuse t c hc hwaiting _ =>
    have hload := load_put hc { c with phase := .refused }
    simp only [Call.load, hwaiting] at hload
    omega
  | @leave t c r hc hsettled =>
    have hload := load_put hc { c with phase := .ended r }
    simp only [Call.load, hsettled] at hload
    change (s.put t { c with phase := .ended r }).load < s.load
    omega
  | @fulfil t c hc htail _ _ =>
    have hload := load_put hc { c with tail := .fulfilled }
    simp only [Call.load, htail, reduceCtorEq, if_true, if_false] at hload
    omega
  | @reject t c hc htail _ =>
    have hload := load_put hc { c with tail := .rejected }
    simp only [Call.load, htail, reduceCtorEq, if_true, if_false] at hload
    omega

/-- No microtask is left. -/
def Resting (s : State κ ρ) : Prop := ∀ s', ¬ Micro s s'

/-- At rest every waiting call has a running one of its key before it: a tail
that is pending belongs to a call that is not over. -/
theorem Inv.waits (h : Inv s) (hrest : Resting s) (hc : s.calls[t]? = some c)
    (hwaiting : c.phase = .waiting) :
    ∃ i a, i < t ∧ s.calls[i]? = some a ∧ a.key = c.key ∧ a.phase = .running := by
  induction t using Nat.strongRecOn generalizing c with
  | _ t ih =>
    have hblocked : s.settlement c.prev ≠ .fulfilled := fun hprev =>
      hrest _ (.resume hc hwaiting hprev)
    cases hp : c.prev with
    | none => exact absurd (by rw [hp]; rfl) hblocked
    | some p =>
      obtain ⟨hlt, b, hb, hkey⟩ := (h.good t c hc).prev_lt p hp
      have hgood := h.good p b hb
      have htail : b.tail = .pending := by
        rw [hp] at hblocked
        simp only [State.settlement, hb, Option.map_some, Option.getD_some] at hblocked
        cases htail : b.tail with
        | pending => rfl
        | fulfilled => exact absurd htail hblocked
        | rejected => exact absurd htail hgood.served.2
      cases hphase : b.phase with
      | waiting =>
        obtain ⟨i, a, hi, ha, hakey, hrunning⟩ := ih p hlt hb hphase
        exact ⟨i, a, Nat.lt_trans hi hlt, ha, hakey.trans hkey, hrunning⟩
      | running => exact ⟨p, b, hlt, hb, hkey, hphase⟩
      | settled r => exact absurd (.leave hb hphase) (hrest _)
      | ended r =>
        have hprev := hgood.started (by rw [hphase]; trivial)
        exact absurd (.fulfil hb htail hprev (by rw [hphase]; rfl)) (hrest _)
      | refused => exact absurd hphase hgood.served.1

/-- Exclusion, order, no failure of another call's making, no waiting but for a
function of the own key, and an empty map at the end. -/
theorem keyedMutex_serves (h : Reachable s) :
    (∀ (t t' : Nat) (c c' : Call κ ρ), s.calls[t]? = some c → s.calls[t']? = some c' →
      c.key = c'.key → c.phase = .running → c'.phase = .running → t = t') ∧
    (∀ (t t' : Nat) (c c' : Call κ ρ), t < t' → s.calls[t]? = some c →
      s.calls[t']? = some c' → c.key = c'.key → c'.phase.Started → ∃ r, c.phase = .ended r) ∧
    (∀ c ∈ s.calls, c.phase ≠ .refused ∧ c.tail ≠ .rejected) ∧
    (∀ s', Micro s s' → s'.load < s.load) ∧
    (Resting s → ∀ (t : Nat) (c : Call κ ρ), s.calls[t]? = some c → c.phase = .waiting →
      ∃ (i : Nat) (a : Call κ ρ), i < t ∧ s.calls[i]? = some a ∧ a.key = c.key ∧
        a.phase = .running) ∧
    ((∀ c ∈ s.calls, ∃ r, c.phase = .ended r) → ∀ k, s.tails k = none) := by
  have hinv := h.inv
  refine ⟨fun t t' c c' hc hc' => hinv.exclusive hc hc',
    fun t t' c c' hlt hc hc' => hinv.in_order hlt hc hc', fun c hc => ?_, fun s' => Micro.load_lt,
    fun hrest t c hc => hinv.waits hrest hc, fun hdone => hinv.drained fun c hc => ?_⟩
  · obtain ⟨t, ht⟩ := List.getElem?_of_mem hc
    exact (hinv.good t c ht).served
  · obtain ⟨r, hr⟩ := hdone c hc
    rw [hr]
    rfl

/-- The second call waits for the first. -/
def twoCalls : State Bool (Except String Unit) where
  calls := [⟨true, none, .running, .pending⟩, ⟨true, some 0, .waiting, .pending⟩]
  tails := Function.update (Function.update (fun _ => none) true (some 0)) true (some 1)

theorem twoCalls_reachable : Reachable twoCalls := by
  have hrun := Step.run (State.initial : State Bool (Except String Unit)) true
  have hrun' := Step.run (ρ := Except String Unit) ⟨[⟨true, none, .waiting, .pending⟩],
    Function.update (fun _ => none) true (some 0)⟩ true
  refine ((Relation.ReflTransGen.single hrun).tail hrun').tail (.micro ?_)
  exact .resume (t := 0) (c := ⟨true, none, .waiting, .pending⟩) rfl rfl rfl

theorem keyedMutex_serves_two : (∀ c ∈ twoCalls.calls, c.phase ≠ .refused ∧ c.tail ≠ .rejected) ∧
    ∀ s', Micro twoCalls s' → s'.load < twoCalls.load :=
  have h := (keyedMutex_serves twoCalls_reachable).2.2
  ⟨h.1, h.2.1⟩

end

end EsigSuite.Gateway.Mutex
