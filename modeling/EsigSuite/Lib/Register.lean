import Mathlib.Order.Lattice
import Mathlib.Order.WithBot
import Mathlib.Data.Prod.Lex

/-!
# Registers that converge

A state machine fed with events in any order. `Joins` is a view of its state
in a join semilattice into which every event puts its own key: after a whole
run that view is the join of the keys, whatever the order and however often an
event came. `Keeps` is a write-once view: the first value offered stays.
-/

namespace Lib

-- ---------------------------------------------------------------------------
-- The join of all keys
-- ---------------------------------------------------------------------------

section
variable {ε : Type*} {β : Type*} [SemilatticeSup β] [OrderBot β]

def joinAll (key : ε → β) : List ε → β
  | [] => ⊥
  | e :: rest => key e ⊔ joinAll key rest

theorem joinAll_le_iff {key : ε → β} : joinAll key xs ≤ b ↔ ∀ e ∈ xs, key e ≤ b := by
  induction xs with
  | nil => simp [joinAll]
  | cons e rest ih => simp [joinAll, ih]

theorem le_joinAll {key : ε → β} (h : e ∈ xs) : key e ≤ joinAll key xs :=
  joinAll_le_iff.mp le_rfl e h

/-- Only the set of keys counts. -/
theorem joinAll_congr {key : ε → β} (h : ∀ e, e ∈ xs ↔ e ∈ ys) :
    joinAll key xs = joinAll key ys := by
  apply le_antisymm
  · exact joinAll_le_iff.mpr fun e he => le_joinAll ((h e).mp he)
  · exact joinAll_le_iff.mpr fun e he => le_joinAll ((h e).mpr he)

def Joins (step : σ → ε → σ) (view : σ → β) (key : ε → β) : Prop :=
  ∀ s e, view (step s e) = view s ⊔ key e

theorem Joins.foldl {step : σ → ε → σ} {view : σ → β} {key : ε → β} (h : Joins step view key)
    (s : σ) (xs : List ε) : view (xs.foldl step s) = view s ⊔ joinAll key xs := by
  induction xs generalizing s with
  | nil => simp [joinAll]
  | cons e rest ih => rw [List.foldl_cons, ih, h, joinAll, sup_assoc]

end

/-- In a linear order the join is attained. -/
theorem joinAll_attained {ε : Type*} {β : Type*} [LinearOrder β] [OrderBot β] {key : ε → β}
    {xs : List ε} (hne : xs ≠ []) : ∃ e ∈ xs, joinAll key xs = key e := by
  induction xs with
  | nil => exact absurd rfl hne
  | cons e rest ih =>
    by_cases hrest : rest = []
    · subst hrest
      exact ⟨e, List.mem_cons_self, sup_eq_left.mpr bot_le⟩
    · obtain ⟨m, hm, hmax⟩ := ih hrest
      rw [joinAll, hmax]
      rcases le_total (key e) (key m) with h | h
      · exact ⟨m, List.mem_cons_of_mem _ hm, sup_eq_right.mpr h⟩
      · exact ⟨e, List.mem_cons_self, sup_eq_left.mpr h⟩

-- ---------------------------------------------------------------------------
-- Write-once views
-- ---------------------------------------------------------------------------

section
variable {ε : Type*} {step : σ → ε → σ} {view : σ → Option β} {key : ε → Option β}

def Keeps (step : σ → ε → σ) (view : σ → Option β) (key : ε → Option β) : Prop :=
  ∀ s e, view (step s e) = (view s).or (key e)

theorem Keeps.foldl (h : Keeps step view key) (s : σ) (xs : List ε) :
    view (xs.foldl step s) = (view s).or (xs.findSome? key) := by
  induction xs generalizing s with
  | nil => simp
  | cons e rest ih =>
    rw [List.foldl_cons, ih, h, Option.or_assoc, List.findSome?_cons]
    cases key e <;> rfl

/-- Where no two keys differ, the first one offered is the only one. -/
theorem findSome?_congr {xs ys : List ε}
    (hkey : ∀ e ∈ xs, ∀ e' ∈ xs, ∀ v v', key e = some v → key e' = some v' → v = v')
    (h : ∀ e, e ∈ xs ↔ e ∈ ys) : xs.findSome? key = ys.findSome? key := by
  cases hx : xs.findSome? key with
  | none =>
    rw [List.findSome?_eq_none_iff] at hx
    exact (List.findSome?_eq_none_iff.mpr fun e he => hx e ((h e).mpr he)).symm
  | some v =>
    obtain ⟨e, he, hv⟩ := List.exists_of_findSome?_eq_some hx
    cases hy : ys.findSome? key with
    | none =>
      rw [List.findSome?_eq_none_iff] at hy
      rw [hy e ((h e).mp he)] at hv
      cases hv
    | some v' =>
      obtain ⟨e', he', hv'⟩ := List.exists_of_findSome?_eq_some hy
      rw [hkey e he e' ((h e').mpr he') v v' hv hv']

end

end Lib
