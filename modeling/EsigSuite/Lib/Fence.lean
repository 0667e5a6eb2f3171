import Mathlib.Logic.Relation
import Mathlib.Order.Lattice

/-!
# Leases with a fencing token

A cell remembers the last lease that was given out. Its token only ever grows,
and a token that was passed by is never current again, whatever the clock
says.
-/

namespace Lib

structure Fence (ω τ : Type) where
  owner : ω
  token : Nat
  expiresAt : τ

namespace Fence

variable {ω τ : Type} {cell cell' : Option (Fence ω τ)} {owner owner' : ω} {token token' : Nat}

def lastToken : Option (Fence ω τ) → Nat
  | none => 0
  | some fence => fence.token

/-- What may happen to a cell: a new expiry for the lease it holds, or the
next lease. -/
inductive Moved : Option (Fence ω τ) → Option (Fence ω τ) → Prop
  | kept (c : Option (Fence ω τ)) : Moved c c
  | expires (fence : Fence ω τ) (at' : τ) : Moved (some fence) (some { fence with expiresAt := at' })
  | taken (c : Option (Fence ω τ)) (owner : ω) (at' : τ) :
      Moved c (some ⟨owner, lastToken c + 1, at'⟩)

theorem Moved.lastToken_le (h : Moved cell cell') : lastToken cell ≤ lastToken cell' := by
  cases h with
  | kept c => exact Nat.le_refl _
  | expires fence at' => exact Nat.le_refl _
  | taken c owner at' => exact Nat.le_succ _

theorem lastToken_le_of_moved (h : Relation.ReflTransGen Moved cell cell') :
    lastToken cell ≤ lastToken cell' := by
  induction h with
  | refl => exact Nat.le_refl _
  | tail _ hlast ih => exact Nat.le_trans ih hlast.lastToken_le

section
variable [LinearOrder τ] {now now' : τ}

/-- The pair `owner`, `token` is accepted at `now`. -/
def Current (cell : Option (Fence ω τ)) (owner : ω) (token : Nat) (now : τ) : Prop :=
  ∃ fence, cell = some fence ∧ fence.owner = owner ∧ fence.token = token ∧ now < fence.expiresAt

def Free (cell : Option (Fence ω τ)) (now : τ) : Prop :=
  ∀ fence, cell = some fence → fence.expiresAt ≤ now

theorem Current.unique (h : Current cell owner token now) (h' : Current cell owner' token' now') :
    owner = owner' ∧ token = token' := by
  obtain ⟨fence, rfl, rfl, rfl, -⟩ := h
  obtain ⟨fence', hcell, rfl, rfl, -⟩ := h'
  cases hcell
  exact ⟨rfl, rfl⟩

theorem Current.token_eq (h : Current cell owner token now) : token = lastToken cell := by
  obtain ⟨fence, rfl, -, rfl, -⟩ := h
  rfl

theorem Current.not_free (h : Current cell owner token now) : ¬ Free cell now := by
  obtain ⟨fence, rfl, -, -, hlt⟩ := h
  exact fun hfree => absurd (hfree fence rfl) (not_le_of_gt hlt)

/-- A token that was passed by stays so. -/
theorem not_current_of_lt (hlt : token < lastToken cell)
    (hmoved : Relation.ReflTransGen Moved cell cell') : ¬ Current cell' owner token now := by
  intro h
  have hle := lastToken_le_of_moved hmoved
  rw [← h.token_eq] at hle
  exact absurd (Nat.lt_of_lt_of_le hlt hle) (Nat.lt_irrefl _)

end

end Fence

end Lib
