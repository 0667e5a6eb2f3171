/-!
# What is reached in the end

A process that waits keeps waiting until it is done, and its place in the line
only ever goes down.
-/

namespace Lib

variable {waits done : Nat → Prop} {rank : Nat → Nat}

/-- One step of the run leaves a waiting process done or no further from it. -/
def Nears (waits done : Nat → Prop) (rank : Nat → Nat) : Prop :=
  ∀ n, waits n → done (n + 1) ∨ (waits (n + 1) ∧ rank (n + 1) ≤ rank n)

theorem Nears.until (hkeep : Nears waits done rank) {n m : Nat} (hle : n ≤ m) (h : waits n) :
    (∃ k, n ≤ k ∧ done k) ∨ (waits m ∧ rank m ≤ rank n) := by
  induction hle with
  | refl => exact .inr ⟨h, Nat.le_refl _⟩
  | @step m hle ih =>
    rcases ih with hdone | ⟨hwaits, hrank⟩
    · exact .inl hdone
    · rcases hkeep m hwaits with hdone | ⟨hwaits, hless⟩
      · exact .inl ⟨m + 1, Nat.le_succ_of_le hle, hdone⟩
      · exact .inr ⟨hwaits, Nat.le_trans hless hrank⟩

/-- Where the place goes down again and again the process is done in the end. -/
theorem Nears.reached (hkeep : Nears waits done rank)
    (hdrop : ∀ n, waits n → ∃ m, n ≤ m ∧ (waits m → done (m + 1) ∨ rank (m + 1) < rank m))
    {n : Nat} (h : waits n) : ∃ k, n ≤ k ∧ done k := by
  induction hr : rank n using Nat.strongRecOn generalizing n with
  | ind r ih =>
    obtain ⟨m, hnm, hless⟩ := hdrop n h
    rcases hkeep.until hnm h with hdone | ⟨hwaits, hrank⟩
    · exact hdone
    · rcases hkeep m hwaits, hless hwaits with ⟨hdone | ⟨hlater, _⟩, hdone | hlower⟩
      · exact ⟨m + 1, Nat.le_succ_of_le hnm, hdone⟩
      · exact ⟨m + 1, Nat.le_succ_of_le hnm, hdone⟩
      · exact ⟨m + 1, Nat.le_succ_of_le hnm, hdone⟩
      · obtain ⟨k, hk, hdone⟩ := ih (rank (m + 1)) (by omega) hlater rfl
        exact ⟨k, by omega, hdone⟩

end Lib
