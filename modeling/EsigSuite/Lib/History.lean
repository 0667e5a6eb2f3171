import Mathlib.Init

/-!
# Histories

What has happened, the latest first.
-/

namespace Lib

variable {α : Type}

/-- Each entry stands in `P` to those before it. -/
def Each (P : List α → α → Prop) : List α → Prop
  | [] => True
  | entry :: past => P past entry ∧ Each P past

theorem Each.split {P : List α → α → Prop} {later past : List α} {entry : α}
    (h : Each P (later ++ entry :: past)) : P past entry := by
  induction later with
  | nil => exact h.1
  | cons _ _ ih => exact ih h.2

end Lib
