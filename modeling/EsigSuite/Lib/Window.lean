import Mathlib.Data.List.Nodup

/-!
# The end of a list that grows

`window n xs` is what is kept of `xs` when its last `n` elements are kept, and
`spilled n xs` is what is not.
-/

namespace Lib

variable {α : Type} (n : Nat) (xs : List α) (a : α)

def window : List α := xs.drop (xs.length - n)

def spilled : List α := xs.take (xs.length - n)

theorem spilled_append_window : spilled n xs ++ window n xs = xs := List.take_append_drop _ _

theorem mem_of_mem_window {n : Nat} {xs : List α} {a : α} (h : a ∈ window n xs) : a ∈ xs :=
  List.mem_of_mem_drop h

theorem window_of_le {n : Nat} {xs : List α} (h : xs.length ≤ n) : window n xs = xs := by
  rw [window, Nat.sub_eq_zero_of_le h, List.drop_zero]

theorem spilled_of_le {n : Nat} {xs : List α} (h : xs.length ≤ n) : spilled n xs = [] := by
  rw [spilled, Nat.sub_eq_zero_of_le h, List.take_zero]

theorem length_window : (window n xs).length = min n xs.length := by
  rw [window, List.length_drop]
  omega

theorem length_window_of_spilled {n : Nat} {xs : List α} {a : α} (h : a ∈ spilled n xs) :
    (window n xs).length = n := by
  have hpos := List.length_pos_of_mem h
  rw [spilled, List.length_take] at hpos
  rw [length_window]
  omega

-- ---------------------------------------------------------------------------
-- One element more
-- ---------------------------------------------------------------------------

theorem window_push (h : 0 < n) :
    window n (xs ++ [a]) = xs.drop (xs.length + 1 - n) ++ [a] := by
  rw [window, List.length_append, List.length_singleton, List.drop_append_of_le_length (by omega)]

theorem spilled_push (h : 0 < n) : spilled n (xs ++ [a]) = xs.take (xs.length + 1 - n) := by
  rw [spilled, List.length_append, List.length_singleton, List.take_append_of_le_length (by omega)]

theorem mem_window_push (h : 0 < n) : a ∈ window n (xs ++ [a]) := by
  rw [window_push n xs a h]
  exact List.mem_append_right _ List.mem_cons_self

/-- Nothing is lost by keeping a window only. -/
theorem window_window_push (h : 0 < n) : window n (window n xs ++ [a]) = window n (xs ++ [a]) := by
  rw [window_push n _ a h, window_push n xs a h, length_window, window, List.drop_drop]
  congr 2
  omega

theorem spilled_window_push (h : 0 < n) :
    spilled n xs ++ spilled n (window n xs ++ [a]) = spilled n (xs ++ [a]) := by
  rw [spilled_push n _ a h, spilled_push n xs a h, length_window, spilled, window,
    ← List.take_add]
  congr 1
  omega

section
variable [DecidableEq α] {n : Nat} {xs : List α} {a : α}

theorem filter_window_push (h : 0 < n) (hnew : a ∉ xs) :
    (window n (xs ++ [a])).filter (fun b => b ∉ xs) = [a] := by
  rw [window_push n xs a h, List.filter_append]
  have hold : (xs.drop (xs.length + 1 - n)).filter (fun b => b ∉ xs) = [] := by
    rw [List.filter_eq_nil_iff]
    intro b hb
    simpa using List.mem_of_mem_drop hb
  rw [hold, List.nil_append]
  simp [hnew]

theorem filter_spilled_push (h : 0 < n) (hnodup : xs.Nodup) (hnew : a ∉ xs) :
    xs.filter (fun b => b ∉ window n (xs ++ [a])) = spilled n (xs ++ [a]) := by
  rw [window_push n xs a h, spilled_push n xs a h]
  have hsplit := List.take_append_drop (xs.length + 1 - n) xs
  have hdisjoint := (List.nodup_append.mp (hsplit.symm ▸ hnodup)).2.2
  conv_lhs => rw [← hsplit]
  rw [List.filter_append]
  have hgone : (xs.drop (xs.length + 1 - n)).filter
      (fun b => b ∉ xs.drop (xs.length + 1 - n) ++ [a]) = [] := by
    rw [List.filter_eq_nil_iff]
    intro b hb
    simp [hb]
  have hkept : (xs.take (xs.length + 1 - n)).filter
      (fun b => b ∉ xs.drop (xs.length + 1 - n) ++ [a]) = xs.take (xs.length + 1 - n) := by
    rw [List.filter_eq_self]
    intro b hb
    have hne : b ≠ a := fun hba => hnew (hba ▸ List.mem_of_mem_take hb)
    have hnot : b ∉ xs.drop (xs.length + 1 - n) := fun hb' => hdisjoint b hb b hb' rfl
    simp [hne, hnot]
  rw [hsplit, hgone, hkept, List.append_nil]

end

end Lib
