import Mathlib.Data.List.Basic

/-!
# The last of a kind

Loops that keep the last element for which a test holds, and the change of that
element in its place.
-/

namespace Lib

variable {α β : Type} {p q : α → Bool} {f : α → α} {x : α} {xs ys : List α}

def lastWhere (p : α → Bool) (xs : List α) : Option α := (xs.filter p).getLast?

def mapLast (p : α → Bool) (f : α → α) : List α → List α
  | [] => []
  | x :: xs =>
    if xs.any p then x :: mapLast p f xs
    else if p x then f x :: xs
    else x :: xs

theorem lastWhere_append : lastWhere p (xs ++ ys) = (lastWhere p ys).or (lastWhere p xs) := by
  rw [lastWhere, List.filter_append, List.getLast?_append, lastWhere, lastWhere]

theorem lastWhere_cons :
    lastWhere p (x :: xs) = (lastWhere p xs).or (if p x then some x else none) := by
  rw [← List.singleton_append, lastWhere_append]
  congr 1
  by_cases h : p x = true <;> simp [lastWhere, h]

theorem lastWhere_eq_none : lastWhere p xs = none ↔ xs.any p = false := by
  rw [lastWhere, List.getLast?_eq_none_iff, List.filter_eq_nil_iff, List.any_eq_false]

theorem lastWhere_sound (h : lastWhere p xs = some x) : p x = true :=
  (List.mem_filter.mp (List.mem_of_getLast? h)).2

/-- A loop that overwrites what it has found. -/
theorem foldl_lastWhere (g : α → β) (init : β) (xs : List α) :
    xs.foldl (fun found x => if p x then g x else found) init =
      ((lastWhere p xs).map g).getD init := by
  induction xs generalizing init with
  | nil => rfl
  | cons x xs ih =>
    rw [List.foldl_cons, ih, lastWhere_cons]
    cases lastWhere p xs with
    | some y => rfl
    | none => by_cases h : p x = true <;> simp [h]

theorem lastWhere_mapLast (hf : ∀ x, p x = true → p (f x) = true) (xs : List α) :
    lastWhere p (mapLast p f xs) = (lastWhere p xs).map f := by
  induction xs with
  | nil => rfl
  | cons x xs ih =>
    rw [mapLast]
    split_ifs with hlater hx
    · rw [lastWhere_cons, ih, lastWhere_cons]
      cases hlast : lastWhere p xs with
      | some y => rfl
      | none =>
        rw [lastWhere_eq_none.mp hlast] at hlater
        cases hlater
    · have hnone := lastWhere_eq_none.mpr (Bool.eq_false_iff.mpr hlater)
      rw [lastWhere_cons, lastWhere_cons, hnone, if_pos hx, if_pos (hf x hx)]
      rfl
    · have hnone := lastWhere_eq_none.mpr (Bool.eq_false_iff.mpr hlater)
      rw [lastWhere_cons, hnone, if_neg hx]
      rfl

theorem lastWhere_map (g : β → α) (xs : List β) :
    lastWhere p (xs.map g) = (lastWhere (p ∘ g) xs).map g := by
  rw [lastWhere, List.filter_map, List.getLast?_map]
  rfl

/-- A loop that overwrites what it has found with what it can read. -/
theorem foldl_lastRead (g : α → Option β) (xs : List α) :
    xs.foldl (fun found x => if p x then (g x).or found else found) none =
      (lastWhere (fun x => p x && (g x).isSome) xs).bind g := by
  have hstep : (fun (found : Option β) x => if p x then (g x).or found else found) =
      fun found x => if (p x && (g x).isSome) = true then g x else found := by
    funext found x
    cases hp : p x <;> cases hg : g x <;> simp
  rw [hstep, foldl_lastWhere]
  cases lastWhere (fun x => p x && (g x).isSome) xs <;> rfl

/-- A narrower test finds the changed element, if it passes. -/
theorem lastWhere_mapLast_narrow (hpq : ∀ x, q x = true → p x = true)
    (hx : lastWhere p xs = some x) (hf : q (f x) = true) :
    lastWhere q (mapLast p f xs) = some (f x) := by
  induction xs with
  | nil => cases hx
  | cons y xs ih =>
    rw [mapLast]
    rw [lastWhere_cons] at hx
    split_ifs with hlater hy
    · cases hlast : lastWhere p xs with
      | none =>
        rw [lastWhere_eq_none.mp hlast] at hlater
        cases hlater
      | some z =>
        rw [hlast, Option.some_or] at hx
        rw [lastWhere_cons, ih (hlast.trans hx)]
        rfl
    · have hnone := lastWhere_eq_none.mpr (Bool.eq_false_iff.mpr hlater)
      rw [hnone, if_pos hy, Option.none_or] at hx
      cases hx
      have hqnone : lastWhere q xs = none := lastWhere_eq_none.mpr <| List.any_eq_false.mpr
        fun z hz hq => by
          rw [Bool.not_eq_true, List.any_eq_false] at hlater
          exact hlater z hz (hpq z hq)
      rw [lastWhere_cons, hqnone, if_pos hf, Option.none_or]
    · have hnone := lastWhere_eq_none.mpr (Bool.eq_false_iff.mpr hlater)
      rw [hnone, if_neg hy] at hx
      cases hx

/-- The change of one kind is not seen by the test for another. -/
theorem lastWhere_mapLast_other (hq : ∀ x, p x = true → q x = false ∧ q (f x) = false)
    (xs : List α) : lastWhere q (mapLast p f xs) = lastWhere q xs := by
  induction xs with
  | nil => rfl
  | cons x xs ih =>
    rw [mapLast]
    split_ifs with hlater hx
    · rw [lastWhere_cons, ih, lastWhere_cons]
    · obtain ⟨hbefore, hafter⟩ := hq x hx
      simp [lastWhere_cons, hbefore, hafter]
    · rfl

end Lib
