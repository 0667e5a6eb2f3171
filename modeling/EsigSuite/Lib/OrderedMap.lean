import Mathlib.Data.List.Basic

/-!
# Maps in the order of insertion

The `Map` of JavaScript as a list of entries. A key that is set again keeps its
place.
-/

namespace Lib.OrderedMap

variable {κ ν : Type} [DecidableEq κ]

def get (m : List (κ × ν)) (key : κ) : Option ν := (m.find? (·.1 = key)).map (·.2)

def set (m : List (κ × ν)) (key : κ) (value : ν) : List (κ × ν) :=
  if m.any (·.1 = key) then m.map fun entry => if entry.1 = key then (key, value) else entry
  else m ++ [(key, value)]

def delete (m : List (κ × ν)) (key : κ) : List (κ × ν) := m.filter (·.1 ≠ key)

@[simp] theorem get_nil (key : κ) : get ([] : List (κ × ν)) key = none := rfl

@[simp] theorem get_cons (entry : κ × ν) (m : List (κ × ν)) (key : κ) :
    get (entry :: m) key = if entry.1 = key then some entry.2 else get m key := by
  unfold get
  by_cases h : entry.1 = key
  · simp [List.find?_cons, h]
  · simp [List.find?_cons, h]

theorem get_append (m n : List (κ × ν)) (key : κ) :
    get (m ++ n) key = (get m key).or (get n key) := by
  induction m with
  | nil => rfl
  | cons entry m ih =>
    rw [List.cons_append, get_cons, get_cons, ih]
    split <;> rfl

theorem get_eq_none {m : List (κ × ν)} {key : κ} (h : m.any (·.1 = key) = false) :
    get m key = none := by
  have hnone : m.find? (·.1 = key) = none := by
    rw [List.find?_eq_none]
    intro entry hentry hkey
    exact absurd (List.any_eq_true.mpr ⟨entry, hentry, hkey⟩) (by rw [h]; exact Bool.false_ne_true)
  rw [get, hnone]
  rfl

theorem get_map (m : List (κ × ν)) (key other : κ) (value : ν) :
    get (m.map fun entry => if entry.1 = key then (key, value) else entry) other =
      if other = key then (get m other).map fun _ => value else get m other := by
  induction m with
  | nil => simp
  | cons entry m ih =>
    rw [List.map_cons, get_cons, get_cons, ih]
    by_cases hentry : entry.1 = key
    · rw [if_pos hentry]
      by_cases hother : other = key
      · simp [hother, hentry]
      · rw [if_neg (Ne.symm hother), if_neg hother, if_neg hother,
          if_neg fun h => hother (h.symm.trans hentry)]
    · rw [if_neg hentry]
      by_cases hother : other = key
      · subst hother
        simp [hentry]
      · simp [hother]

theorem get_set_self (m : List (κ × ν)) (key : κ) (value : ν) : get (set m key value) key = some value := by
  unfold set
  split
  next h =>
    rw [get_map, if_pos rfl]
    obtain ⟨entry, hentry, hkey⟩ := List.any_eq_true.mp h
    have hsome : (m.find? (·.1 = key)).isSome := List.find?_isSome.mpr ⟨entry, hentry, hkey⟩
    obtain ⟨found, hfound⟩ := Option.isSome_iff_exists.mp hsome
    rw [get, hfound]
    rfl
  next h => rw [get_append, get_eq_none (Bool.eq_false_iff.mpr h), Option.none_or, get_cons, if_pos rfl]

theorem get_set_of_ne (m : List (κ × ν)) {key other : κ} (h : other ≠ key) (value : ν) :
    get (set m key value) other = get m other := by
  unfold set
  split
  · rw [get_map, if_neg h]
  · rw [get_append, get_cons, if_neg (Ne.symm h), get_nil, Option.or_none]

/-- An entry that is kept is still found. -/
theorem get_filter {m : List (κ × ν)} {key : κ} {value : ν} {p : κ × ν → Bool}
    (h : get m key = some value) (hp : p (key, value) = true) : get (m.filter p) key = some value := by
  induction m with
  | nil => cases h
  | cons entry m ih =>
    rw [get_cons] at h
    rw [List.filter_cons]
    by_cases hentry : entry.1 = key
    · rw [if_pos hentry] at h
      have hsame : entry = (key, value) := Prod.ext hentry (Option.some.inj h)
      rw [hsame, if_pos hp, get_cons, if_pos rfl]
    · rw [if_neg hentry] at h
      split
      · rw [get_cons, if_neg hentry]
        exact ih h
      · exact ih h

end Lib.OrderedMap
