import Mathlib.Data.List.Forall2
import Mathlib.Data.List.Nodup

/-!
# Lists of rows

Looking up rows of a list, by a test or by a key no two rows share, after one
row is replaced or one is added, and in two lists that are related row by row.
-/

namespace Lib

variable {α κ : Type}

/-- Replacing a row by one that passes the same test. -/
theorem find?_set_cases {p : α → Bool} {xs : List α} {i : Nat} {a b : α} (hi : xs[i]? = some a)
    (hp : p b = p a) : (xs.set i b).find? p = xs.find? p ∨
      (xs.find? p = some a ∧ (xs.set i b).find? p = some b) := by
  induction xs generalizing i with
  | nil => cases hi
  | cons x rest ih =>
    cases i with
    | zero =>
      cases hi
      simp only [List.set_cons_zero, List.find?_cons, hp]
      cases p a with
      | true => exact .inr ⟨rfl, rfl⟩
      | false => exact .inl rfl
    | succ i =>
      simp only [List.set_cons_succ, List.find?_cons]
      cases p x with
      | true => exact .inl rfl
      | false => exact ih hi

section
variable {xs : List α}

theorem mem_modify {f : α → α} (h : x ∈ xs.modify i f) :
    x ∈ xs ∨ ∃ a, xs[i]? = some a ∧ x = f a := by
  obtain ⟨j, hj⟩ := List.mem_iff_getElem?.mp h
  rw [List.getElem?_modify] at hj
  obtain ⟨a, ha, hx⟩ := Option.map_eq_some_iff.mp hj
  split at hx
  next hij => exact .inr ⟨a, hij ▸ ha, hx.symm⟩
  next => exact .inl (hx ▸ List.mem_of_getElem? ha)

theorem modified_mem {f : α → α} (h : xs[i]? = some a) : f a ∈ xs.modify i f := by
  apply List.mem_of_getElem? (i := i)
  rw [List.getElem?_modify, h]
  simp

end

section
variable {key : α → κ} {xs : List α}

theorem eq_of_key (hnodup : (xs.map key).Nodup) (ha : a ∈ xs) (hb : b ∈ xs)
    (h : key a = key b) : a = b :=
  List.inj_on_of_nodup_map hnodup ha hb h

theorem map_set_same {i : Nat} {a b : α} (hi : xs[i]? = some a) (hkey : key b = key a) :
    (xs.set i b).map key = xs.map key := by
  rw [List.map_set, hkey]
  apply List.ext_getElem?
  intro j
  rw [List.getElem?_set]
  split
  next heq =>
    subst heq
    obtain ⟨hlt, rfl⟩ := List.getElem?_eq_some_iff.mp hi
    simp [hlt]
  next => rfl

/-- After the row at `i` is replaced its key has that row only. -/
theorem eq_of_mem_set_key {i : Nat} {a b x : α} (hnodup : (xs.map key).Nodup) (hi : xs[i]? = some a)
    (hkey : key b = key a) (hx : x ∈ xs.set i b) (h : key x = key a) : x = b := by
  have hnodup' : ((xs.set i b).map key).Nodup := by rwa [map_set_same hi hkey]
  have hb : b ∈ xs.set i b := List.mem_set (List.getElem?_eq_some_iff.mp hi).1 _
  exact eq_of_key hnodup' hx hb (h.trans hkey.symm)

variable [BEq κ] [LawfulBEq κ]

theorem find?_key (hnodup : (xs.map key).Nodup) (ha : a ∈ xs) :
    xs.find? (fun x => key x == key a) = some a := by
  obtain ⟨b, hb⟩ : ∃ b, xs.find? (fun x => key x == key a) = some b :=
    Option.isSome_iff_exists.mp (List.find?_isSome.mpr ⟨a, ha, beq_self_eq_true _⟩)
  have hkey : key b = key a := beq_iff_eq.mp (List.find?_some (p := fun x => key x == key a) hb)
  rw [hb, eq_of_key hnodup (List.mem_of_find?_eq_some hb) ha hkey]

theorem find?_key_eq_none {k : κ} : xs.find? (fun x => key x == k) = none ↔ k ∉ xs.map key := by
  simp [List.find?_eq_none]

/-- With distinct keys the rows of a key are the one that is found. -/
theorem filter_key (hnodup : (xs.map key).Nodup) (k : κ) :
    xs.filter (fun x => key x == k) = (xs.find? fun x => key x == k).toList := by
  induction xs with
  | nil => rfl
  | cons x rest ih =>
    rw [List.map_cons, List.nodup_cons] at hnodup
    rw [List.filter_cons, List.find?_cons]
    cases hx : key x == k with
    | false => simpa using ih hnodup.2
    | true =>
      rw [beq_iff_eq] at hx
      subst hx
      simp only [if_true, Option.toList_some, List.cons.injEq, true_and]
      rw [ih hnodup.2, find?_key_eq_none.mpr hnodup.1, Option.toList_none]

/-- Looking up a key after the row at `i` is replaced. -/
theorem find?_set_key {i : Nat} {a b : α} (hnodup : (xs.map key).Nodup) (hi : xs[i]? = some a)
    (hkey : key b = key a) (k : κ) :
    (xs.set i b).find? (fun x => key x == k) =
      if key b == k then some b else xs.find? (fun x => key x == k) := by
  split
  next hk =>
    rw [beq_iff_eq] at hk
    subst hk
    have hlt := (List.getElem?_eq_some_iff.mp hi).1
    refine find?_key ?_ (List.mem_set hlt b)
    rwa [map_set_same hi hkey]
  next hk =>
    rcases find?_set_cases (p := fun x => key x == k) hi (by rw [hkey]) with h | ⟨h, -⟩
    · exact h
    · have := List.find?_some (p := fun x => key x == k) h
      rw [hkey] at hk
      exact absurd this hk

end

-- ---------------------------------------------------------------------------
-- Row by row
-- ---------------------------------------------------------------------------

section
variable {β : Type} {R : α → β → Prop} {xs : List α} {ys : List β}

theorem exists_of_mem_forall₂ (h : List.Forall₂ R xs ys) (hy : y ∈ ys) : ∃ x ∈ xs, R x y := by
  induction h with
  | nil => cases hy
  | cons hxy _ ih =>
    rcases List.mem_cons.mp hy with rfl | hy
    · exact ⟨_, List.mem_cons_self, hxy⟩
    · obtain ⟨x, hx, hxy⟩ := ih hy
      exact ⟨x, List.mem_cons_of_mem _ hx, hxy⟩

theorem map_forall₂ {f : α → κ} {g : β → κ} (h : List.Forall₂ R xs ys)
    (hfg : ∀ a b, R a b → g b = f a) : ys.map g = xs.map f := by
  induction h with
  | nil => rfl
  | cons hab _ ih => rw [List.map_cons, List.map_cons, hfg _ _ hab, ih]

/-- What is found in the second list was found in the first. -/
theorem find?_forall₂ {p : α → Bool} {q : β → Bool} (h : List.Forall₂ R xs ys)
    (hpq : ∀ a b, R a b → q b = p a) (hy : ys.find? q = some y) :
    ∃ x, xs.find? p = some x ∧ R x y := by
  induction h with
  | nil => cases hy
  | cons hab _ ih =>
    rw [List.find?_cons, hpq _ _ hab] at hy
    rw [List.find?_cons]
    split at hy
    · cases hy
      exact ⟨_, rfl, hab⟩
    · exact ih hy

end

theorem forall₂_trans {R : α → α → Prop} (hR : ∀ a b c, R a b → R b c → R a c) {xs ys zs : List α}
    (h : List.Forall₂ R xs ys) (h' : List.Forall₂ R ys zs) : List.Forall₂ R xs zs := by
  induction h generalizing zs with
  | nil => exact h'
  | cons hab _ ih =>
    cases h' with
    | cons hbc hrest => exact .cons (hR _ _ _ hab hbc) (ih hrest)

theorem forall₂_set {R : α → α → Prop} {xs : List α} {i : Nat} {a b : α} (hrefl : ∀ x, R x x)
    (hi : xs[i]? = some a) (hab : R a b) : List.Forall₂ R xs (xs.set i b) := by
  induction xs generalizing i with
  | nil => cases hi
  | cons x rest ih =>
    cases i with
    | zero =>
      cases hi
      exact .cons hab (List.forall₂_same.mpr fun y _ => hrefl y)
    | succ i => exact .cons (hrefl x) (ih hi)

end Lib
