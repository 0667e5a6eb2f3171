import Mathlib.Data.List.Forall2
import Mathlib.Data.List.Nodup

/-!
# Lists linked by hashes

Every entry carries a value of its own and that of the entry before it. Where a
value settles what the entry before it carries, an entry has one place only, so
any other linked list of the same entries is a front part of the list.
-/

namespace Lib

variable {α β η : Type}

/-- Each entry names the value of the one before it, the first one names `before`. -/
def Linked (named own : α → Option η) : Option η → List α → Prop
  | _, [] => True
  | before, x :: xs => named x = before ∧ Linked named own (own x) xs

namespace Linked

variable {named own : α → Option η}

/-- What the next entry would name. -/
def last (own : α → Option η) (before : Option η) (xs : List α) : Option η :=
  (xs.getLast?.map own).getD before

@[simp] theorem last_nil (before : Option η) : last own before [] = before := rfl

@[simp] theorem last_cons (before : Option η) (x : α) (xs : List α) :
    last own before (x :: xs) = last own (own x) xs := by
  cases xs <;> simp [last, List.getLast?_cons]

@[simp] theorem last_append (before : Option η) (xs ys : List α) :
    last own before (xs ++ ys) = last own (last own before xs) ys := by
  induction xs generalizing before with
  | nil => rfl
  | cons x xs ih => rw [List.cons_append, last_cons, last_cons, ih]

theorem append {before : Option η} {xs ys : List α} :
    Linked named own before (xs ++ ys) ↔
      Linked named own before xs ∧ Linked named own (last own before xs) ys := by
  induction xs generalizing before with
  | nil => simp [Linked]
  | cons x xs ih => simp only [List.cons_append, Linked, ih, last_cons, and_assoc]

theorem map {f : β → α} {before : Option η} {xs : List β} : Linked named own before (xs.map f) ↔
    Linked (fun x => named (f x)) (fun x => own (f x)) before xs := by
  induction xs generalizing before with
  | nil => rfl
  | cons x xs ih => simp only [List.map_cons, Linked, ih]

theorem congr {named' own' : α → Option η} {before : Option η} {xs : List α}
    (h : Linked named own before xs) (hsame : ∀ x ∈ xs, named' x = named x ∧ own' x = own x) :
    Linked named' own' before xs := by
  induction xs generalizing before with
  | nil => trivial
  | cons x xs ih =>
    obtain ⟨hnamed, hown⟩ := hsame x List.mem_cons_self
    refine ⟨hnamed.trans h.1, ?_⟩
    rw [hown]
    exact ih h.2 fun y hy => hsame y (List.mem_cons_of_mem _ hy)

theorem front {before : Option η} {xs ys : List α} (h : Linked named own before ys)
    (hfront : xs <+: ys) : Linked named own before xs := by
  obtain ⟨rest, rfl⟩ := hfront
  exact (append.mp h).1

/-- What an entry names: the start, or what its neighbour carries. -/
theorem named_at {before : Option η} {xs : List α} (h : Linked named own before xs) {k : Nat} {x : α}
    (hx : xs[k]? = some x) : (k = 0 ∧ named x = before) ∨
      ∃ l y, k = l + 1 ∧ xs[l]? = some y ∧ named x = own y := by
  induction xs generalizing before k with
  | nil => cases hx
  | cons y ys ih =>
    cases k with
    | zero =>
      cases hx
      exact .inl ⟨rfl, h.1⟩
    | succ l =>
      refine .inr ⟨l, ?_⟩
      rcases ih h.2 hx with ⟨rfl, hown⟩ | ⟨j, z, rfl, hz, hown⟩
      · exact ⟨y, rfl, rfl, hown⟩
      · exact ⟨z, rfl, hz, hown⟩

/-- A value settles what its entry names, and no entry carries the start. -/
structure Settled (named own : α → Option η) (before : Option η) (xs : List α) : Prop where
  start : ∀ x ∈ xs, own x ≠ before
  back : ∀ x ∈ xs, ∀ y ∈ xs, own x = own y → named x = named y

/-- Entries that name the same value are at the same place. -/
theorem place {before : Option η} {xs : List α} (h : Linked named own before xs)
    (hsettled : Settled named own before xs) {i j : Nat} {x y : α} (hx : xs[i]? = some x)
    (hy : xs[j]? = some y) (hnamed : named x = named y) : i = j := by
  induction i using Nat.strongRecOn generalizing j x y with
  | ind i ih =>
    rcases h.named_at hx with ⟨rfl, hbefore⟩ | ⟨k, v, rfl, hv, hown⟩
    · rcases h.named_at hy with ⟨rfl, -⟩ | ⟨l, w, rfl, hw, hown'⟩
      · rfl
      · exact absurd (hown'.symm.trans (hnamed.symm.trans hbefore))
          (hsettled.start w (List.mem_of_getElem? hw))
    · rcases h.named_at hy with ⟨rfl, hbefore'⟩ | ⟨l, w, rfl, hw, hown'⟩
      · exact absurd (hown.symm.trans (hnamed.trans hbefore'))
          (hsettled.start v (List.mem_of_getElem? hv))
      · have hvw : own v = own w := hown.symm.trans (hnamed.trans hown')
        have hback := hsettled.back v (List.mem_of_getElem? hv) w (List.mem_of_getElem? hw) hvw
        rw [ih k (Nat.lt_succ_self k) hv hw hback]

/-- In a linked list whose entries stand for entries of another one, they stand
for those at the same places. -/
theorem placed {named' own' : β → Option η} {before : Option η} {xs : List α} {ys : List β}
    {Same : β → α → Prop} (h : Linked named own before xs)
    (hsettled : Settled named own before xs) (h' : Linked named' own' before ys)
    (hsame : ∀ y x, Same y x → named' y = named x ∧ own' y = own x)
    (hmatch : ∀ y ∈ ys, ∃ x ∈ xs, Same y x) {i : Nat} {y : β} (hy : ys[i]? = some y) :
    ∃ x, xs[i]? = some x ∧ Same y x := by
  induction i generalizing y with
  | zero =>
    obtain ⟨x, hx, hyx⟩ := hmatch y (List.mem_of_getElem? hy)
    obtain ⟨j, hj⟩ := List.mem_iff_getElem?.mp hx
    rcases h'.named_at hy with ⟨-, hbefore⟩ | ⟨l, z, hl, -⟩
    · rcases h.named_at hj with ⟨rfl, -⟩ | ⟨l, w, rfl, hw, hown⟩
      · exact ⟨x, hj, hyx⟩
      · exact absurd (hown.symm.trans ((hsame y x hyx).1.symm.trans hbefore))
          (hsettled.start w (List.mem_of_getElem? hw))
    · cases hl
  | succ k ih =>
    obtain ⟨x, hx, hyx⟩ := hmatch y (List.mem_of_getElem? hy)
    obtain ⟨j, hj⟩ := List.mem_iff_getElem?.mp hx
    rcases h'.named_at hy with ⟨hk, -⟩ | ⟨l, z, hl, hz, hown'⟩
    · cases hk
    · cases hl
      obtain ⟨w, hw, hzw⟩ := ih hz
      have hown : named x = own w := (hsame y x hyx).1.symm.trans (hown'.trans (hsame z w hzw).2)
      rcases h.named_at hj with ⟨rfl, hbefore⟩ | ⟨m, v, rfl, hv, hxv⟩
      · exact absurd (hown.symm.trans hbefore) (hsettled.start w (List.mem_of_getElem? hw))
      · have hback := hsettled.back v (List.mem_of_getElem? hv) w (List.mem_of_getElem? hw)
          (hxv.symm.trans hown)
        obtain rfl := h.place hsettled hv hw hback
        exact ⟨x, hj, hyx⟩

end Linked

end Lib
