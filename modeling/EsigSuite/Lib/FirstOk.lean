import Mathlib.Data.List.Forall2

/-!
# Trying one after the other

`firstOk` gives the first success of a list of attempts, or all the errors.
-/

namespace Lib

variable {ι ε α : Type} {attempt : ι → Except ε α} {xs : List ι}

theorem bind_eq_ok {β : Type} {x : Except ε α} {f : α → Except ε β} {b : β} :
    x >>= f = .ok b ↔ ∃ a, x = .ok a ∧ f a = .ok b := by
  cases x with
  | error e => simp [bind, Except.bind]
  | ok a => simp [bind, Except.bind]

theorem mapError_eq_ok {ε' : Type} {x : Except ε α} {f : ε → ε'} {a : α} :
    x.mapError f = .ok a ↔ x = .ok a := by
  cases x with
  | error e => simp [Except.mapError]
  | ok b => simp [Except.mapError]

theorem toOption_eq_some {x : Except ε α} {a : α} : x.toOption = some a ↔ x = .ok a := by
  cases x with
  | error e => simp [Except.toOption]
  | ok b => simp [Except.toOption]

/-- Every element succeeds, in order. -/
theorem mapM_eq_ok {ys : List α} :
    xs.mapM attempt = .ok ys ↔ List.Forall₂ (fun x y => attempt x = .ok y) xs ys := by
  induction xs generalizing ys with
  | nil => exact ⟨fun h => Except.ok.inj h ▸ .nil, fun h => by cases h; rfl⟩
  | cons x xs ih =>
    rw [List.mapM_cons]
    constructor
    · intro h
      obtain ⟨y, hy, h⟩ := bind_eq_ok.mp h
      obtain ⟨rest, hrest, h⟩ := bind_eq_ok.mp h
      obtain rfl : y :: rest = ys := Except.ok.inj h
      exact .cons hy (ih.mp hrest)
    · rintro (_ | ⟨hy, hrest⟩)
      rw [hy, ih.mpr hrest]
      rfl

theorem mapM_ok (h : ∀ x ∈ xs, ∃ y, attempt x = .ok y) : ∃ ys, xs.mapM attempt = .ok ys := by
  induction xs with
  | nil => exact ⟨[], rfl⟩
  | cons x xs ih =>
    obtain ⟨⟨y, hy⟩, hrest⟩ := List.forall_mem_cons.mp h
    obtain ⟨ys, hys⟩ := ih hrest
    exact ⟨y :: ys, mapM_eq_ok.mpr (.cons hy (mapM_eq_ok.mp hys))⟩

theorem mapM_mem {ys : List α} (h : xs.mapM attempt = .ok ys) :
    y ∈ ys ↔ ∃ x ∈ xs, attempt x = .ok y := by
  have hall := mapM_eq_ok.mp h
  clear h
  induction hall with
  | nil => simp
  | cons hx _ ih => simp [hx, ih, eq_comm]

def firstOk (attempt : ι → Except ε α) : List ι → Except (List (ι × ε)) (ι × α)
  | [] => .error []
  | x :: rest =>
    match attempt x with
    | .ok a => .ok (x, a)
    | .error e => (firstOk attempt rest).mapError ((x, e) :: ·)

theorem firstOk_cons_ok {x : ι} {a : α} (h : attempt x = .ok a) (rest : List ι) :
    firstOk attempt (x :: rest) = .ok (x, a) := by
  rw [firstOk, h]

theorem firstOk_cons_error {x : ι} {e : ε} (h : attempt x = .error e) (rest : List ι) :
    firstOk attempt (x :: rest) = (firstOk attempt rest).mapError ((x, e) :: ·) := by
  rw [firstOk, h]

/-- The success is that of the first attempt that has one. -/
theorem firstOk_eq_ok {x : ι} {a : α} : firstOk attempt xs = .ok (x, a) ↔
    ∃ before after, xs = before ++ x :: after ∧ attempt x = .ok a ∧
      ∀ y ∈ before, ∃ e, attempt y = .error e := by
  induction xs with
  | nil =>
    refine ⟨nofun, ?_⟩
    rintro ⟨before, after, h, -⟩
    cases before <;> cases h
  | cons y rest ih =>
    cases hy : attempt y with
    | ok b =>
      rw [firstOk_cons_ok hy]
      constructor
      · intro h
        cases h
        exact ⟨[], rest, rfl, hy, nofun⟩
      · rintro ⟨before, after, h, hx, hfailed⟩
        cases before with
        | nil =>
          cases h
          rw [hy] at hx
          cases hx
          rfl
        | cons z before =>
          cases h
          obtain ⟨e, he⟩ := hfailed y List.mem_cons_self
          rw [hy] at he
          cases he
    | error e =>
      rw [firstOk_cons_error hy]
      have hmap : (firstOk attempt rest).mapError ((y, e) :: ·) = .ok (x, a) ↔
          firstOk attempt rest = .ok (x, a) := by
        cases firstOk attempt rest <;> simp [Except.mapError]
      rw [hmap, ih]
      constructor
      · rintro ⟨before, after, rfl, hx, hfailed⟩
        refine ⟨y :: before, after, rfl, hx, fun z hz => ?_⟩
        rcases List.mem_cons.mp hz with rfl | hz
        · exact ⟨e, hy⟩
        · exact hfailed z hz
      · rintro ⟨before, after, h, hx, hfailed⟩
        cases before with
        | nil =>
          cases h
          rw [hy] at hx
          cases hx
        | cons z before =>
          cases h
          exact ⟨before, after, rfl, hx, fun w hw => hfailed w (List.mem_cons_of_mem _ hw)⟩

theorem firstOk_eq_error : (∃ es, firstOk attempt xs = .error es) ↔
    ∀ x ∈ xs, ∃ e, attempt x = .error e := by
  induction xs with
  | nil => exact ⟨fun _ => nofun, fun _ => ⟨[], rfl⟩⟩
  | cons y rest ih =>
    cases hy : attempt y with
    | ok b =>
      rw [firstOk_cons_ok hy]
      refine ⟨nofun, fun h => ?_⟩
      obtain ⟨e, he⟩ := h y List.mem_cons_self
      rw [hy] at he
      cases he
    | error e =>
      rw [firstOk_cons_error hy, List.forall_mem_cons, ← ih]
      constructor
      · rintro ⟨es, hes⟩
        cases hrest : firstOk attempt rest with
        | ok r =>
          rw [hrest] at hes
          cases hes
        | error es => exact ⟨⟨e, hy⟩, es, rfl⟩
      · rintro ⟨-, es, hes⟩
        rw [hes]
        exact ⟨_, rfl⟩

end Lib
