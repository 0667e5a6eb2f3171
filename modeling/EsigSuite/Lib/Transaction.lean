import Mathlib.Logic.Relation

/-!
# Transactions

A transaction changes a state and may raise an error, and what it raises rolls
it back. Its statements are taken apart by the equivalences below, and what
every committed transaction keeps is kept by every sequence of them.
-/

namespace Lib

abbrev Transaction (σ ε α : Type) := StateT σ (Except ε) α

namespace Transaction

variable {σ ε α β : Type} {s s' : σ}

theorem bind_ok {x : Transaction σ ε α} {f : α → Transaction σ ε β} {r : β × σ} :
    (x >>= f) s = .ok r ↔ ∃ a t, x s = .ok (a, t) ∧ f a t = .ok r := by
  change (x s >>= fun p => f p.1 p.2) = .ok r ↔ _
  cases hx : x s with
  | error e =>
    constructor
    · intro h
      cases h
    · rintro ⟨a, t, h, -⟩
      cases h
  | ok p =>
    constructor
    · intro h
      exact ⟨p.1, p.2, rfl, h⟩
    · rintro ⟨a, t, h, hr⟩
      cases h
      exact hr

theorem pure_ok {a : α} {r : α × σ} : (pure a : Transaction σ ε α) s = .ok r ↔ r = (a, s) :=
  ⟨fun h => (Except.ok.inj h).symm, fun h => h ▸ rfl⟩

theorem get_ok {r : σ × σ} : (get : Transaction σ ε σ) s = .ok r ↔ r = (s, s) :=
  ⟨fun h => (Except.ok.inj h).symm, fun h => h ▸ rfl⟩

theorem set_ok {r : PUnit × σ} : (set s' : Transaction σ ε PUnit) s = .ok r ↔ r = (⟨⟩, s') :=
  ⟨fun h => (Except.ok.inj h).symm, fun h => h ▸ rfl⟩

theorem modify_ok {f : σ → σ} {r : PUnit × σ} :
    (modify f : Transaction σ ε PUnit) s = .ok r ↔ r = (⟨⟩, f s) :=
  ⟨fun h => (Except.ok.inj h).symm, fun h => h ▸ rfl⟩

theorem throw_ok {e : ε} {r : α × σ} : (throw e : Transaction σ ε α) s = .ok r ↔ False :=
  ⟨fun h => (nomatch h), False.elim⟩

-- ---------------------------------------------------------------------------
-- Commit and rollback
-- ---------------------------------------------------------------------------

/-- The state after the transaction: as it was, if the transaction raised. -/
def commit (x : Transaction σ ε α) (s : σ) : σ :=
  match x s with
  | .ok (_, s') => s'
  | .error _ => s

theorem commit_cases (x : Transaction σ ε α) (s : σ) :
    commit x s = s ∨ ∃ a, x s = .ok (a, commit x s) := by
  unfold commit
  split
  next a s' h => exact .inr ⟨a, h⟩
  · exact .inl rfl

/-- What each committed transaction keeps, a run of them keeps. -/
theorem run_keeps {step : σ → σ → Prop} {P : σ → Prop} (hstep : ∀ s s', step s s' → P s → P s')
    (hrun : Relation.ReflTransGen step s s') (h : P s) : P s' := by
  induction hrun with
  | refl => exact h
  | tail _ hlast ih => exact hstep _ _ hlast ih

end Transaction

end Lib
