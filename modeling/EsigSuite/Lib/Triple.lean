import Mathlib.Init

/-!
# Triples

What an action on a state may end with: a post-condition for what it returns and
one for what it throws, each of the state that is left.
-/

namespace Lib

section
variable {σ ε α β : Type} {Q : α → σ → Prop} {F : ε → σ → Prop} {state : σ}

def Triple (x : ExceptT ε (StateM σ) α) (state : σ) (Q : α → σ → Prop) (F : ε → σ → Prop) : Prop :=
  match x state with
  | (.ok a, after) => Q a after
  | (.error e, after) => F e after

namespace Triple

theorem returned {x : ExceptT ε (StateM σ) α} (h : Triple x state Q F)
    (hx : x state = (.ok a, after)) : Q a after := by
  simpa [Triple, hx] using h

theorem threw {x : ExceptT ε (StateM σ) α} (h : Triple x state Q F)
    (hx : x state = (.error e, after)) : F e after := by
  simpa [Triple, hx] using h

/-- An action that never throws returns. -/
theorem returns {x : ExceptT ε (StateM σ) α} (h : Triple x state Q fun _ _ => False) :
    ∃ a after, x state = (.ok a, after) ∧ Q a after := by
  rcases hx : x state with ⟨e | a, after⟩
  · exact (h.threw hx).elim
  · exact ⟨_, _, rfl, h.returned hx⟩

theorem pure' (h : Q a state) : Triple (pure a) state Q F := h

theorem throw' (h : F e state) : Triple (throwThe ε e : ExceptT ε (StateM σ) α) state Q F := h

theorem get' {Q : σ → σ → Prop} (h : Q state state) :
    Triple (get : ExceptT ε (StateM σ) σ) state Q F := h

theorem modify' {Q : PUnit → σ → Prop} {f : σ → σ} (h : Q ⟨⟩ (f state)) :
    Triple (modify f : ExceptT ε (StateM σ) PUnit) state Q F := h

theorem bind {x : ExceptT ε (StateM σ) α} {f : α → ExceptT ε (StateM σ) β} {R : β → σ → Prop}
    (hx : Triple x state Q F) (hf : ∀ a after, Q a after → Triple (f a) after R F) :
    Triple (x >>= f) state R F := by
  have h : (x >>= f) state = match x state with
      | (.ok a, after) => f a after
      | (.error e, after) => (.error e, after) := by
    show (ExceptT.bind x f) state = _
    simp only [ExceptT.bind, ExceptT.mk, Bind.bind, StateT.bind]
    rcases x state with ⟨e | a, after⟩ <;> rfl
  rcases hr : x state with ⟨e | a, after⟩
  · simpa [Triple, h, hr] using hx.threw hr
  · simpa [Triple, h, hr] using hf a after (hx.returned hr)

theorem tryCatch' {x : ExceptT ε (StateM σ) α} {handle : ε → ExceptT ε (StateM σ) α}
    {G : ε → σ → Prop} (hx : Triple x state Q G)
    (handled : ∀ e after, G e after → Triple (handle e) after Q F) :
    Triple (tryCatchThe ε x handle) state Q F := by
  have h : (tryCatchThe ε x handle) state = match x state with
      | (.ok a, after) => (.ok a, after)
      | (.error e, after) => handle e after := by
    show (ExceptT.tryCatch x handle) state = _
    simp only [ExceptT.tryCatch, ExceptT.mk, Bind.bind, StateT.bind]
    rcases x state with ⟨e | a, after⟩ <;> rfl
  rcases hr : x state with ⟨e | a, after⟩
  · simpa [Triple, h, hr] using handled e after (hx.threw hr)
  · simpa [Triple, h, hr] using hx.returned hr

theorem weaken {x : ExceptT ε (StateM σ) α} {Q' : α → σ → Prop} {F' : ε → σ → Prop}
    (h : Triple x state Q F) (hq : ∀ a after, Q a after → Q' a after)
    (hf : ∀ e after, F e after → F' e after) : Triple x state Q' F' := by
  rcases hx : x state with ⟨e | a, after⟩
  · simpa [Triple, hx] using hf e after (h.threw hx)
  · simpa [Triple, hx] using hq a after (h.returned hx)

end Triple

end

end Lib
