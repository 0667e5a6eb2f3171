import Mathlib.Data.List.Forall2
import Mathlib.Logic.Relation
import Mathlib.Logic.Function.Basic

/-!
# Concurrent programs of atomic calls

A program is a tree of calls to a shared state, each answered atomically.
`Step` interleaves the calls of any number of programs. `Holds` is a
rely-guarantee triple: the calls of the program keep the invariant and move the
state by `guar` only, while the other programs move it by `rely` between them.
-/

namespace Lib

inductive Prog (Op : Type) (Res : Op → Type) (α : Type)
  | pure (a : α)
  | call (op : Op) (k : Res op → Prog Op Res α)

namespace Prog

variable {Op : Type} {Res : Op → Type} {α β γ ε : Type}

def bind : Prog Op Res α → (α → Prog Op Res β) → Prog Op Res β
  | .pure a, f => f a
  | .call op k, f => .call op fun r => (k r).bind f

instance : Monad (Prog Op Res) where
  pure := .pure
  bind := bind

/-- The program that makes one call. -/
def perform (op : Op) : Prog Op Res (Res op) := .call op .pure

theorem bind_pure (x : Prog Op Res α) : x.bind .pure = x := by
  induction x with
  | pure a => rfl
  | call op k ih => simp only [bind, ih]

theorem bind_assoc (x : Prog Op Res α) (f : α → Prog Op Res β) (g : β → Prog Op Res γ) :
    (x.bind f).bind g = x.bind fun a => (f a).bind g := by
  induction x with
  | pure a => rfl
  | call op k ih => simp only [bind, ih]

instance : LawfulMonad (Prog Op Res) := LawfulMonad.mk' _ bind_pure (fun _ _ => rfl) bind_assoc

end Prog

/-- What the programs share: how calls are answered, which states can occur,
how the others may move them and how a program may. -/
structure Protocol (Op : Type) (Res : Op → Type) (σ : Type) where
  exec : (op : Op) → σ → Res op → σ → Prop
  inv : σ → Prop
  rely : σ → σ → Prop
  guar : σ → σ → Prop

namespace Protocol

variable {Op : Type} {Res : Op → Type} {σ α β ε : Type} (p : Protocol Op Res σ)

/-- The others keep `P`. -/
def Stable (P : σ → Prop) : Prop :=
  ∀ s s', p.inv s → p.inv s' → p.rely s s' → P s → P s'

/-- Nobody breaks `P`, the program included. -/
def Kept (P : σ → Prop) : Prop :=
  p.Stable P ∧ ∀ s s', p.inv s → p.inv s' → p.guar s s' → P s → P s'

def Holds : Prog Op Res α → (σ → Prop) → (α → σ → Prop) → Prop
  | .pure a, P, Q => ∀ s, p.inv s → P s → Q a s
  | .call op k, P, Q => ∃ M : Res op → σ → Prop,
      (∀ s r s', p.inv s → P s → p.exec op s r s' → p.inv s' ∧ p.guar s s' ∧ M r s') ∧
        ∀ r, p.Stable (M r) ∧ Holds (k r) (M r) Q

variable {p}

-- ---------------------------------------------------------------------------
-- Rules
-- ---------------------------------------------------------------------------

theorem Stable.and (hP : p.Stable P) (hQ : p.Stable Q) : p.Stable fun s => P s ∧ Q s :=
  fun s s' hs hs' hr h => ⟨hP s s' hs hs' hr h.1, hQ s s' hs hs' hr h.2⟩

theorem Kept.and (hP : p.Kept P) (hQ : p.Kept Q) : p.Kept fun s => P s ∧ Q s :=
  ⟨hP.1.and hQ.1, fun s s' hs hs' hg h => ⟨hP.2 s s' hs hs' hg h.1, hQ.2 s s' hs hs' hg h.2⟩⟩

theorem Kept.imp (h : q → p.Kept P) : p.Kept fun s => q → P s :=
  ⟨fun s s' hs hs' hr hP hq => (h hq).1 s s' hs hs' hr (hP hq),
    fun s s' hs hs' hg hP hq => (h hq).2 s s' hs hs' hg (hP hq)⟩

theorem kept_const (q : Prop) : p.Kept fun _ => q := ⟨fun _ _ _ _ _ h => h, fun _ _ _ _ _ h => h⟩

theorem stable_const (q : Prop) : p.Stable fun _ => q := fun _ _ _ _ _ h => h

theorem Holds.mono {x : Prog Op Res α} (h : p.Holds x P Q)
    (hP : ∀ s, p.inv s → P' s → P s) (hQ : ∀ a s, p.inv s → Q a s → Q' a s) :
    p.Holds x P' Q' := by
  induction x generalizing P P' with
  | pure a => exact fun s hs hP' => hQ a s hs (h s hs (hP s hs hP'))
  | call op k ih =>
    obtain ⟨M, hstep, hk⟩ := h
    refine ⟨M, fun s r s' hs hP' hexec => hstep s r s' hs (hP s hs hP') hexec, fun r => ?_⟩
    obtain ⟨hstable, hrest⟩ := hk r
    exact ⟨hstable, ih r hrest fun _ _ h => h⟩

theorem Holds.pre {x : Prog Op Res α} (h : p.Holds x P Q) (hP : ∀ s, p.inv s → P' s → P s) :
    p.Holds x P' Q :=
  h.mono hP fun _ _ _ h => h

theorem Holds.post {x : Prog Op Res α} (h : p.Holds x P Q)
    (hQ : ∀ a s, p.inv s → Q a s → Q' a s) : p.Holds x P Q' :=
  h.mono (fun _ _ h => h) hQ

theorem Holds.bind {x : Prog Op Res α} {f : α → Prog Op Res β} (hx : p.Holds x P M)
    (hf : ∀ a, p.Holds (f a) (M a) Q) : p.Holds (x.bind f) P Q := by
  induction x generalizing P with
  | pure a => exact (hf a).pre hx
  | call op k ih =>
    obtain ⟨M', hstep, hk⟩ := hx
    refine ⟨M', hstep, fun r => ?_⟩
    obtain ⟨hstable, hrest⟩ := hk r
    exact ⟨hstable, ih r hrest⟩

/-- A fact the others keep, and which the calls of `x` do not break, is still
there afterwards. -/
theorem Holds.frame {x : Prog Op Res α} (hx : p.Holds x P Q) (hF : p.Kept F) :
    p.Holds x (fun s => P s ∧ F s) (fun a s => Q a s ∧ F s) := by
  induction x generalizing P with
  | pure a => exact fun s hs h => ⟨hx s hs h.1, h.2⟩
  | call op k ih =>
    obtain ⟨M, hstep, hk⟩ := hx
    refine ⟨fun r s => M r s ∧ F s, fun s r s' hs h hexec => ?_, fun r => ?_⟩
    · obtain ⟨hinv, hg, hM⟩ := hstep s r s' hs h.1 hexec
      exact ⟨hinv, hg, hM, hF.2 s s' hs hinv hg h.2⟩
    · obtain ⟨hstable, hrest⟩ := hk r
      exact ⟨hstable.and hF.1, ih r hrest⟩

/-- The calls do more than they are trusted with. -/
theorem Holds.weaken {G : σ → σ → Prop} {x : Prog Op Res α}
    (h : { p with guar := G }.Holds x P Q) (hG : ∀ s s', G s s' → p.guar s s') : p.Holds x P Q := by
  induction x generalizing P with
  | pure a => exact h
  | call op k ih =>
    obtain ⟨M, hstep, hk⟩ := h
    refine ⟨M, fun s r s' hs hP hexec => ?_, fun r => ⟨(hk r).1, ih r (hk r).2⟩⟩
    obtain ⟨hinv, hguar, hM⟩ := hstep s r s' hs hP hexec
    exact ⟨hinv, hG s s' hguar, hM⟩

theorem Holds.of_false (x : Prog Op Res α) : p.Holds x (fun _ => False) Q := by
  induction x with
  | pure a => exact fun _ _ h => h.elim
  | call op k ih =>
    exact ⟨fun _ _ => False, fun _ _ _ _ h => h.elim, fun r => ⟨stable_const _, ih r⟩⟩

/-- A part of the precondition that is not about the state. -/
theorem Holds.given {x : Prog Op Res α} (h : q → p.Holds x P Q) :
    p.Holds x (fun s => q ∧ P s) Q := by
  by_cases hq : q
  · exact (h hq).pre fun _ _ h => h.2
  · exact (Holds.of_false x).pre fun _ _ h => hq h.1

/-- One call. -/
theorem Holds.perform {op : Op} {Q : Res op → σ → Prop}
    (hstep : ∀ s r s', p.inv s → P s → p.exec op s r s' → p.inv s' ∧ p.guar s s' ∧ Q r s')
    (hQ : ∀ r, p.Stable (Q r)) : p.Holds (.perform op) P Q :=
  ⟨Q, hstep, fun r => ⟨hQ r, fun _ _ h => h⟩⟩

theorem Holds.pure {a : α} (h : ∀ s, p.inv s → P s → Q a s) : p.Holds (.pure a) P Q := h

-- ---------------------------------------------------------------------------
-- Programs that may throw
-- ---------------------------------------------------------------------------

/-- A triple for a program that may throw, with one postcondition for each way
out. -/
def Triple (p : Protocol Op Res σ) (x : ExceptT ε (Prog Op Res) α) (P : σ → Prop)
    (Q : α → σ → Prop) (E : ε → σ → Prop) : Prop :=
  p.Holds x.run P fun
    | .ok a => Q a
    | .error e => E e

section
variable {x : ExceptT ε (Prog Op Res) α} {f : α → ExceptT ε (Prog Op Res) β}

theorem Triple.bind (hx : p.Triple x P M E) (hf : ∀ a, p.Triple (f a) (M a) Q E) :
    p.Triple (x >>= f) P Q E := by
  refine Holds.bind (f := ExceptT.bindCont f) hx fun r => ?_
  cases r with
  | ok a => exact hf a
  | error e => exact fun s _ h => h

theorem Triple.pure {a : α} (h : ∀ s, p.inv s → P s → Q a s) :
    p.Triple (Pure.pure a : ExceptT ε (Prog Op Res) α) P Q E := h

theorem Triple.throw {e : ε} (h : ∀ s, p.inv s → P s → E e s) :
    p.Triple (throwThe ε e : ExceptT ε (Prog Op Res) α) P Q E := h

theorem Triple.lift {y : Prog Op Res α} (h : p.Holds y P Q) :
    p.Triple (ExceptT.lift y : ExceptT ε (Prog Op Res) α) P Q E :=
  Holds.bind h fun _ _ _ h => h

theorem Triple.map {g : α → β} (h : p.Triple x P (fun a => Q (g a)) E) :
    p.Triple (g <$> x) P Q E := by
  refine Holds.bind h fun r => ?_
  cases r with
  | ok a => exact fun s _ h => h
  | error e => exact fun s _ h => h

/-- What is thrown is renamed. -/
theorem Triple.adapt {ε' : Type} {g : ε → ε'} {E : ε' → σ → Prop} (h : p.Triple x P Q fun e => E (g e)) :
    p.Triple (x.adapt g) P Q E := by
  refine Holds.bind h fun r => ?_
  cases r with
  | ok a => exact fun s _ h => h
  | error e => exact fun s _ h => h

theorem Triple.tryCatch {handler : ε → ExceptT ε (Prog Op Res) α} (hx : p.Triple x P Q M)
    (hhandler : ∀ e, p.Triple (handler e) (M e) Q E) :
    p.Triple (tryCatchThe ε x handler) P Q E := by
  refine Holds.bind hx fun r => ?_
  cases r with
  | ok a => exact fun s _ h => h
  | error e => exact hhandler e

/-- What is thrown becomes a value. -/
theorem Triple.attempt {y : ExceptT ε (Prog Op Res) (Option ε)} {M E : σ → Prop}
    (hy : p.Triple y P (fun o s => o = none ∧ M s) (fun _ => E)) :
    p.Triple (tryCatchThe ε y fun e => Pure.pure (some e)) P
      (fun o s => (o = none ∧ M s) ∨ ((∃ e, o = some e) ∧ E s)) (fun _ => E) :=
  .tryCatch (Holds.post hy fun
    | .ok _, _, _, h => .inl h
    | .error _, _, _, h => h) fun e => .pure fun _ _ h => .inr ⟨⟨e, rfl⟩, h⟩

theorem Triple.mono (h : p.Triple x P Q E) (hP : ∀ s, p.inv s → P' s → P s)
    (hQ : ∀ a s, p.inv s → Q a s → Q' a s) (hE : ∀ e s, p.inv s → E e s → E' e s) :
    p.Triple x P' Q' E' :=
  Holds.mono h hP fun
    | .ok a => hQ a
    | .error e => hE e

theorem Triple.given (h : q → p.Triple x P Q E) : p.Triple x (fun s => q ∧ P s) Q E :=
  Holds.given h

/-- A consequence of the precondition that is not about the state. -/
theorem Triple.know {q : Prop} (hq : ∀ s, p.inv s → P s → q) (h : q → p.Triple x P Q E) :
    p.Triple x P Q E :=
  (Triple.given h).mono (fun s hs hP => ⟨hq s hs hP, hP⟩) (fun _ _ _ h => h) fun _ _ _ h => h

/-- The elements are worked on one after the other. -/
theorem Triple.mapM {g : α → ExceptT ε (Prog Op Res) β} {R : α → β → Prop} {xs : List α}
    (hg : ∀ a ∈ xs, p.Triple (g a) P (fun b s => P s ∧ R a b) E) :
    p.Triple (xs.mapM g) P (fun bs s => P s ∧ List.Forall₂ R xs bs) E := by
  induction xs with
  | nil => exact .pure fun s _ h => ⟨h, .nil⟩
  | cons a rest ih =>
    rw [List.mapM_cons]
    refine (hg a List.mem_cons_self).bind fun b => ?_
    refine Triple.mono (.given fun hab : R a b => ?_) (fun _ _ h => And.symm h)
      (fun _ _ _ h => h) (fun _ _ _ h => h)
    refine (ih fun a' ha' => hg a' (List.mem_cons_of_mem _ ha')).bind fun bs => ?_
    exact .pure fun s _ h => ⟨h.1, .cons hab h.2⟩

theorem Triple.frame (h : p.Triple x P Q E) (hF : p.Kept F) :
    p.Triple x (fun s => P s ∧ F s) (fun a s => Q a s ∧ F s) (fun e s => E e s ∧ F s) :=
  (Holds.frame h hF).post fun
    | .ok _, _, _, h => h
    | .error _, _, _, h => h

end

-- ---------------------------------------------------------------------------
-- Programs that leave the state alone
-- ---------------------------------------------------------------------------

/-- Whatever the others keep survives the program, and its result is in `R`. -/
def Quiet (p : Protocol Op Res σ) (x : ExceptT ε (Prog Op Res) α) (R : α → Prop) : Prop :=
  ∀ P, p.Stable P → p.Triple x P (fun a s => R a ∧ P s) (fun _ => P)

section
variable {x : ExceptT ε (Prog Op Res) α} {f : α → ExceptT ε (Prog Op Res) β} {R : α → Prop}
  {R' : β → Prop}

theorem Quiet.pure {a : α} (h : R a) :
    p.Quiet (Pure.pure a : ExceptT ε (Prog Op Res) α) R :=
  fun _ _ => Triple.pure fun _ _ hs => ⟨h, hs⟩

theorem Quiet.throw (e : ε) : p.Quiet (throwThe ε e : ExceptT ε (Prog Op Res) α) R :=
  fun _ _ => Triple.throw fun _ _ hs => hs

theorem Quiet.bind (hx : p.Quiet x R) (hf : ∀ a, R a → p.Quiet (f a) R') :
    p.Quiet (x >>= f) R' :=
  fun P hP => (hx P hP).bind fun a => .given fun ha => hf a ha P hP

theorem Quiet.mono {R' : α → Prop} (hx : p.Quiet x R) (h : ∀ a, R a → R' a) : p.Quiet x R' :=
  fun P hP => (hx P hP).mono (fun _ _ hs => hs) (fun a _ _ hs => ⟨h a hs.1, hs.2⟩)
    fun _ _ _ hs => hs

theorem Quiet.mapM {g : α → ExceptT ε (Prog Op Res) β} {R : α → β → Prop} {xs : List α}
    (hg : ∀ a ∈ xs, p.Quiet (g a) (R a)) : p.Quiet (xs.mapM g) (List.Forall₂ R xs) :=
  fun P hP => (Triple.mapM (P := P) fun a ha => (hg a ha P hP).mono (fun _ _ h => h)
    (fun _ _ _ h => And.symm h) fun _ _ _ h => h).mono (fun _ _ h => h)
    (fun _ _ _ h => And.symm h) fun _ _ _ h => h

theorem Quiet.forM {g : α → ExceptT ε (Prog Op Res) Unit} {R : α → Prop} {xs : List α}
    (hg : ∀ a ∈ xs, p.Quiet (g a) fun _ => R a) : p.Quiet (xs.forM g) fun _ => ∀ a ∈ xs, R a := by
  induction xs with
  | nil => exact .pure nofun
  | cons a rest ih =>
    refine (hg a List.mem_cons_self).bind fun _ ha => ?_
    refine (ih fun b hb => hg b (List.mem_cons_of_mem _ hb)).mono fun _ hrest => ?_
    exact List.forall_mem_cons.mpr ⟨ha, hrest⟩

/-- One call that answers without effect. -/
theorem Holds.idle {op : Op} (hop : ∀ s r s', p.exec op s r s' → s' = s ∧ p.guar s s)
    (hP : p.Stable P) : p.Holds (.perform op) P fun _ => P := by
  refine Holds.perform (fun s r s' hs h hexec => ?_) fun _ => hP
  obtain ⟨rfl, hguar⟩ := hop s r s' hexec
  exact ⟨hs, hguar, h⟩

theorem Quiet.lift {y : Prog Op Res α} (h : ∀ P, p.Stable P → p.Holds y P fun _ => P) :
    p.Quiet (ExceptT.lift y : ExceptT ε (Prog Op Res) α) fun _ => True :=
  fun P hP => .lift ((h P hP).post fun _ _ _ hs => ⟨trivial, hs⟩)

theorem Quiet.mk {y : Prog Op Res (Except ε α)} (h : ∀ P, p.Stable P → p.Holds y P fun _ => P) :
    p.Quiet (ExceptT.mk y) fun _ => True :=
  fun P hP => (h P hP).post fun
    | .ok _, _, _, hs => ⟨trivial, hs⟩
    | .error _, _, _, hs => hs

end

end Protocol

-- ---------------------------------------------------------------------------
-- The calls a program may make
-- ---------------------------------------------------------------------------

section
variable {Op : Type} {Res : Op → Type} {σ α β ε : Type} {C : Op → Prop}

/-- Whatever is answered, the program only makes calls in `C`. -/
def Prog.Calls (C : Op → Prop) : Prog Op Res α → Prop
  | .pure _ => True
  | .call op k => C op ∧ ∀ r, (k r).Calls C

theorem Prog.Calls.bind {x : Prog Op Res α} {f : α → Prog Op Res β} (hx : x.Calls C)
    (hf : ∀ a, (f a).Calls C) : (x.bind f).Calls C := by
  induction x with
  | pure a => exact hf a
  | call op k ih => exact ⟨hx.1, fun r => ih r (hx.2 r)⟩

theorem Prog.Calls.perform {op : Op} (h : C op) : (Prog.perform op : Prog Op Res _).Calls C :=
  ⟨h, fun _ => trivial⟩

theorem Prog.Calls.mono {C' : Op → Prop} {x : Prog Op Res α} (hx : x.Calls C)
    (h : ∀ op, C op → C' op) : x.Calls C' := by
  induction x with
  | pure a => trivial
  | call op k ih => exact ⟨h op hx.1, fun r => ih r (hx.2 r)⟩

/-- A program of calls that keep `P` keeps it. -/
theorem Protocol.Holds.of_calls {p : Protocol Op Res σ} {P : σ → Prop} {x : Prog Op Res α}
    (hx : x.Calls C) (hP : p.Stable P)
    (hC : ∀ op, C op → ∀ s r s', p.inv s → P s → p.exec op s r s' → p.inv s' ∧ p.guar s s' ∧ P s') :
    p.Holds x P fun _ => P := by
  induction x with
  | pure a => exact fun _ _ h => h
  | call op k ih => exact ⟨fun _ => P, hC op hx.1, fun r => ⟨hP, ih r (hx.2 r)⟩⟩

namespace Calls

/-- `Prog.Calls` of a program that may throw. -/
def All (C : Op → Prop) (x : ExceptT ε (Prog Op Res) α) : Prop := x.run.Calls C

variable {x : ExceptT ε (Prog Op Res) α} {f : α → ExceptT ε (Prog Op Res) β}

theorem All.bind (hx : All C x) (hf : ∀ a, All C (f a)) : All C (x >>= f) := by
  refine Prog.Calls.bind (f := ExceptT.bindCont f) hx fun r => ?_
  cases r with
  | ok a => exact hf a
  | error e => trivial

theorem All.pure (a : α) : All C (Pure.pure a : ExceptT ε (Prog Op Res) α) := trivial

theorem All.throw (e : ε) : All C (throwThe ε e : ExceptT ε (Prog Op Res) α) := trivial

theorem All.map {g : α → β} (hx : All C x) : All C (g <$> x) := by
  refine Prog.Calls.bind hx fun r => ?_
  cases r <;> trivial

theorem All.adapt {ε' : Type} {g : ε → ε'} (hx : All C x) : All C (x.adapt g) := by
  refine Prog.Calls.bind hx fun r => ?_
  cases r <;> trivial

theorem All.lift {y : Prog Op Res α} (hy : y.Calls C) :
    All C (ExceptT.lift y : ExceptT ε (Prog Op Res) α) :=
  Prog.Calls.bind hy fun _ => trivial

theorem All.tryCatch {handle : ε → ExceptT ε (Prog Op Res) α} (hx : All C x)
    (hhandle : ∀ e, All C (handle e)) : All C (tryCatchThe ε x handle) := by
  refine Prog.Calls.bind hx fun r => ?_
  cases r with
  | ok a => trivial
  | error e => exact hhandle e

theorem All.forM {g : α → ExceptT ε (Prog Op Res) Unit} {xs : List α}
    (hg : ∀ a ∈ xs, All C (g a)) : All C (xs.forM g) := by
  induction xs with
  | nil => trivial
  | cons a rest ih =>
    exact All.bind (hg a List.mem_cons_self) fun _ => ih fun b hb => hg b (List.mem_cons_of_mem _ hb)

end Calls

theorem Protocol.Triple.of_calls {p : Protocol Op Res σ} {P : σ → Prop}
    {x : ExceptT ε (Prog Op Res) α} (hx : Calls.All C x) (hP : p.Stable P)
    (hC : ∀ op, C op → ∀ s r s', p.inv s → P s → p.exec op s r s' → p.inv s' ∧ p.guar s s' ∧ P s') :
    p.Triple x P (fun _ => P) (fun _ => P) :=
  (Protocol.Holds.of_calls hx hP hC).post fun
    | .ok _, _, _, h => h
    | .error _, _, _, h => h

end

-- ---------------------------------------------------------------------------
-- One program alone
-- ---------------------------------------------------------------------------

/-- The program runs from `s` to its end in `s'` with nobody in between. -/
def Prog.Eval {Op : Type} {Res : Op → Type} {σ α : Type}
    (exec : (op : Op) → σ → Res op → σ → Prop) : Prog Op Res α → σ → α → σ → Prop
  | .pure a, s, b, s' => a = b ∧ s = s'
  | .call op k, s, b, s' => ∃ r t, exec op s r t ∧ (k r).Eval exec t b s'

theorem Prog.Eval.perform {Op : Type} {Res : Op → Type} {σ : Type}
    {exec : (op : Op) → σ → Res op → σ → Prop} {op : Op} {s s' : σ} {r : Res op}
    (h : exec op s r s') : (Prog.perform op).Eval exec s r s' :=
  ⟨r, s', h, rfl, rfl⟩

theorem Prog.Eval.bind {Op : Type} {Res : Op → Type} {σ α β : Type}
    {exec : (op : Op) → σ → Res op → σ → Prop} {x : Prog Op Res α} {f : α → Prog Op Res β}
    {s t s' : σ} {a : α} {b : β} (hx : x.Eval exec s a t) (hf : (f a).Eval exec t b s') :
    (x.bind f).Eval exec s b s' := by
  induction x generalizing s with
  | pure c =>
    obtain ⟨rfl, rfl⟩ := hx
    exact hf
  | call op k ih =>
    obtain ⟨r, u, hexec, hrest⟩ := hx
    exact ⟨r, u, hexec, ih r hrest⟩

theorem Protocol.Holds.eval {Op : Type} {Res : Op → Type} {σ α : Type} {p : Protocol Op Res σ}
    {x : Prog Op Res α} {P : σ → Prop} {Q : α → σ → Prop} {s s' : σ} {a : α}
    (h : p.Holds x P Q) (hinv : p.inv s)
    (hP : P s) (heval : x.Eval p.exec s a s') :
    p.inv s' ∧ Relation.ReflTransGen p.guar s s' ∧ Q a s' := by
  induction x generalizing P s with
  | pure b =>
    obtain ⟨rfl, rfl⟩ := heval
    exact ⟨hinv, .refl, h s hinv hP⟩
  | call op k ih =>
    obtain ⟨r, t, hexec, hrest⟩ := heval
    obtain ⟨M, hstep, hk⟩ := h
    obtain ⟨hinv', hguar, hM⟩ := hstep s r t hinv hP hexec
    obtain ⟨hinv'', hguar', hQ⟩ := ih r (hk r).2 hinv' hM hrest
    exact ⟨hinv'', .head hguar hguar', hQ⟩

/-- The steps that meet a condition. -/
def Guarded {Op : Type} {Res : Op → Type} {σ : Type} (exec : (op : Op) → σ → Res op → σ → Prop)
    (C : Op → σ → Prop) : (op : Op) → σ → Res op → σ → Prop :=
  fun op s r s' => exec op s r s' ∧ C op s

-- ---------------------------------------------------------------------------
-- One program among others
-- ---------------------------------------------------------------------------

/-- A call that was made. -/
structure Made (Op : Type) (Res : Op → Type) (σ : Type) where
  op : Op
  answer : Res op
  before : σ
  after : σ

/-- The program runs to its end, `others` moving in front of each of its calls. -/
def Prog.Amid {Op : Type} {Res : Op → Type} {σ α : Type}
    (exec : (op : Op) → σ → Res op → σ → Prop) (others : σ → σ → Prop) :
    Prog Op Res α → σ → List (Made Op Res σ) → α → σ → Prop
  | .pure a, s, made, b, s' => made = [] ∧ a = b ∧ s = s'
  | .call op k, s, made, b, s' => ∃ r t t' rest, others s t ∧ exec op t r t' ∧
      made = ⟨op, r, t, t'⟩ :: rest ∧ (k r).Amid exec others t' rest b s'

theorem Prog.Amid.call {Op : Type} {Res : Op → Type} {σ α : Type}
    {exec : (op : Op) → σ → Res op → σ → Prop} {others : σ → σ → Prop} {op : Op}
    {k : Res op → Prog Op Res α} {s t t' s' : σ} {r : Res op} {rest : List (Made Op Res σ)} {a : α}
    (hothers : others s t) (hexec : exec op t r t') (h : (k r).Amid exec others t' rest a s') :
    (Prog.call op k).Amid exec others s (⟨op, r, t, t'⟩ :: rest) a s' :=
  ⟨r, t, t', rest, hothers, hexec, rfl, h⟩

theorem Prog.Amid.exec {Op : Type} {Res : Op → Type} {σ α : Type}
    {exec : (op : Op) → σ → Res op → σ → Prop} {others : σ → σ → Prop} {x : Prog Op Res α}
    {s s' : σ} {made : List (Made Op Res σ)} {a : α} (h : x.Amid exec others s made a s')
    {m : Made Op Res σ} (hm : m ∈ made) : exec m.op m.before m.answer m.after := by
  induction x generalizing s made with
  | pure b =>
    obtain ⟨rfl, -, -⟩ := h
    cases hm
  | call op k ih =>
    obtain ⟨r, t, t', rest, -, hexec, rfl, hrest⟩ := h
    rcases List.mem_cons.mp hm with rfl | hm
    · exact hexec
    · exact ih r hrest hm

theorem Prog.Amid.of_bind {Op : Type} {Res : Op → Type} {σ α β : Type}
    {exec : (op : Op) → σ → Res op → σ → Prop} {others : σ → σ → Prop} {x : Prog Op Res α}
    {f : α → Prog Op Res β} {s s' : σ} {made : List (Made Op Res σ)} {b : β}
    (h : (x.bind f).Amid exec others s made b s') :
    ∃ first a t last, x.Amid exec others s first a t ∧ (f a).Amid exec others t last b s' ∧
      made = first ++ last := by
  induction x generalizing s made with
  | pure a => exact ⟨[], a, s, made, ⟨rfl, rfl, rfl⟩, h, rfl⟩
  | call op k ih =>
    obtain ⟨r, t, t', rest, hothers, hexec, rfl, hrest⟩ := h
    obtain ⟨first, a, u, last, hx, hf, rfl⟩ := ih r hrest
    exact ⟨_, a, u, last, ⟨r, t, t', first, hothers, hexec, rfl, hx⟩, hf, rfl⟩

theorem Prog.Amid.bind {Op : Type} {Res : Op → Type} {σ α β : Type}
    {exec : (op : Op) → σ → Res op → σ → Prop} {others : σ → σ → Prop} {x : Prog Op Res α}
    {f : α → Prog Op Res β} {s t s' : σ} {first last : List (Made Op Res σ)} {a : α} {b : β}
    (hx : x.Amid exec others s first a t) (hf : (f a).Amid exec others t last b s') :
    (x.bind f).Amid exec others s (first ++ last) b s' := by
  induction x generalizing s first with
  | pure c =>
    obtain ⟨rfl, rfl, rfl⟩ := hx
    exact hf
  | call op k ih =>
    obtain ⟨r, u, u', rest, hothers, hexec, rfl, hrest⟩ := hx
    exact ⟨r, u, u', _, hothers, hexec, rfl, ih r hrest⟩

-- ---------------------------------------------------------------------------
-- Interleavings
-- ---------------------------------------------------------------------------

section
variable {Op : Type} {Res : Op → Type} {σ ι α : Type} [DecidableEq ι]

/-- Any thread makes its next call. -/
def Step (exec : (op : Op) → σ → Res op → σ → Prop)
    (c c' : σ × (ι → Prog Op Res α)) : Prop :=
  ∃ i op k r s', c.2 i = .call op k ∧ exec op c.1 r s' ∧ c' = (s', Function.update c.2 i (k r))

def Run (exec : (op : Op) → σ → Res op → σ → Prop) :
    σ × (ι → Prog Op Res α) → σ × (ι → Prog Op Res α) → Prop :=
  Relation.ReflTransGen (Step exec)

/-- Every thread stands at a point of its triple whose assertion is true now.
Each has its own view `p i` of what the others do. -/
def Protocol.Ready (inv : σ → Prop) (p : ι → Protocol Op Res σ) (Q : ι → α → σ → Prop)
    (c : σ × (ι → Prog Op Res α)) : Prop :=
  inv c.1 ∧ ∀ i, ∃ P, (p i).Stable P ∧ P c.1 ∧ (p i).Holds (c.2 i) P (Q i)

/-- The threads share `exec` and the invariant, and what one of them does is
what the others allow for. -/
structure Protocol.Compatible (exec : (op : Op) → σ → Res op → σ → Prop) (inv : σ → Prop)
    (p : ι → Protocol Op Res σ) : Prop where
  exec_eq : ∀ i, (p i).exec = exec
  inv_eq : ∀ i, (p i).inv = inv
  guar_rely : ∀ i j s s', i ≠ j → inv s → inv s' → (p i).guar s s' → (p j).rely s s'

variable {exec : (op : Op) → σ → Res op → σ → Prop} {inv : σ → Prop}
  {p : ι → Protocol Op Res σ} {Q : ι → α → σ → Prop} {c c' : σ × (ι → Prog Op Res α)}

theorem Protocol.Ready.step (h : Protocol.Ready inv p Q c) (hp : Protocol.Compatible exec inv p)
    (hstep : Step exec c c') : Protocol.Ready inv p Q c' := by
  obtain ⟨hinv, hthreads⟩ := h
  obtain ⟨i, op, k, r, s', hi, hexec, rfl⟩ := hstep
  obtain ⟨P, hstable, hP, hholds⟩ := hthreads i
  rw [hi] at hholds
  obtain ⟨M, hM, hk⟩ := hholds
  rw [← hp.exec_eq i] at hexec
  obtain ⟨hinv', hguar, hMr⟩ := hM _ r s' (hp.inv_eq i ▸ hinv) hP hexec
  rw [hp.inv_eq] at hinv'
  refine ⟨hinv', fun j => ?_⟩
  by_cases hj : j = i
  · subst hj
    obtain ⟨hstable', hrest⟩ := hk r
    exact ⟨M r, hstable', hMr, by simpa using hrest⟩
  · obtain ⟨P', hstable', hP', hholds'⟩ := hthreads j
    have hrely := hp.guar_rely i j _ _ (Ne.symm hj) hinv hinv' hguar
    have hstay := hstable' _ _ (hp.inv_eq j ▸ hinv) (hp.inv_eq j ▸ hinv') hrely hP'
    refine ⟨P', hstable', hstay, ?_⟩
    change (p j).Holds (Function.update c.2 i (k r) j) P' (Q j)
    rwa [Function.update_of_ne hj]

omit [DecidableEq ι] in
/-- A move of the state that every thread allows for. -/
theorem Protocol.Ready.moved {s' : σ} (h : Protocol.Ready inv p Q c)
    (hp : Protocol.Compatible exec inv p) (hinv : inv s') (hrely : ∀ i, (p i).rely c.1 s') :
    Protocol.Ready inv p Q (s', c.2) := by
  refine ⟨hinv, fun i => ?_⟩
  obtain ⟨P, hstable, hP, hholds⟩ := h.2 i
  have hinvs : (p i).inv c.1 ∧ (p i).inv s' := by
    rw [hp.inv_eq i]
    exact ⟨h.1, hinv⟩
  exact ⟨P, hstable, hstable _ _ hinvs.1 hinvs.2 (hrely i) hP, hholds⟩

/-- Threads that meet their triples keep the invariant in every interleaving,
and end in their postconditions. -/
theorem Protocol.Ready.run (h : Protocol.Ready inv p Q c) (hp : Protocol.Compatible exec inv p)
    (hrun : Run exec c c') : Protocol.Ready inv p Q c' := by
  induction hrun with
  | refl => exact h
  | tail _ hstep ih => exact ih.step hp hstep

omit [DecidableEq ι] in
theorem Protocol.Ready.finished (h : Protocol.Ready inv p Q c)
    (hp : Protocol.Compatible exec inv p) (hi : c.2 i = .pure a) : Q i a c.1 := by
  obtain ⟨P, -, hP, hholds⟩ := h.2 i
  rw [hi] at hholds
  exact hholds _ (hp.inv_eq i ▸ h.1) hP

omit [DecidableEq ι] in
/-- What the next call of a thread does is what its protocol lets it do. -/
theorem Protocol.Ready.guar {op : Op} {k : Res op → Prog Op Res α} {r : Res op} {s' : σ}
    (h : Protocol.Ready inv p Q c) (hp : Protocol.Compatible exec inv p)
    (hi : c.2 i = .call op k) (hexec : exec op c.1 r s') : (p i).guar c.1 s' := by
  obtain ⟨P, -, hP, hholds⟩ := h.2 i
  rw [hi] at hholds
  obtain ⟨M, hM, -⟩ := hholds
  rw [← hp.exec_eq i] at hexec
  exact (hM _ r s' (hp.inv_eq i ▸ h.1) hP hexec).2.1

/-- The next call of a thread. -/
theorem Run.call {op : Op} {k : Res op → Prog Op Res α} {r : Res op} {s s' : σ}
    {threads : ι → Prog Op Res α} (hi : threads i = .call op k) (hexec : exec op s r s')
    (hrest : Run exec (s', Function.update threads i (k r)) c) : Run exec (s, threads) c :=
  .head ⟨i, op, k, r, s', hi, hexec, rfl⟩ hrest

theorem Run.unguarded {C : Op → σ → Prop} (h : Run (Guarded exec C) c c') : Run exec c c' := by
  refine Relation.ReflTransGen.mono ?_ _ _ h
  rintro _ _ ⟨i, op, k, r, s', hi, hexec, rfl⟩
  exact ⟨i, op, k, r, s', hi, hexec.1, rfl⟩

/-- A thread that is scheduled until its first part `x` is done. -/
theorem Run.solo {x : Prog Op Res β} {k : β → Prog Op Res α} {s s' : σ}
    {threads : ι → Prog Op Res α} (hi : threads i = x.bind k) (heval : x.Eval exec s b s') :
    Run exec (s, threads) (s', Function.update threads i (k b)) := by
  induction x generalizing s threads with
  | pure a =>
    obtain ⟨rfl, rfl⟩ := heval
    rw [← show threads i = k a from hi, Function.update_eq_self]
    exact .refl
  | call op kx ih =>
    obtain ⟨r, t, hexec, hrest⟩ := heval
    have hstep : Step exec (s, threads) (t, Function.update threads i ((kx r).bind k)) :=
      ⟨i, op, fun r => (kx r).bind k, r, t, hi, hexec, rfl⟩
    refine .head hstep ?_
    have hthread : Function.update threads i ((kx r).bind k) i = (kx r).bind k := by simp
    have := ih r hthread hrest
    rwa [Function.update_idem] at this

-- ---------------------------------------------------------------------------
-- Schedules
-- ---------------------------------------------------------------------------

/-- The thread `i` makes its next call, which `answer` answers. -/
def Schedule.step {φ : Type} (answer : φ → (op : Op) → σ → Res op × σ)
    (c : σ × (ι → Prog Op Res α)) (turn : ι × φ) : σ × (ι → Prog Op Res α) :=
  match c.2 turn.1 with
  | .pure _ => c
  | .call op k =>
    ((answer turn.2 op c.1).2, Function.update c.2 turn.1 (k (answer turn.2 op c.1).1))

/-- The configuration after some turns. -/
def Schedule.run {φ : Type} (answer : φ → (op : Op) → σ → Res op × σ)
    (turns : List (ι × φ)) (c : σ × (ι → Prog Op Res α)) : σ × (ι → Prog Op Res α) :=
  turns.foldl (Schedule.step answer) c

theorem Schedule.run_sound {φ : Type} {answer : φ → (op : Op) → σ → Res op × σ}
    (h : ∀ f op s, exec op s (answer f op s).1 (answer f op s).2) (turns : List (ι × φ))
    (c : σ × (ι → Prog Op Res α)) : Run exec c (Schedule.run answer turns c) := by
  induction turns generalizing c with
  | nil => exact .refl
  | cons turn rest ih =>
    refine Relation.ReflTransGen.trans ?_ (ih _)
    unfold Schedule.step
    split
    · exact .refl
    · rename_i op k hi
      exact .single ⟨turn.1, op, k, _, _, hi, h _ _ _, rfl⟩

/-- The calls of all the turns meet a condition. -/
def Schedule.meets {φ : Type} (answer : φ → (op : Op) → σ → Res op × σ) (C : Op → σ → Prop)
    [∀ op s, Decidable (C op s)] : List (ι × φ) → σ × (ι → Prog Op Res α) → Bool
  | [], _ => true
  | turn :: rest, c =>
    (match c.2 turn.1 with
      | .pure _ => true
      | .call op _ => decide (C op c.1)) &&
    Schedule.meets answer C rest (Schedule.step answer c turn)

theorem Schedule.run_guarded {φ : Type} {answer : φ → (op : Op) → σ → Res op × σ} {C : Op → σ → Prop}
    [∀ op s, Decidable (C op s)]
    (h : ∀ f op s, exec op s (answer f op s).1 (answer f op s).2) {turns : List (ι × φ)}
    {c : σ × (ι → Prog Op Res α)} (hmeets : Schedule.meets answer C turns c = true) :
    Run (Guarded exec C) c (Schedule.run answer turns c) := by
  induction turns generalizing c with
  | nil => exact .refl
  | cons turn rest ih =>
    obtain ⟨hturn, hrest⟩ := Bool.and_eq_true_iff.mp hmeets
    refine Relation.ReflTransGen.trans ?_ (ih hrest)
    unfold Schedule.step
    split
    · exact .refl
    · rename_i op k hi
      rw [hi] at hturn
      exact .single ⟨turn.1, op, k, _, _, hi, ⟨h _ _ _, of_decide_eq_true hturn⟩, rfl⟩

/-- The program is over. -/
def Prog.returned : Prog Op Res α → Bool
  | .pure _ => true
  | .call .. => false

omit [DecidableEq ι] in
theorem Prog.exists_of_returned {x : Prog Op Res α} (h : x.returned = true) : ∃ a, x = .pure a := by
  cases x with
  | pure a => exact ⟨a, rfl⟩
  | call op k => cases h

/-- The turns meet a check, each in its state. -/
def Schedule.checked {φ : Type} (answer : φ → (op : Op) → σ → Res op × σ)
    (check : φ → Op → σ → Bool) : List (ι × φ) → σ × (ι → Prog Op Res α) → Bool
  | [], _ => true
  | turn :: rest, c =>
    (match c.2 turn.1 with
      | .pure _ => true
      | .call op _ => check turn.2 op c.1) &&
    Schedule.checked answer check rest (Schedule.step answer c turn)

theorem Schedule.run_checked {φ : Type} {answer : φ → (op : Op) → σ → Res op × σ}
    {check : φ → Op → σ → Bool} {steps : (op : Op) → σ → Res op → σ → Prop}
    (h : ∀ f op s, check f op s = true → steps op s (answer f op s).1 (answer f op s).2)
    {turns : List (ι × φ)} {c : σ × (ι → Prog Op Res α)}
    (hchecked : Schedule.checked answer check turns c = true) :
    Run steps c (Schedule.run answer turns c) := by
  induction turns generalizing c with
  | nil => exact .refl
  | cons turn rest ih =>
    obtain ⟨hturn, hrest⟩ := Bool.and_eq_true_iff.mp hchecked
    refine Relation.ReflTransGen.trans ?_ (ih hrest)
    unfold Schedule.step
    split
    · exact .refl
    · rename_i op k hi
      rw [hi] at hturn
      exact .single ⟨turn.1, op, k, _, _, hi, h _ _ _ hturn, rfl⟩

end

end Lib
