import EsigSuite.Lib.Async

/-!
# Watching programs by their calls

A watch follows the calls and answers of one program, whatever the shared state
is. What a program does under its watch is a triple of a protocol that nobody
else moves; `Run.watched` carries an invariant of the shared state and of all
watches over every interleaving.
-/

namespace Lib

-- ---------------------------------------------------------------------------
-- Calls and results
-- ---------------------------------------------------------------------------

/-- Whatever is answered, the program makes calls in `C` and ends in `R`. -/
def Prog.Within {Op : Type} {Res : Op → Type} {α : Type} (C : Op → Prop) (R : α → Prop) :
    Prog Op Res α → Prop
  | .pure a => R a
  | .call op k => C op ∧ ∀ r, (k r).Within C R

/-- `Prog.Within` of a program that may throw anything. -/
def Within {Op : Type} {Res : Op → Type} {α ε : Type} (C : Op → Prop) (R : α → Prop)
    (x : ExceptT ε (Prog Op Res) α) : Prop :=
  x.run.Within C fun
    | .ok a => R a
    | .error _ => True

section
variable {Op : Type} {Res : Op → Type} {α β ε : Type} {C : Op → Prop}

theorem Prog.Within.bind {R : α → Prop} {R' : β → Prop} {x : Prog Op Res α}
    {f : α → Prog Op Res β} (hx : x.Within C R) (hf : ∀ a, R a → (f a).Within C R') :
    (x.bind f).Within C R' := by
  induction x with
  | pure a => exact hf a hx
  | call op k ih => exact ⟨hx.1, fun r => ih r (hx.2 r)⟩

theorem Prog.Within.perform {op : Op} (h : C op) :
    (Prog.perform op : Prog Op Res _).Within C fun _ => True :=
  ⟨h, fun _ => trivial⟩

theorem Prog.Within.mono {R R' : α → Prop} {x : Prog Op Res α} (hx : x.Within C R)
    (h : ∀ a, R a → R' a) : x.Within C R' := by
  induction x with
  | pure a => exact h a hx
  | call op k ih => exact ⟨hx.1, fun r => ih r (hx.2 r)⟩

namespace Within

variable {x : ExceptT ε (Prog Op Res) α} {f : α → ExceptT ε (Prog Op Res) β} {R : α → Prop}
  {R' : β → Prop}

theorem bind (hx : Within C R x) (hf : ∀ a, R a → Within C R' (f a)) : Within C R' (x >>= f) := by
  refine Prog.Within.bind (f := ExceptT.bindCont f) hx fun r hr => ?_
  cases r with
  | ok a => exact hf a hr
  | error e => trivial

theorem pure {a : α} (h : R a) : Within C R (Pure.pure a : ExceptT ε (Prog Op Res) α) := h

theorem throw (e : ε) : Within C R (throwThe ε e : ExceptT ε (Prog Op Res) α) := trivial

theorem lift {y : Prog Op Res α} (hy : y.Within C R) :
    Within C R (ExceptT.lift y : ExceptT ε (Prog Op Res) α) :=
  Prog.Within.bind hy fun _ h => h

theorem mk {y : Prog Op Res (Except ε α)} (hy : y.Within C fun _ => True) :
    Within C (fun _ => True) (ExceptT.mk y) :=
  Prog.Within.mono hy fun
    | .ok _, _ => trivial
    | .error _, _ => trivial

theorem mono {R' : α → Prop} (hx : Within C R x) (h : ∀ a, R a → R' a) : Within C R' x :=
  Prog.Within.mono hx fun
    | .ok a, ha => h a ha
    | .error _, _ => trivial

theorem any (hx : Within C R x) : Within C (fun _ => True) x := hx.mono fun _ _ => trivial

theorem forM {g : α → ExceptT ε (Prog Op Res) Unit} {xs : List α}
    (hg : ∀ a ∈ xs, Within C (fun _ => True) (g a)) : Within C (fun _ => True) (xs.forM g) := by
  induction xs with
  | nil => trivial
  | cons a rest ih =>
    exact bind (hg a List.mem_cons_self) fun _ _ =>
      ih fun b hb => hg b (List.mem_cons_of_mem _ hb)

theorem mapM {g : α → ExceptT ε (Prog Op Res) β} {xs : List α}
    (hg : ∀ a ∈ xs, Within C (fun _ => True) (g a)) : Within C (fun _ => True) (xs.mapM g) := by
  induction xs with
  | nil => exact pure trivial
  | cons a rest ih =>
    rw [List.mapM_cons]
    exact bind (hg a List.mem_cons_self) fun _ _ =>
      bind (ih fun b hb => hg b (List.mem_cons_of_mem _ hb)) fun _ _ => pure trivial

end Within

end

/-- The steps whose answers meet a condition. -/
def Answered {Op : Type} {Res : Op → Type} {σ : Type} (exec : (op : Op) → σ → Res op → σ → Prop)
    (A : (op : Op) → Res op → Prop) : (op : Op) → σ → Res op → σ → Prop :=
  fun op s r s' => exec op s r s' ∧ A op r

-- ---------------------------------------------------------------------------
-- Watches
-- ---------------------------------------------------------------------------

/-- Follows one program. `answers` is what is known of every answer, and `ok`
fails once a forbidden call is made. -/
structure Watch (Op : Type) (Res : Op → Type) (τ : Type) where
  answers : (op : Op) → Res op → Prop
  next : τ → (op : Op) → Res op → τ
  ok : τ → Prop

namespace Watch

variable {Op : Type} {Res : Op → Type} {τ σ α ε ι : Type}

def protocol (w : Watch Op Res τ) : Protocol Op Res τ where
  exec op t r t' := w.answers op r ∧ t' = w.next t op r
  inv := w.ok
  rely := Eq
  guar _ _ := True

variable {w : Watch Op Res τ}

theorem stable (P : τ → Prop) : w.protocol.Stable P := fun _ _ _ _ h hP => h ▸ hP

theorem perform {op : Op} {P : τ → Prop} {Q : Res op → τ → Prop}
    (h : ∀ t r, w.ok t → P t → w.answers op r → w.ok (w.next t op r) ∧ Q r (w.next t op r)) :
    w.protocol.Holds (.perform op) P Q := by
  refine .perform ?_ fun _ => stable _
  rintro t r _ hok hP ⟨hr, rfl⟩
  exact ⟨(h t r hok hP hr).1, trivial, (h t r hok hP hr).2⟩

/-- A program of calls that the watch passes over. -/
theorem within {C : Op → Prop} {x : Prog Op Res α} {P : τ → Prop} {R : α → Prop}
    (hx : x.Within C R)
    (hC : ∀ op, C op → ∀ t r, w.ok t → P t → w.ok (w.next t op r) ∧ P (w.next t op r)) :
    w.protocol.Holds x P fun a t => R a ∧ P t := by
  induction x with
  | pure a => exact fun _ _ h => ⟨hx, h⟩
  | call op k ih =>
    refine ⟨fun _ => P, ?_, fun r => ⟨stable _, ih r (hx.2 r)⟩⟩
    rintro t r _ hok hP ⟨-, rfl⟩
    exact ⟨(hC op hx.1 t r hok hP).1, trivial, (hC op hx.1 t r hok hP).2⟩

/-- What is kept by every call is still there afterwards. -/
theorem frame {x : Prog Op Res α} {P F : τ → Prop} {Q : α → τ → Prop}
    (hx : w.protocol.Holds x P Q) (hF : ∀ t op r, F t → F (w.next t op r)) :
    w.protocol.Holds x (fun t => P t ∧ F t) (fun a t => Q a t ∧ F t) := by
  induction x generalizing P with
  | pure a => exact fun t ht h => ⟨hx t ht h.1, h.2⟩
  | call op k ih =>
    obtain ⟨M, hstep, hk⟩ := hx
    refine ⟨fun r t => M r t ∧ F t, ?_, fun r => ⟨stable _, ih r (hk r).2⟩⟩
    rintro t r _ hok ⟨hP, hFt⟩ ⟨hr, rfl⟩
    obtain ⟨hok', -, hM⟩ := hstep t r _ hok hP ⟨hr, rfl⟩
    exact ⟨hok', trivial, hM, hF t op r hFt⟩

theorem frame_triple {x : ExceptT ε (Prog Op Res) α} {P F : τ → Prop} {Q : α → τ → Prop}
    {E : ε → τ → Prop} (hx : w.protocol.Triple x P Q E) (hF : ∀ t op r, F t → F (w.next t op r)) :
    w.protocol.Triple x (fun t => P t ∧ F t) (fun a t => Q a t ∧ F t)
      (fun e t => E e t ∧ F t) :=
  (frame hx hF).post fun
    | .ok _, _, _, h => h
    | .error _, _, _, h => h

-- ---------------------------------------------------------------------------
-- Interleavings
-- ---------------------------------------------------------------------------

/-- Every program stands at a point of its triple. -/
def Obeyed (w : Watch Op Res τ) (threads : ι → Prog Op Res α) (Q : ι → α → τ → Prop)
    (ts : ι → τ) : Prop :=
  ∀ i, w.ok (ts i) ∧ ∃ P, P (ts i) ∧ w.protocol.Holds (threads i) P (Q i)

variable {exec : (op : Op) → σ → Res op → σ → Prop} {Q : ι → α → τ → Prop}
  {threads threads' : ι → Prog Op Res α} {ts : ι → τ} {s s' : σ}

/-- A program that has returned is in its postcondition. -/
theorem Obeyed.finished {a : α} {i : ι} (h : w.Obeyed threads Q ts) (hi : threads i = .pure a) :
    Q i a (ts i) := by
  obtain ⟨hok, P, hP, hholds⟩ := h i
  rw [hi] at hholds
  exact hholds _ hok hP

/-- The next call of a program is allowed. -/
theorem Obeyed.next_ok {i : ι} {op : Op} {k : Res op → Prog Op Res α} {r : Res op}
    (h : w.Obeyed threads Q ts) (hi : threads i = .call op k) (hr : w.answers op r) :
    w.ok (w.next (ts i) op r) := by
  obtain ⟨hok, P, hP, hholds⟩ := h i
  rw [hi] at hholds
  obtain ⟨M, hstep, -⟩ := hholds
  exact (hstep _ r _ hok hP ⟨hr, rfl⟩).1

theorem Obeyed.step [DecidableEq ι] {i : ι} {op : Op} {k : Res op → Prog Op Res α} {r : Res op}
    (h : w.Obeyed threads Q ts) (hi : threads i = .call op k) (hr : w.answers op r) :
    w.Obeyed (Function.update threads i (k r)) Q (Function.update ts i (w.next (ts i) op r)) := by
  intro j
  by_cases hj : j = i
  · subst hj
    obtain ⟨hok, P, hP, hholds⟩ := h j
    rw [hi] at hholds
    obtain ⟨M, hstep, hk⟩ := hholds
    obtain ⟨hok', -, hM⟩ := hstep _ r _ hok hP ⟨hr, rfl⟩
    rw [Function.update_self, Function.update_self]
    exact ⟨hok', M r, hM, (hk r).2⟩
  · rw [Function.update_of_ne hj, Function.update_of_ne hj]
    exact h j

/-- What is kept by the allowed calls holds after every interleaving of watched
programs. -/
theorem run [DecidableEq ι] {J : σ → (ι → τ) → Prop}
    (hanswers : ∀ op s r s', exec op s r s' → w.answers op r)
    (hstep : ∀ s ts i op r s', J s ts → exec op s r s' → w.ok (w.next (ts i) op r) →
      J s' (Function.update ts i (w.next (ts i) op r)))
    (hJ : J s ts) (hobeyed : w.Obeyed threads Q ts)
    (hrun : Run exec (s, threads) (s', threads')) :
    ∃ ts', J s' ts' ∧ w.Obeyed threads' Q ts' := by
  suffices ∀ c, Run exec (s, threads) c → ∃ ts', J c.1 ts' ∧ w.Obeyed c.2 Q ts' from this _ hrun
  intro c hrun
  induction hrun with
  | refl => exact ⟨ts, hJ, hobeyed⟩
  | tail _ hlast ih =>
    obtain ⟨ts', hJ', hobeyed'⟩ := ih
    obtain ⟨i, op, k, r, u, hi, hexec, rfl⟩ := hlast
    have hr := hanswers op _ r u hexec
    exact ⟨_, hstep _ ts' i op r u hJ' hexec (hobeyed'.next_ok hi hr), hobeyed'.step hi hr⟩

end Watch

end Lib
