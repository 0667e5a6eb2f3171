import EsigSuite.Lib.Async

/-!
# What a program was answered

A program returns a value for the answers that its calls got, whoever gave them.
`Told` keeps of a transcript only which answers were among it, so that what a
part of the program learned is known of the whole.
-/

namespace Lib

/-- Calls with their answers, in order. -/
abbrev Transcript (Op : Type) (Res : Op → Type) := List (Σ op, Res op)

namespace Prog

variable {Op : Type} {Res : Op → Type} {α β : Type}

/-- The program ends in `a` after the transcript. -/
def Answered (x : Prog Op Res α) (said : Transcript Op Res) (a : α) : Prop :=
  x.Eval (fun op s r s' => s' = s ++ [⟨op, r⟩]) [] a said

theorem eval_iff_answered {x : Prog Op Res α} {s t : Transcript Op Res} {a : α} :
    x.Eval (fun op s r s' => s' = s ++ [⟨op, r⟩]) s a t ↔ ∃ said, t = s ++ said ∧ x.Answered said a := by
  induction x generalizing s t with
  | pure b =>
    constructor
    · rintro ⟨rfl, rfl⟩
      exact ⟨[], (List.append_nil _).symm, rfl, rfl⟩
    · rintro ⟨said, rfl, rfl, rfl⟩
      exact ⟨rfl, (List.append_nil _).symm⟩
  | call op k ih =>
    constructor
    · rintro ⟨r, _, rfl, h⟩
      obtain ⟨said, rfl, hsaid⟩ := (ih r).mp h
      exact ⟨⟨op, r⟩ :: said, by simp, r, [⟨op, r⟩], rfl, (ih r).mpr ⟨said, rfl, hsaid⟩⟩
    · rintro ⟨_, rfl, r, _, rfl, h⟩
      obtain ⟨said, rfl, hsaid⟩ := (ih r).mp h
      exact ⟨r, s ++ [⟨op, r⟩], rfl, (ih r).mpr ⟨said, by simp, hsaid⟩⟩

theorem answered_call {op : Op} {k : Res op → Prog Op Res α} {said : Transcript Op Res} {a : α} :
    (Prog.call op k).Answered said a ↔ ∃ r rest, said = ⟨op, r⟩ :: rest ∧ (k r).Answered rest a := by
  constructor
  · rintro ⟨r, _, rfl, h⟩
    obtain ⟨rest, rfl, hrest⟩ := eval_iff_answered.mp h
    exact ⟨r, rest, rfl, hrest⟩
  · rintro ⟨r, rest, rfl, h⟩
    exact ⟨r, [⟨op, r⟩], rfl, eval_iff_answered.mpr ⟨rest, rfl, h⟩⟩

/-- The parts of a program share its transcript. -/
theorem answered_bind {x : Prog Op Res α} {f : α → Prog Op Res β} {said : Transcript Op Res} {b : β} :
    (x.bind f).Answered said b ↔
      ∃ first rest a, said = first ++ rest ∧ x.Answered first a ∧ (f a).Answered rest b := by
  induction x generalizing said with
  | pure a =>
    constructor
    · exact fun h => ⟨[], said, a, rfl, ⟨rfl, rfl⟩, h⟩
    · rintro ⟨_, rest, _, rfl, ⟨rfl, rfl⟩, h⟩
      exact h
  | call op k ih =>
    constructor
    · intro h
      obtain ⟨r, said, rfl, hrest⟩ := answered_call.mp h
      obtain ⟨first, rest, a, rfl, ha, hb⟩ := (ih r).mp hrest
      exact ⟨⟨op, r⟩ :: first, rest, a, rfl, answered_call.mpr ⟨r, first, rfl, ha⟩, hb⟩
    · rintro ⟨_, rest, a, rfl, hcall, hb⟩
      obtain ⟨r, first, rfl, ha⟩ := answered_call.mp hcall
      exact answered_call.mpr ⟨r, first ++ rest, rfl, (ih r).mpr ⟨first, rest, a, rfl, ha, hb⟩⟩

end Prog

-- ---------------------------------------------------------------------------
-- Programs that may throw
-- ---------------------------------------------------------------------------

section
variable {Op : Type} {Res : Op → Type} {α β ε : Type} {said : Transcript Op Res}

/-- The program returns `a` after the transcript. -/
def Tells (said : Transcript Op Res) (x : ExceptT ε (Prog Op Res) α) (a : α) : Prop :=
  x.run.Answered said (.ok a)

theorem bind_tells {x : ExceptT ε (Prog Op Res) α} {f : α → ExceptT ε (Prog Op Res) β} {b : β} :
    Tells said (x >>= f) b ↔
      ∃ first rest a, said = first ++ rest ∧ Tells first x a ∧ Tells rest (f a) b := by
  refine Iff.trans (Prog.answered_bind (f := ExceptT.bindCont f)) ⟨?_, ?_⟩
  · rintro ⟨first, rest, r, rfl, hr, h⟩
    cases r with
    | ok a => exact ⟨first, rest, a, rfl, hr, h⟩
    | error e => cases h.1
  · rintro ⟨first, rest, a, rfl, ha, hb⟩
    exact ⟨first, rest, .ok a, rfl, ha, hb⟩

theorem pure_tells {a b : α} :
    Tells said (pure a : ExceptT ε (Prog Op Res) α) b ↔ said = [] ∧ a = b :=
  ⟨fun h => ⟨h.2.symm, Except.ok.inj h.1⟩, fun h => ⟨congrArg Except.ok h.2, h.1.symm⟩⟩

theorem throw_tells {e : ε} {a : α} :
    Tells said (throwThe ε e : ExceptT ε (Prog Op Res) α) a ↔ False :=
  ⟨fun h => (nomatch h.1), False.elim⟩

end

end Lib
