import Mathlib.Data.List.Basic

/-!
# Calls on an object one after the other

A method takes the state and an argument to a reply and the next state. `replies`
pairs every argument with its reply, `later` is the state the calls leave.
-/

namespace Lib

variable {σ ι ο : Type} (method : σ → ι → ο × σ)

def later (s : σ) (calls : List ι) : σ := calls.foldl (fun s c => (method s c).2) s

def replies : σ → List ι → List (ι × ο)
  | _, [] => []
  | s, c :: rest => (c, (method s c).1) :: replies (method s c).2 rest

variable {method}

theorem later_append (s : σ) (calls calls' : List ι) :
    later method s (calls ++ calls') = later method (later method s calls) calls' :=
  List.foldl_append

theorem replies_append (s : σ) (calls calls' : List ι) :
    replies method s (calls ++ calls') =
      replies method s calls ++ replies method (later method s calls) calls' := by
  induction calls generalizing s with
  | nil => rfl
  | cons c rest ih =>
    rw [List.cons_append, replies, replies, ih]
    rfl

theorem map_fst_replies (s : σ) (calls : List ι) : (replies method s calls).map Prod.fst = calls := by
  induction calls generalizing s with
  | nil => rfl
  | cons c rest ih => rw [replies, List.map_cons, ih]

/-- Every reply is that of the method in the state the calls before it left. -/
theorem replies_split {s : σ} {calls : List ι} {before after : List (ι × ο)} {c : ι} {o : ο}
    (h : replies method s calls = before ++ (c, o) :: after) :
    ∃ early rest, calls = early ++ c :: rest ∧ before = replies method s early ∧
      o = (method (later method s early) c).1 := by
  induction calls generalizing s before with
  | nil =>
    cases before <;> cases h
  | cons first calls ih =>
    cases before with
    | nil =>
      obtain ⟨hpair, -⟩ := List.cons.inj h
      obtain ⟨rfl, rfl⟩ := Prod.ext_iff.mp hpair
      exact ⟨[], calls, rfl, rfl, rfl⟩
    | cons b before =>
      obtain ⟨rfl, hrest⟩ := List.cons.inj h
      obtain ⟨early, rest, rfl, rfl, ho⟩ := ih hrest
      exact ⟨first :: early, rest, rfl, rfl, ho⟩

end Lib
