import Mathlib.Data.List.Basic

/-!
# Lines

Texts whose lines end in a pair of letters, as mail protocols have them: the
pair normalised, lines that begin with a dot stuffed, and the line of one dot
that ends a text.
-/

namespace Lib

/-- The two letters of a line end and the dot. -/
structure LineEnds (α : Type) where
  cr : α
  lf : α
  dot : α
  cr_ne_lf : cr ≠ lf
  dot_ne_cr : dot ≠ cr
  dot_ne_lf : dot ≠ lf

namespace LineEnds

variable {α : Type} (e : LineEnds α)

/-- A line has no end inside. -/
def Line (l : List α) : Prop := e.cr ∉ l ∧ e.lf ∉ l

def joinLines : List (List α) → List α
  | [] => []
  | [l] => l
  | l :: m :: ls => l ++ e.cr :: e.lf :: joinLines (m :: ls)

variable [DecidableEq α]

def splitLines : List α → List (List α)
  | [] => [[]]
  | [c] => [[c]]
  | c :: d :: rest =>
    if c = e.cr ∧ d = e.lf then [] :: splitLines rest
    else
      match splitLines (d :: rest) with
      | l :: ls => (c :: l) :: ls
      | [] => [[c]]

def crlfToLf : List α → List α
  | [] => []
  | [c] => [c]
  | c :: d :: rest =>
    if c = e.cr ∧ d = e.lf then e.lf :: crlfToLf rest else c :: crlfToLf (d :: rest)

def crToLf (s : List α) : List α := s.map fun c => if c = e.cr then e.lf else c

def lfToCrlf (s : List α) : List α := s.flatMap fun c => if c = e.lf then [e.cr, e.lf] else [c]

def normalize (s : List α) : List α := e.lfToCrlf (e.crToLf (e.crlfToLf s))

def stuff (line : List α) : List α := if line.head? = some e.dot then e.dot :: line else line

def dotStuff (s : List α) : List α := e.joinLines ((e.splitLines s).map e.stuff)

section
variable {e}

end

end LineEnds

end Lib
