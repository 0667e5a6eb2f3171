import EsigSuite.Lib.Json
import EsigSuite.Lib.Replace

/-!
# Patterns over JavaScript strings

The classes and literals of `RegExp` without the `u` flag. Under the `i` flag
only the letters of ASCII are folded into each other.
-/

namespace Lib

def inRange (low high c : UInt16) : Bool := low ≤ c && c ≤ high

def isDigitUnit (c : UInt16) : Bool := inRange 0x30 0x39 c

/-- `A-Z` to `a-z` -/
def foldCase (c : UInt16) : UInt16 := if inRange 0x41 0x5A c then c + 0x20 else c

/-- `[a-z]` under `i` -/
def isLetterUnit (c : UInt16) : Bool := inRange 0x61 0x7A (foldCase c)

/-- `[0-9a-f]` under `i` -/
def isHexUnit (c : UInt16) : Bool := isDigitUnit c || inRange 0x61 0x66 (foldCase c)

/-- `\w` -/
def isWordUnit (c : UInt16) : Bool := isLetterUnit c || isDigitUnit c || c == 0x5F

/-- `\s` -/
def isWhiteUnit (c : UInt16) : Bool :=
  inRange 0x09 0x0D c || inRange 0x2000 0x200A c ||
    [0x20, 0xA0, 0x1680, 0x2028, 0x2029, 0x202F, 0x205F, 0x3000, 0xFEFF].contains c

def unitOf (c : Char) : UInt16 := UInt16.ofNat c.toNat

namespace Regex

def chr (c : Char) : Regex UInt16 := .char fun d => d == unitOf c

/-- `[…]` -/
def within (units : String) : Regex UInt16 := .char fun d => (js units).contains d

/-- `[^…]` -/
def without (units : String) : Regex UInt16 := .char fun d => !(js units).contains d

def lit (s : String) : Regex UInt16 := word ((js s).map fun c d => d == c)

/-- A text in lower case, under `i`. -/
def folded (s : String) : Regex UInt16 := word ((js s).map fun c d => foldCase d == c)

def many (r : Regex UInt16) : Regex UInt16 := .star false r

/-- `[\s\S]` -/
def anyUnit : Regex UInt16 := .char fun _ => true

def white : Regex UInt16 := .char isWhiteUnit

/-- `^` -/
def start : Regex UInt16 := .assert fun before _ => before.isNone

/-- `$` -/
def finish : Regex UInt16 := .assert fun _ after => after.isNone

/-- `\b` -/
def boundary : Regex UInt16 := .assert fun before after =>
  before.any isWordUnit != after.any isWordUnit

/-- `(?<=[…])` -/
def behind (p : UInt16 → Bool) : Regex UInt16 := .assert fun before _ => before.any p

section
variable {b : Option UInt16} {w t : JsString}

@[simp] theorem accepts_chr {c : Char} : Accepts (chr c) b w t ↔ w = [unitOf c] := by
  simp [chr]

@[simp] theorem accepts_lit {s : String} : Accepts (lit s) b w t ↔ w = js s := by
  have h : List.Forall₂ Eq (js s) w ↔ js s = w := by rw [List.forall₂_eq_eq_eq]
  rw [lit, accepts_word, List.forall₂_map_left_iff, eq_comm, ← h]
  exact ⟨fun h => h.imp fun _ _ heq => (beq_iff_eq.mp heq).symm,
    fun h => h.imp fun _ _ heq => beq_iff_eq.mpr heq.symm⟩

@[simp] theorem accepts_folded {s : String} :
    Accepts (folded s) b w t ↔ w.map foldCase = js s := by
  have h := List.forall₂_map_right_iff (R := Eq) (f := foldCase) (l := js s) (u := w)
  rw [List.forall₂_eq_eq_eq] at h
  rw [folded, accepts_word, List.forall₂_map_left_iff, eq_comm, h]
  exact ⟨fun h => h.imp fun _ _ heq => (beq_iff_eq.mp heq).symm,
    fun h => h.imp fun _ _ heq => beq_iff_eq.mpr heq.symm⟩

@[simp] theorem accepts_finish : Accepts finish b w t ↔ w = [] ∧ t = [] := by
  simp [finish]

end

end Regex

end Lib
