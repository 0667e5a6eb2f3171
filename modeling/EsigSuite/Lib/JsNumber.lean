import EsigSuite.Lib.Double
import Mathlib.Order.WithBot

/-!
# Arithmetic on doubles

The order of doubles, and sums, products and comparisons as IEEE 754 has them.
A result that is no number is `none`, and compares with nothing.
-/

namespace Lib

namespace Double

/-- Where a double stands: below, among or above the numbers. -/
def place : Double → WithBot (WithTop ℚ)
  | .infinite true => ⊥
  | .finite value => ((value : WithTop ℚ) : WithBot (WithTop ℚ))
  | .infinite false => ((⊤ : WithTop ℚ) : WithBot (WithTop ℚ))

theorem place_injective : Function.Injective place := by
  intro x y h
  rcases x with x | (_ | _) <;> rcases y with y | (_ | _) <;> simp_all [place]

instance : LinearOrder Double := LinearOrder.lift' place place_injective

@[simp] theorem finite_lt {x y : ℚ} : Double.finite x < .finite y ↔ x < y := by
  change place _ < place _ ↔ _
  simp [place]

@[simp] theorem finite_le {x y : ℚ} : Double.finite x ≤ .finite y ↔ x ≤ y := by
  change place _ ≤ place _ ↔ _
  simp [place]

end Double

/-- `none` is NaN. -/
abbrev JsNumber := Option Double

namespace JsNumber

def negative : Double → Bool
  | .finite x => x < 0
  | .infinite s => s

def add : JsNumber → JsNumber → JsNumber
  | some (.finite x), some (.finite y) => some (.round (x + y))
  | some (.infinite s), some (.infinite t) => if s = t then some (.infinite s) else none
  | some (.infinite s), some (.finite _) | some (.finite _), some (.infinite s) => some (.infinite s)
  | _, _ => none

def neg (x : JsNumber) : JsNumber := x.map Double.neg

def sub (x y : JsNumber) : JsNumber := x.add y.neg

def mul : JsNumber → JsNumber → JsNumber
  | some (.finite x), some (.finite y) => some (.round (x * y))
  | some x, some y =>
    if x = .finite 0 ∨ y = .finite 0 then none else some (.infinite (negative x != negative y))
  | _, _ => none

def lt : JsNumber → JsNumber → Bool
  | some x, some y => x < y
  | _, _ => false

def le : JsNumber → JsNumber → Bool
  | some x, some y => x ≤ y
  | _, _ => false

/-- `String(x)` -/
def text : JsNumber → List Char
  | some x => x.text
  | none => ['N', 'a', 'N']

theorem le_of_lt_false {x y : JsNumber} (h : lt x y = true) : le y x = false := by
  match x, y with
  | some x, some y =>
    change decide (y ≤ x) = false
    exact decide_eq_false (not_le_of_gt (of_decide_eq_true h))

theorem lt_of_le_of_lt {x y : Double} {z : JsNumber} (hxy : x ≤ y) (hyz : lt (some y) z = true) :
    lt (some x) z = true := by
  match z with
  | some z => exact decide_eq_true (hxy.trans_lt (of_decide_eq_true hyz))

end JsNumber

end Lib
