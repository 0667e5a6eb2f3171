import Mathlib.Data.Nat.Log
import Mathlib.Tactic.Ring
import Mathlib.Tactic.Linarith

/-!
# Integer-valued binary64 arithmetic

The numbers an integer computation on IEEE 754 doubles can produce: finite
integers, the infinities and NaN. Every finite double from `2 ^ 53` on is an
integer, so sums and differences of integer-valued doubles stay in this type.
Results are rounded to 53 significant bits, ties to even. The two zeros are
one value.

The rules callers use are `add_int` and `sub_int`: an operation whose result is
below `2 ^ 53` in magnitude was exact.
-/

namespace Lib

/-- The nearest integer with at most 53 significant bits, ties to even. -/
def roundNat (n : Nat) : Nat :=
  if n < 2 ^ 53 then n
  else
    let unit := 2 ^ (n.log2 - 52)
    let q := n / unit
    let r := n % unit
    if 2 * r < unit ∨ (2 * r = unit ∧ q % 2 = 0) then q * unit else (q + 1) * unit

inductive Number
  | int (n : Int)
  | inf (negative : Bool)
  | nan
  deriving DecidableEq, Repr

namespace Number

/-- Round an exact integer result; overflow goes to an infinity. -/
def round (n : Int) : Number :=
  if (roundNat n.natAbs).log2 < 1024 then .int (n.sign * roundNat n.natAbs) else .inf (n < 0)

def ofNat (n : Nat) : Number := round n

def add : Number → Number → Number
  | .int m, .int n => round (m + n)
  | .nan, _ | _, .nan => .nan
  | .inf s, .inf t => if s = t then .inf s else .nan
  | .inf s, .int _ | .int _, .inf s => .inf s

def neg : Number → Number
  | .int n => .int (-n)
  | .inf s => .inf (!s)
  | .nan => .nan

def sub (x y : Number) : Number := x.add y.neg

instance : Add Number := ⟨add⟩
instance : Sub Number := ⟨sub⟩

/-- The numeric `<`; false as soon as one side is NaN. -/
def lt : Number → Number → Bool
  | .int m, .int n => m < n
  | .nan, _ | _, .nan => false
  | .inf s, .inf t => s && !t
  | .inf s, .int _ => s
  | .int _, .inf s => !s

/-- The numeric `>=`. -/
def ge : Number → Number → Bool
  | .nan, _ | _, .nan => false
  | x, y => !x.lt y

/-- `Number.isSafeInteger`. -/
def isSafeInteger : Number → Bool
  | .int n => n.natAbs < 2 ^ 53
  | _ => false

/-- An offset argument of `slice` or `subarray` on a buffer of `length` bytes:
negative offsets count from the end, and every offset is clamped. -/
def offset (length : Nat) : Number → Nat
  | .int n => if n < 0 then (n + length).toNat else min n.toNat length
  | .inf negative => if negative then 0 else length
  | .nan => 0

end Number

/-- `slice` and `subarray` with both offsets given. -/
def slice (bytes : List α) (start stop : Number) : List α :=
  (bytes.take (stop.offset bytes.length)).drop (start.offset bytes.length)

-- ---------------------------------------------------------------------------
-- Rounding
-- ---------------------------------------------------------------------------

theorem roundNat_small (h : n < 2 ^ 53) : roundNat n = n := if_pos h

/-- Rounding never drops a number of at least 54 bits below `2 ^ 53`. -/
theorem le_roundNat (h : 2 ^ 53 ≤ n) : 2 ^ 53 ≤ roundNat n := by
  have hn : n ≠ 0 := by omega
  have hlog : 53 ≤ n.log2 := (Nat.le_log2 hn).mpr h
  have hfloor : 2 ^ 53 ≤ n / 2 ^ (n.log2 - 52) * 2 ^ (n.log2 - 52) := by
    have hq : 2 ^ 52 ≤ n / 2 ^ (n.log2 - 52) := by
      rw [Nat.le_div_iff_mul_le (by positivity), ← Nat.pow_add,
        show 52 + (n.log2 - 52) = n.log2 by omega]
      exact Nat.log2_self_le hn
    calc 2 ^ 53 = 2 ^ 52 * 2 ^ 1 := by norm_num
      _ ≤ n / 2 ^ (n.log2 - 52) * 2 ^ (n.log2 - 52) :=
        Nat.mul_le_mul hq (Nat.pow_le_pow_right (by norm_num) (by omega))
  simp only [roundNat, Nat.not_lt.mpr h, ↓reduceIte]
  split
  · exact hfloor
  · exact hfloor.trans (Nat.mul_le_mul_right _ (Nat.le_succ _))

theorem roundNat_lt (h : roundNat n < 2 ^ 53) : n < 2 ^ 53 := by
  by_contra hn
  exact absurd (le_roundNat (Nat.not_lt.mp hn)) (Nat.not_le.mpr h)

namespace Number

theorem round_small {n : Int} (h : n.natAbs < 2 ^ 53) : round n = .int n := by
  have hlog : n.natAbs.log2 < 1024 := by
    rcases Nat.eq_zero_or_pos n.natAbs with hz | hp
    · rw [hz]; decide
    · exact ((Nat.log2_lt (by omega)).mpr h).trans (by norm_num)
  rw [round, roundNat_small h, if_pos hlog, Int.sign_mul_natAbs]

@[simp] theorem ofNat_small {n : Nat} (h : n < 2 ^ 53) : ofNat n = .int n :=
  round_small (by simpa using h)

theorem round_int {n z : Int} (h : round n = .int z) (hz : z.natAbs < 2 ^ 53) : z = n := by
  unfold round at h
  split at h
  · rw [int.injEq] at h
    have habs : roundNat n.natAbs < 2 ^ 53 := by
      rcases Int.lt_trichotomy n 0 with hn | rfl | hn
      · rw [Int.sign_eq_neg_one_of_neg hn] at h; omega
      · simp [roundNat]
      · rw [Int.sign_eq_one_of_pos hn] at h; omega
    rw [← h, roundNat_small (roundNat_lt habs), Int.sign_mul_natAbs]
  · cases h

@[simp] theorem int_add_int (m n : Int) : (int m + int n : Number) = round (m + n) := rfl
@[simp] theorem int_sub_int (m n : Int) : (int m - int n : Number) = round (m - n) := rfl

/-- A sum below `2 ^ 53` was exact. -/
theorem add_int {x y : Number} {z : Int} (h : x + y = .int z) (hz : z.natAbs < 2 ^ 53) :
    ∃ m n, x = .int m ∧ y = .int n ∧ z = m + n := by
  cases x with
  | int m =>
    cases y with
    | int n => exact ⟨m, n, rfl, rfl, round_int h hz⟩
    | inf s => cases h
    | nan => cases h
  | inf s =>
    cases y with
    | int n => cases h
    | inf t =>
      change (if s = t then inf s else nan) = int z at h
      split at h <;> cases h
    | nan => cases h
  | nan => cases y <;> cases h

/-- A difference below `2 ^ 53` was exact. -/
theorem sub_int {x y : Number} {z : Int} (h : x - y = .int z) (hz : z.natAbs < 2 ^ 53) :
    ∃ m n, x = .int m ∧ y = .int n ∧ z = m - n := by
  obtain ⟨m, k, rfl, hk, hsum⟩ := add_int (y := y.neg) h hz
  cases y with
  | int n =>
    rw [neg, int.injEq] at hk
    exact ⟨m, n, rfl, rfl, by omega⟩
  | inf s => cases hk
  | nan => cases hk

/-- Zero, a positive integer or positive infinity. -/
def Nonneg : Number → Prop
  | .int n => 0 ≤ n
  | .inf negative => negative = false
  | .nan => False

theorem round_nonneg {n : Int} (h : 0 ≤ n) : (round n).Nonneg := by
  unfold round
  split
  · exact Int.mul_nonneg (Int.sign_nonneg_iff.mpr h) (Int.natCast_nonneg _)
  · simpa [Nonneg] using h

theorem ofNat_nonneg (n : Nat) : (ofNat n).Nonneg := round_nonneg (Int.natCast_nonneg n)

theorem add_nonneg {x y : Number} (hx : x.Nonneg) (hy : y.Nonneg) : (x + y).Nonneg := by
  cases x with
  | int m =>
    cases y with
    | int n => exact round_nonneg (Int.add_nonneg hx hy)
    | inf t => exact hy
    | nan => exact hy.elim
  | inf s =>
    cases y with
    | int n => exact hx
    | inf t =>
      change s = false at hx
      change t = false at hy
      subst hx hy
      rfl
    | nan => exact hy.elim
  | nan => exact hx.elim

/-- Taking a small integer from a nonnegative number is exact or nonnegative. -/
theorem sub_small {x : Number} {s z : Int} (hx : x.Nonneg) (hs : s < 2 ^ 53)
    (h : x - int s = int z) : 0 ≤ z ∨ x = int (z + s) := by
  cases x with
  | int n =>
    rw [int_sub_int] at h
    rcases Int.le_total 0 (n - s) with hn | hn
    · have hr := round_nonneg hn
      rw [h] at hr
      exact .inl hr
    · change 0 ≤ n at hx
      rw [round_small (by omega), int.injEq] at h
      exact .inr (by rw [← h, Int.sub_add_cancel])
  | inf t => cases h
  | nan => cases h

theorem Nonneg.int_toNat {n : Int} (h : (int n).Nonneg) : int n = int n.toNat := by
  change 0 ≤ n at h
  rw [Int.toNat_of_nonneg h]

theorem offset_of_lt {x : Number} (hx : x.Nonneg) (h : x.offset length < length) :
    x = int (x.offset length) := by
  cases x with
  | int n =>
    change 0 ≤ n at hx
    simp only [offset, not_lt.mpr hx, ↓reduceIte, int.injEq] at h ⊢
    omega
  | inf t =>
    change t = false at hx
    subst hx
    exact absurd h (Nat.lt_irrefl _)
  | nan => exact hx.elim

theorem offset_int (n : Nat) (h : n ≤ length) : (int n).offset length = n := by
  simp only [offset]
  split <;> omega

theorem offset_le (x : Number) (length : Nat) : x.offset length ≤ length := by
  cases x with
  | int n => simp only [offset]; split <;> omega
  | inf s => simp only [offset]; split <;> omega
  | nan => simp [offset]

end Number

theorem length_slice (bytes : List α) (start stop : Number) :
    (slice bytes start stop).length =
      stop.offset bytes.length - start.offset bytes.length := by
  have h := stop.offset_le bytes.length
  simp [slice, h]

theorem slice_append (pre middle post : List α) :
    slice (pre ++ middle ++ post) (.int pre.length) (.int (pre.length + middle.length : Nat)) =
      middle := by
  have hlength : (pre ++ middle ++ post).length = pre.length + middle.length + post.length := by
    simp only [List.length_append]
  rw [slice, Number.offset_int _ (by omega), Number.offset_int _ (by omega),
    ← List.length_append, List.take_left, List.drop_left]

end Lib
