import EsigSuite.Lib.Double
import Mathlib.Data.List.DropRight

/-!
# Digits of a fixed width

Numbers written with as many digits as a format asks for, and what a reader that
counts on the width gets back.
-/

namespace Lib

-- ---------------------------------------------------------------------------
-- Hexadecimal
-- ---------------------------------------------------------------------------

/-- The last `width` hexadecimal digits, lower case. -/
def hexDigits : Nat → Nat → List Char
  | 0, _ => []
  | width + 1, n => Nat.digitChar (n / 16 ^ width % 16) :: hexDigits width n

def isHexDigit (c : Char) : Bool := ('0' ≤ c && c ≤ '9') || ('a' ≤ c && c ≤ 'f')

theorem digitChar_hex : ∀ m < 16, isHexDigit (Nat.digitChar m) = true := by decide

theorem digitChar_inj : ∀ m < 16, ∀ n < 16, Nat.digitChar m = Nat.digitChar n → m = n := by decide

@[simp] theorem length_hexDigits (width n : Nat) : (hexDigits width n).length = width := by
  induction width with
  | zero => rfl
  | succ width ih => simp [hexDigits, ih]

theorem hexDigits_hex {width n : Nat} {c : Char} (h : c ∈ hexDigits width n) :
    isHexDigit c = true := by
  induction width with
  | zero => cases h
  | succ width ih =>
    rcases List.mem_cons.mp h with rfl | h
    · exact digitChar_hex _ (Nat.mod_lt _ (by decide))
    · exact ih h

theorem hexDigits_inj {width m n : Nat} (h : hexDigits width m = hexDigits width n) :
    m % 16 ^ width = n % 16 ^ width := by
  induction width with
  | zero => simp [Nat.mod_one]
  | succ width ih =>
    simp only [hexDigits, List.cons.injEq] at h
    have hdigit := digitChar_inj _ (Nat.mod_lt _ (by decide)) _ (Nat.mod_lt _ (by decide)) h.1
    rw [pow_succ, Nat.mod_mul, Nat.mod_mul, ih h.2, hdigit]

-- ---------------------------------------------------------------------------
-- Decimal
-- ---------------------------------------------------------------------------

/-- At least `width` digits. -/
def padded (width n : Nat) : List Char :=
  List.replicate (width - (Nat.toDigits 10 n).length) '0' ++ Nat.toDigits 10 n

def readNat (text : List Char) : Nat := Nat.ofDigitChars 10 text 0

@[simp] theorem readNat_padded (width n : Nat) : readNat (padded width n) = n := by
  simp [readNat, padded, Nat.ofDigitChars_append]

theorem padded_digit {width n : Nat} {c : Char} (h : c ∈ padded width n) : c.isDigit = true := by
  rcases List.mem_append.mp h with h | h
  · rw [List.eq_of_mem_replicate h]
    rfl
  · exact toDigits_isDigit n c h

theorem length_padded {width n : Nat} (hwidth : 0 < width) (h : n < 10 ^ width) :
    (padded width n).length = width := by
  have hle := (Nat.length_toDigits_le_iff (b := 10) (by decide) hwidth).mpr h
  simp only [padded, List.length_append, List.length_replicate]
  omega

theorem padded_two {n : Nat} (h : n < 100) : ∃ a b, padded 2 n = [a, b] ∧ a.isDigit = true ∧
    b.isDigit = true ∧ readNat [a, b] = n := by
  obtain ⟨a, b, hab⟩ := List.length_eq_two.mp (length_padded (show 0 < 2 by decide) h)
  refine ⟨a, b, hab, ?_, ?_, ?_⟩
  · exact padded_digit (show a ∈ padded 2 n by simp [hab])
  · exact padded_digit (show b ∈ padded 2 n by simp [hab])
  · rw [← hab, readNat_padded]

theorem padded_three {n : Nat} (h : n < 1000) : ∃ a b c, padded 3 n = [a, b, c] ∧
    a.isDigit = true ∧ b.isDigit = true ∧ c.isDigit = true ∧ readNat [a, b, c] = n := by
  obtain ⟨a, b, c, habc⟩ := List.length_eq_three.mp (length_padded (show 0 < 3 by decide) h)
  refine ⟨a, b, c, habc, ?_, ?_, ?_, ?_⟩
  · exact padded_digit (show a ∈ padded 3 n by simp [habc])
  · exact padded_digit (show b ∈ padded 3 n by simp [habc])
  · exact padded_digit (show c ∈ padded 3 n by simp [habc])
  · rw [← habc, readNat_padded]

-- ---------------------------------------------------------------------------
-- Integers
-- ---------------------------------------------------------------------------

def intText (z : Int) : List Char := Numeral.signText (z < 0) ++ Nat.toDigits 10 z.natAbs

theorem intText_nat (n : Nat) : intText n = Nat.toDigits 10 n := by
  simp [intText, Numeral.signText]

theorem intText_inj {y z : Int} (h : intText y = intText z) : y = z := by
  have hdigit : ∀ n : Nat, ∀ rest, Nat.toDigits 10 n ≠ '-' :: rest := by
    intro n rest hn
    have hmem : '-' ∈ Nat.toDigits 10 n := by rw [hn]; exact List.mem_cons_self
    exact absurd (toDigits_isDigit n _ hmem) (by decide)
  have habs : ∀ m n : Nat, Nat.toDigits 10 m = Nat.toDigits 10 n → m = n := by
    intro m n hmn
    rw [← Nat.ofDigitChars_ten_toDigits (n := m), hmn, Nat.ofDigitChars_ten_toDigits]
  unfold intText Numeral.signText at h
  by_cases hy : y < 0 <;> by_cases hz : z < 0
  · simp only [hy, hz, decide_true, if_true, List.cons_append, List.nil_append, List.cons.injEq,
      true_and] at h
    have := habs _ _ h
    omega
  · simp only [hy, hz, decide_true, decide_false, if_true] at h
    exact absurd h.symm (hdigit _ _)
  · simp only [hy, hz, decide_true, decide_false, if_true] at h
    exact absurd h (hdigit _ _)
  · simp only [hy, hz, decide_false] at h
    have := habs _ _ h
    omega

theorem intText_chars {z : Int} {c : Char} (h : c ∈ intText z) : c = '-' ∨ c.isDigit = true := by
  rcases List.mem_append.mp h with h | h
  · unfold Numeral.signText at h
    split at h
    · exact .inl (List.mem_singleton.mp h)
    · cases h
  · exact .inr (toDigits_isDigit _ _ h)

-- ---------------------------------------------------------------------------
-- The text of a number that is an integer
-- ---------------------------------------------------------------------------

theorem toDigits_shift {s : Nat} (h : 0 < s) (e : Nat) :
    Nat.toDigits 10 (s * 10 ^ e) = Nat.toDigits 10 s ++ List.replicate e '0' := by
  induction e with
  | zero => simp
  | succ e ih =>
    have hpos : 0 < s * 10 ^ e := Nat.mul_pos h (by positivity)
    have hsplit : s * 10 ^ (e + 1) = 10 * (s * 10 ^ e) + 0 := by ring
    rw [hsplit, ← Nat.toDigits_append_toDigits (by decide) hpos (by decide), ih, Nat.toDigits_zero,
      List.replicate_succ', List.append_assoc]

namespace Double

theorem roundEven_ge {q : ℚ} {m : ℤ} (h : m ≤ q) : m ≤ roundEven q := by
  have hfloor := Int.le_floor.mpr h
  unfold roundEven
  dsimp only
  split_ifs <;> omega

/-- From the last safe integer on, rounding stays there. -/
theorem round_large {q x : ℚ} (h : 2 ^ 53 ≤ q) (hround : round q = .finite x) : 2 ^ 53 ≤ x := by
  have hpos : 0 < q := lt_of_lt_of_le (by norm_num) h
  have hlog : (53 : ℤ) ≤ Int.log 2 q := (Int.zpow_le_iff_le_log (by norm_num) hpos).mp (by exact_mod_cast h)
  obtain ⟨k, hk⟩ := Int.eq_ofNat_of_zero_le (show 0 ≤ Int.log 2 q - 53 by omega)
  have hspacing : spacing q = 2 ^ (k + 1) := by
    have hmax : max (Int.log 2 q - 52) (-1074) = ((k + 1 : ℕ) : ℤ) := by omega
    rw [spacing, hmax, zpow_natCast]
  have hscaled : ((2 ^ 52 : ℤ) : ℚ) ≤ q / spacing q := by
    have hle : ((2 : ℕ) : ℚ) ^ Int.log 2 q ≤ q := Int.zpow_log_le_self (by norm_num) hpos
    have hpow : ((2 : ℕ) : ℚ) ^ Int.log 2 q = 2 ^ 52 * 2 ^ (k + 1) := by
      rw [show Int.log 2 q = ((52 + (k + 1) : ℕ) : ℤ) by omega, zpow_natCast]
      push_cast
      ring
    rw [hspacing, le_div_iff₀ (by positivity)]
    rw [hpow] at hle
    exact_mod_cast hle
  have heven := roundEven_ge hscaled
  simp only [round, hpos.ne', not_lt.mpr hpos.le, if_false, roundPositive] at hround
  split at hround
  · cases hround
  · rw [← Double.finite.inj hround, hspacing]
    have hcast : ((2 ^ 52 : ℤ) : ℚ) ≤ (roundEven (q / 2 ^ (k + 1)) : ℚ) := by
      rw [hspacing] at heven
      exact_mod_cast heven
    have hone : (1 : ℚ) ≤ 2 ^ k := one_le_pow₀ (by norm_num)
    have hpow : (2 : ℚ) ^ (k + 1) = 2 * 2 ^ k := pow_succ' 2 k
    calc (2 : ℚ) ^ 53 ≤ (2 ^ 52 : ℤ) * 2 ^ (k + 1) := by push_cast; rw [hpow]; linarith
      _ ≤ _ := mul_le_mul_of_nonneg_right hcast (by positivity)

theorem significand?_nat {n : ℕ} (hpos : 0 < n) (h : n < 2 ^ 53) :
    significand? (n : ℚ) 0 = some n := by
  have hexact := exact_nat h
  have hhalf : (0 : ℚ) ≤ 2⁻¹ := by norm_num
  simp only [Exact] at hexact
  simp [significand?, hhalf, hpos, hexact]

/-- The shortest decimal of a safe integer has no digit behind the point. -/
theorem shortest_nat {n : ℕ} (hpos : 0 < n) (h : n < 2 ^ 53) :
    ∃ s e : ℕ, shortest (n : ℚ) = (s, (e : ℤ)) ∧ 0 < s ∧ s * 10 ^ e = n := by
  have hspec := shortest_spec (x := n) (by exact_mod_cast hpos) (exact_nat h)
  have hlog : Nat.log 10 n < 17 :=
    Nat.log_lt_of_lt_pow hpos.ne' (h.trans (by norm_num))
  -- at the place of the units the integer itself is a candidate
  have hexponent : ∃ e : ℕ, (shortest (n : ℚ)).2 = e := by
    unfold shortest
    dsimp only
    cases hfound : (List.range 17).findSome? fun (i : ℕ) =>
        (significand? (n : ℚ) (Int.log 10 (n : ℚ) - i)).map fun s =>
          if s = 10 ^ (i + 1) then (1, Int.log 10 (n : ℚ) - i + (i + 1))
          else (s, Int.log 10 (n : ℚ) - i) with
    | none =>
      have hnone := List.findSome?_eq_none_iff.mp hfound (Nat.log 10 n) (List.mem_range.mpr hlog)
      rw [Int.log_natCast, sub_self, significand?_nat hpos h] at hnone
      cases hnone
    | some found =>
      obtain ⟨before, i, after, hrange, hi, hbefore⟩ := List.findSome?_eq_some_iff.mp hfound
      have hle : i ≤ Nat.log 10 n := by
        have hmem : Nat.log 10 n ∈ before ++ i :: after := hrange ▸ List.mem_range.mpr hlog
        have hsorted : (before ++ i :: after).Pairwise (· < ·) := hrange ▸ List.pairwise_lt_range
        rcases List.mem_append.mp hmem with hmem | hmem
        · have hnone := hbefore _ hmem
          rw [Int.log_natCast, sub_self, significand?_nat hpos h] at hnone
          cases hnone
        · rcases List.mem_cons.mp hmem with hmem | hmem
          · exact hmem.ge
          · exact ((List.pairwise_cons.mp (List.pairwise_append.mp hsorted).2.1).1 _ hmem).le
      obtain ⟨s, -, rfl⟩ := Option.map_eq_some_iff.mp hi
      rw [Option.getD_some, Int.log_natCast]
      split_ifs
      · exact ⟨Nat.log 10 n + 1, by push_cast; ring⟩
      · exact ⟨Nat.log 10 n - i, by omega⟩
  obtain ⟨e, he⟩ := hexponent
  refine ⟨(shortest (n : ℚ)).1, e, Prod.ext rfl he, hspec.1, ?_⟩
  have hround := hspec.2
  rw [he, zpow_natCast] at hround
  have hcast : ((shortest (n : ℚ)).1 * 10 ^ e : ℚ) = ((shortest (n : ℚ)).1 * 10 ^ e : ℕ) := by
    push_cast
    ring
  rw [hcast] at hround
  by_cases hsafe : (shortest (n : ℚ)).1 * 10 ^ e < 2 ^ 53
  · have heq := Double.finite.inj ((exact_nat hsafe).symm.trans hround)
    exact_mod_cast heq
  · have hlarge := round_large (by exact_mod_cast not_lt.mp hsafe) hround
    have : 2 ^ 53 ≤ n := by exact_mod_cast hlarge
    omega

theorem layout_nat (negative : Bool) {s e : ℕ} (hs : 0 < s) (h : s * 10 ^ e < 2 ^ 53) :
    (layout negative s e).text = Numeral.signText negative ++ Nat.toDigits 10 (s * 10 ^ e) := by
  have hlength : (Nat.toDigits 10 (s * 10 ^ e)).length ≤ 16 :=
    (Nat.length_toDigits_le_iff (by decide) (by decide)).mpr (h.trans (by norm_num))
  rw [toDigits_shift hs] at hlength ⊢
  rw [List.length_append, List.length_replicate] at hlength
  unfold layout
  dsimp only
  rw [if_pos (by omega)]
  simp [Numeral.text, Numeral.fracText, Numeral.exponentText]

theorem text_finite (x : ℚ) : text (.finite x) = (numeral x).text := rfl

theorem text_zero : text (.finite 0) = ['0'] := by
  have hnumeral : numeral 0 = ⟨false, ['0'], [], 0⟩ := by
    unfold numeral
    rw [if_pos rfl]
  rw [text_finite, hnumeral]
  simp [Numeral.text, Numeral.signText, Numeral.fracText, Numeral.exponentText]

/-- A safe integer is printed as its decimal digits. -/
theorem text_int {z : ℤ} (h : z.natAbs < 2 ^ 53) : text (.finite z) = intText z := by
  by_cases hz : z = 0
  · rw [hz, Int.cast_zero, text_zero]
    rfl
  have hpos : 0 < z.natAbs := Int.natAbs_pos.mpr hz
  obtain ⟨s, e, hshortest, hs, hvalue⟩ := shortest_nat hpos h
  have habs : |(z : ℚ)| = (z.natAbs : ℚ) := by
    rw [← Int.cast_abs, Int.abs_eq_natAbs]
    rfl
  have hz' : (z : ℚ) ≠ 0 := by exact_mod_cast hz
  rw [text_finite]
  unfold numeral
  rw [if_neg hz', habs, hshortest]
  rw [layout_nat _ hs (hvalue ▸ h), hvalue]
  simp [intText]

end Double

end Lib
