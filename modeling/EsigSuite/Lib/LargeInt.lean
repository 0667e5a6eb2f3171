import EsigSuite.Lib.Digits

/-!
# Integers past the safe ones

From `2 ^ 53` on every double is an even integer, so an odd integer is printed
by no double: what counts up by one stops being exact there.
-/

namespace Lib.Double

-- ---------------------------------------------------------------------------
-- Doubles from `2 ^ 53` on
-- ---------------------------------------------------------------------------

theorem roundEven_le {q : ℚ} {m : ℤ} (h : q ≤ m) : roundEven q ≤ m := by
  have hfloor : ⌊q⌋ ≤ m := Int.floor_le_iff.mpr (by linarith)
  unfold roundEven
  dsimp only
  split_ifs with hhalf
  · exact hfloor
  · rcases hfloor.lt_or_eq with hlt | heq
    · omega
    · rw [heq] at hhalf
      exact absurd (.inl (by linarith)) hhalf

/-- The significand and the spacing of a large double. -/
theorem round_form {q x : ℚ} (h : 2 ^ 53 ≤ q) (hround : round q = .finite x) :
    ∃ r k : ℕ, 2 ^ 52 ≤ r ∧ r ≤ 2 ^ 53 ∧ x = (r * 2 ^ (k + 1) : ℕ) ∧ x < 2 ^ 1024 := by
  have hpos : 0 < q := lt_of_lt_of_le (by norm_num) h
  have hlog : (53 : ℤ) ≤ Int.log 2 q :=
    (Int.zpow_le_iff_le_log (by norm_num) hpos).mp (by exact_mod_cast h)
  obtain ⟨k, hk⟩ := Int.eq_ofNat_of_zero_le (show 0 ≤ Int.log 2 q - 53 by omega)
  have hspacing : spacing q = 2 ^ (k + 1) := by
    have hmax : max (Int.log 2 q - 52) (-1074) = ((k + 1 : ℕ) : ℤ) := by omega
    rw [spacing, hmax, zpow_natCast]
  have hlow : ((2 ^ 52 : ℤ) : ℚ) ≤ q / spacing q := by
    have hle : ((2 : ℕ) : ℚ) ^ Int.log 2 q ≤ q := Int.zpow_log_le_self (by norm_num) hpos
    rw [show Int.log 2 q = ((52 + (k + 1) : ℕ) : ℤ) by omega, zpow_natCast, pow_add] at hle
    rw [hspacing, le_div_iff₀ (by positivity)]
    exact_mod_cast hle
  have hhigh : q / spacing q ≤ ((2 ^ 53 : ℤ) : ℚ) := by
    have hlt : q < ((2 : ℕ) : ℚ) ^ (Int.log 2 q + 1) := Int.lt_zpow_succ_log_self (by norm_num) q
    rw [show Int.log 2 q + 1 = ((53 + (k + 1) : ℕ) : ℤ) by omega, zpow_natCast, pow_add] at hlt
    rw [hspacing, div_le_iff₀ (by positivity)]
    exact_mod_cast hlt.le
  obtain ⟨r, hr⟩ := Int.eq_ofNat_of_zero_le ((by positivity : (0 : ℤ) ≤ 2 ^ 52).trans
    (roundEven_ge hlow))
  have hrlow : 2 ^ 52 ≤ r := by
    have := roundEven_ge hlow
    omega
  have hrhigh : r ≤ 2 ^ 53 := by
    have := roundEven_le hhigh
    omega
  simp only [round, hpos.ne', not_lt.mpr hpos.le, if_false, roundPositive, hr] at hround
  split at hround
  · cases hround
  next hsmall =>
    have hx := Double.finite.inj hround
    rw [hspacing] at hx
    refine ⟨r, k, hrlow, hrhigh, ?_, ?_⟩
    · rw [← hx]
      push_cast
      rfl
    · rw [← hx, ← hspacing]
      exact not_le.mp hsmall

theorem exact_scaled {r k : ℕ} (hlow : 2 ^ 52 ≤ r) (hhigh : r < 2 ^ 53)
    (hsmall : ((r * 2 ^ (k + 1) : ℕ) : ℚ) < 2 ^ 1024) : Exact (r * 2 ^ (k + 1) : ℕ) := by
  have hpos : 0 < r * 2 ^ (k + 1) := by positivity
  have hlog : Nat.log 2 (r * 2 ^ (k + 1)) = 52 + (k + 1) := by
    refine Nat.log_eq_of_pow_le_of_lt_pow ?_ ?_
    · rw [pow_add]
      exact Nat.mul_le_mul_right _ hlow
    · rw [show 52 + (k + 1) + 1 = 53 + (k + 1) by omega, pow_add 2 53]
      exact (Nat.mul_lt_mul_right (by positivity)).mpr hhigh
  have hspacing : spacing ((r * 2 ^ (k + 1) : ℕ) : ℚ) = 2 ^ (k + 1) := by
    have hmax : max (((52 + (k + 1) : ℕ) : ℤ) - 52) (-1074) = ((k + 1 : ℕ) : ℤ) := by omega
    rw [spacing, Int.log_natCast, hlog, hmax, zpow_natCast]
  have hscaled : ((r * 2 ^ (k + 1) : ℕ) : ℚ) / spacing ((r * 2 ^ (k + 1) : ℕ) : ℚ) =
      ((r : ℤ) : ℚ) := by
    rw [hspacing]
    push_cast
    field_simp
  have hvalue : (roundEven (((r * 2 ^ (k + 1) : ℕ) : ℚ) / spacing ((r * 2 ^ (k + 1) : ℕ) : ℚ)) : ℚ) *
      spacing ((r * 2 ^ (k + 1) : ℕ) : ℚ) = (r * 2 ^ (k + 1) : ℕ) := by
    rw [hscaled, roundEven_int, hspacing]
    push_cast
    rfl
  have hne : ((r * 2 ^ (k + 1) : ℕ) : ℚ) ≠ 0 := by exact_mod_cast hpos.ne'
  have hneg : ¬ ((r * 2 ^ (k + 1) : ℕ) : ℚ) < 0 := not_lt.mpr (Nat.cast_nonneg _)
  rw [Exact, round, if_neg hne, if_neg hneg, roundPositive]
  simp only [hvalue, if_neg (not_le.mpr hsmall)]

/-- A large double is an even integer, and rounding leaves it. -/
theorem round_even {q x : ℚ} (h : 2 ^ 53 ≤ q) (hround : round q = .finite x) :
    ∃ n : ℕ, x = n ∧ 0 < n ∧ n % 2 = 0 ∧ Exact (n : ℚ) := by
  obtain ⟨r, k, hlow, hhigh, rfl, hsmall⟩ := round_form h hround
  refine ⟨r * 2 ^ (k + 1), rfl, by positivity, ?_, ?_⟩
  · rw [pow_succ, ← mul_assoc, Nat.mul_mod_left]
  · rcases hhigh.lt_or_eq with hlt | rfl
    · exact exact_scaled hlow hlt hsmall
    · have hshift : 2 ^ 53 * 2 ^ (k + 1) = 2 ^ 52 * 2 ^ (k + 1 + 1) := by ring
      rw [hshift] at hsmall ⊢
      exact exact_scaled le_rfl (by norm_num) hsmall

-- ---------------------------------------------------------------------------
-- What an odd integer is not printed by
-- ---------------------------------------------------------------------------

theorem text_point {n : Numeral} (h : n.frac ≠ []) : '.' ∈ n.text := by
  simp [Numeral.text, Numeral.fracText, h]

theorem text_mark {n : Numeral} (h : n.exponent ≠ 0) : 'e' ∈ n.text := by
  simp [Numeral.text, Numeral.exponentText, h]

/-- A number whose text is all digits has its digits before the point. -/
theorem layout_digits_eq {s : ℕ} (hs : 0 < s) {exponent : ℤ}
    (h : ∀ c ∈ (layout false s exponent).text, c.isDigit = true) :
    ∃ e : ℕ, exponent = e ∧ (layout false s exponent).text = Nat.toDigits 10 (s * 10 ^ e) := by
  have hlength : 0 < (Nat.toDigits 10 s).length :=
    List.length_pos_of_ne_nil (Nat.toDigits_ne_nil)
  unfold layout at h ⊢
  dsimp only at h ⊢
  split_ifs at h ⊢ with h1 h2 h3
  · obtain ⟨e, rfl⟩ := Int.eq_ofNat_of_zero_le (show 0 ≤ exponent by omega)
    refine ⟨e, rfl, ?_⟩
    rw [toDigits_shift hs]
    simp [Numeral.text, Numeral.signText, Numeral.fracText, Numeral.exponentText]
  · have hfrac : (Nat.toDigits 10 s).drop (exponent + (Nat.toDigits 10 s).length).toNat ≠ [] := by
      intro hnil
      have := List.drop_eq_nil_iff.mp hnil
      omega
    exact absurd (h '.' (text_point hfrac)) (by decide)
  · have hfrac : List.replicate (-(exponent + (Nat.toDigits 10 s).length)).toNat '0' ++
        Nat.toDigits 10 s ≠ [] :=
      List.append_ne_nil_of_right_ne_nil _ Nat.toDigits_ne_nil
    exact absurd (h '.' (text_point hfrac)) (by decide)
  · have hmark : exponent + (Nat.toDigits 10 s).length - 1 ≠ 0 := by omega
    exact absurd (h 'e' (text_mark hmark)) (by decide)

theorem significand?_exact {n : ℕ} (hpos : 0 < n) (h : Exact (n : ℚ)) :
    significand? (n : ℚ) 0 = some n := by
  have hhalf : (0 : ℚ) ≤ 2⁻¹ := by norm_num
  simp only [Exact] at h
  simp [significand?, hhalf, hpos, h]

/-- A significand of units is the number. -/
theorem shortest_unit {n s : ℕ} (hpos : 0 < n) (h : Exact (n : ℚ))
    (hshortest : shortest (n : ℚ) = (s, 0)) (hone : s ≠ 1) : s = n := by
  unfold shortest at hshortest
  dsimp only at hshortest
  cases hfound : (List.range 17).findSome? fun (i : ℕ) =>
      (significand? (n : ℚ) (Int.log 10 (n : ℚ) - i)).map fun s =>
        if s = 10 ^ (i + 1) then (1, Int.log 10 (n : ℚ) - i + (i + 1))
        else (s, Int.log 10 (n : ℚ) - i) with
  | none =>
    rw [hfound, Option.getD_none, Prod.mk.injEq] at hshortest
    exact absurd hshortest.2 (by decide)
  | some found =>
    rw [hfound, Option.getD_some] at hshortest
    obtain ⟨i, -, hi⟩ := List.exists_of_findSome?_eq_some hfound
    obtain ⟨t, ht, rfl⟩ := Option.map_eq_some_iff.mp hi
    split_ifs at hshortest
    · rw [Prod.mk.injEq] at hshortest
      exact absurd hshortest.1.symm hone
    · rw [Prod.mk.injEq] at hshortest
      rw [hshortest.2, significand?_exact hpos h] at ht
      rw [← hshortest.1, Option.some.inj ht]

/-- No double is printed as an odd integer that is not safe. -/
theorem text_round_odd {q : ℚ} {w : ℕ} (h : 2 ^ 53 ≤ q) (hodd : w % 2 = 1) (hw : w ≠ 1) :
    text (round q) ≠ Nat.toDigits 10 w := by
  intro heq
  have hdigits : ∀ c ∈ text (round q), c.isDigit = true := heq ▸ toDigits_isDigit w
  cases hround : round q with
  | infinite negative =>
    rw [hround] at hdigits
    cases negative <;> exact absurd (hdigits 'I' (by decide)) (by decide)
  | finite x =>
    obtain ⟨n, rfl, hpos, heven, hexact⟩ := round_even h hround
    have hne : (n : ℚ) ≠ 0 := by exact_mod_cast hpos.ne'
    have hneg : ¬ (n : ℚ) < 0 := not_lt.mpr (Nat.cast_nonneg _)
    have habs : |(n : ℚ)| = n := abs_of_nonneg (Nat.cast_nonneg _)
    rw [hround, text_finite, numeral, if_neg hne, habs, decide_eq_false hneg] at heq hdigits
    have hs := (shortest_spec (by exact_mod_cast hpos) hexact).1
    obtain ⟨e, he, htext⟩ := layout_digits_eq hs hdigits
    have hvalue : (shortest (n : ℚ)).1 * 10 ^ e = w := by
      have hnumber := congrArg (Nat.ofDigitChars 10 · 0) (htext.symm.trans heq)
      simpa [Nat.ofDigitChars_ten_toDigits] using hnumber
    obtain rfl : e = 0 := by
      by_contra hzero
      obtain ⟨e, rfl⟩ := Nat.exists_eq_succ_of_ne_zero hzero
      have : w = 2 * ((shortest (n : ℚ)).1 * 10 ^ e * 5) := by
        rw [← hvalue, pow_succ]
        ring
      omega
    rw [pow_zero, mul_one] at hvalue
    have hn := shortest_unit hpos hexact (Prod.ext hvalue he) hw
    omega

/-- The number is written as it was read. -/
def Printed (n : ℕ) : Prop := text (round n) = Nat.toDigits 10 n

instance (n : ℕ) : Decidable (Printed n) := by unfold Printed; infer_instance

theorem printed_safe {n : ℕ} (h : n ≤ 2 ^ 53) : Printed n := by
  rcases h.lt_or_eq with hlt | rfl
  · have htext := text_int (z := n) (by simpa using hlt)
    have hexact := exact_nat hlt
    rw [Exact] at hexact
    rw [Printed, hexact, ← intText_nat, ← htext]
    norm_num
  · decide +kernel

end Lib.Double
