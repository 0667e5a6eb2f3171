import EsigSuite.Lib.Digits
import EsigSuite.Lib.JsNumber
import EsigSuite.Lib.JsRegex
import EsigSuite.Lib.JsonRead
import Mathlib.Data.List.DropRight
import Mathlib.Tactic.IntervalCases

/-!
# `Number(value)`

The number of a value that was read from JSON, and what a difference of two
doubles says of their order.
-/

namespace Lib

-- ---------------------------------------------------------------------------
-- Numbers of texts
-- ---------------------------------------------------------------------------

/-- The digits behind `0x`, `0o` or `0b`. -/
def radixNumber (base : Nat) (digits : List Char) : JsNumber :=
  if digits = [] then none
  else (digits.foldlM (fun n c => do
    let d ← Json.hexValue? c
    if d < base then some (base * n + d) else none) 0).map fun n => Double.round n

def readEitherSign : List Char → Bool × List Char
  | '-' :: rest => (true, rest)
  | '+' :: rest => (false, rest)
  | rest => (false, rest)

/-- The digits behind a point, and what follows them. -/
def readPoint : List Char → List Char × List Char
  | '.' :: rest => (rest.takeWhile Char.isDigit, rest.dropWhile Char.isDigit)
  | rest => ([], rest)

/-- A decimal, or infinity. Digits may be missing on one side of the point. -/
def decimalNumber (text : List Char) : JsNumber :=
  let (negative, rest) := readEitherSign text
  if rest = "Infinity".toList then some (.infinite negative)
  else
    let int := rest.takeWhile Char.isDigit
    let (frac, rest) := readPoint (rest.dropWhile Char.isDigit)
    if int ++ frac = [] then none
    else
      match readExponent rest with
      | some (exponent, []) => some (Double.round (Numeral.value ⟨negative, int, frac, exponent⟩))
      | _ => none

def numberOfText (text : JsString) : JsNumber :=
  let trimmed := (text.dropWhile isWhiteUnit).rdropWhile isWhiteUnit
  match trimmed.map fun unit => Char.ofNat unit.toNat with
  | [] => some (.finite 0)
  | '0' :: c :: digits =>
    if c = 'x' ∨ c = 'X' then radixNumber 16 digits
    else if c = 'o' ∨ c = 'O' then radixNumber 8 digits
    else if c = 'b' ∨ c = 'B' then radixNumber 2 digits
    else decimalNumber ('0' :: c :: digits)
  | rest => decimalNumber rest

/-- Undefined has no number. -/
def toNumber : Option Json → JsNumber
  | none => none
  | some .null => some (.finite 0)
  | some (.bool b) => some (.finite (if b then 1 else 0))
  | some (.number x) => some x
  | some value => numberOfText (EsigSuite.stringOf value)

-- ---------------------------------------------------------------------------
-- Integers
-- ---------------------------------------------------------------------------

theorem isDigit_mem {c : Char} (h : c.isDigit = true) : c ∈ "0123456789".toList := by
  have hn : 48 ≤ c.toNat ∧ c.toNat ≤ 57 := by
    simp only [Char.isDigit, Bool.and_eq_true, decide_eq_true_eq] at h
    exact h
  have hc : c = Char.ofNat c.toNat := (Char.ofNat_toNat c).symm
  obtain ⟨hlow, hhigh⟩ := hn
  rw [hc]
  generalize c.toNat = n at *
  interval_cases n <;> decide

/-- A sign or a digit is one unit, which is not white space. -/
theorem intText_unit {z : ℤ} {c : Char} (h : c ∈ intText z) :
    utf16 c = [unitOf c] ∧ isWhiteUnit (unitOf c) = false ∧ Char.ofNat (unitOf c).toNat = c := by
  have hall : ∀ c ∈ "-0123456789".toList, utf16 c = [unitOf c] ∧
      isWhiteUnit (unitOf c) = false ∧ Char.ofNat (unitOf c).toNat = c :=
    List.forall_iff_forall_mem.mp (by decide)
  refine hall c ?_
  rcases intText_chars h with rfl | hdigit
  · decide
  · exact List.mem_cons_of_mem _ (isDigit_mem hdigit)

theorem ofText_units {cs : List Char} (h : ∀ c ∈ cs, utf16 c = [unitOf c]) :
    JsString.ofText cs = cs.map unitOf := by
  induction cs with
  | nil => rfl
  | cons c cs ih =>
    rw [JsString.ofText, List.flatMap_cons, h c List.mem_cons_self]
    exact congrArg _ (ih fun c hc => h c (List.mem_cons_of_mem _ hc))

theorem trim_of_none {units : JsString} (h : ∀ unit ∈ units, isWhiteUnit unit = false) :
    (units.dropWhile isWhiteUnit).rdropWhile isWhiteUnit = units := by
  have hdrop : units.dropWhile isWhiteUnit = units := by
    rw [List.dropWhile_eq_self_iff]
    intro hl hw
    rw [h _ (List.getElem_mem hl)] at hw
    exact Bool.noConfusion hw
  rw [hdrop, List.rdropWhile_eq_self_iff]
  intro hne hw
  rw [h _ (List.getLast_mem hne)] at hw
  exact Bool.noConfusion hw

theorem decimalNumber_intText {z : ℤ} (h : z.natAbs < 2 ^ 53) :
    decimalNumber (intText z) = some (.finite z) := by
  have hdigits := toDigits_isDigit z.natAbs
  have hne : Nat.toDigits 10 z.natAbs ≠ [] := by
    intro hnil
    have := Nat.length_toDigits_pos (b := 10) (n := z.natAbs)
    rw [hnil] at this
    exact absurd this (Nat.lt_irrefl 0)
  obtain ⟨d, digits, hd⟩ := List.exists_cons_of_ne_nil hne
  have hddigit : d.isDigit = true := hdigits d (hd ▸ List.mem_cons_self)
  have hsign : readEitherSign (intText z) = (decide (z < 0), Nat.toDigits 10 z.natAbs) := by
    unfold intText Numeral.signText
    by_cases hz : z < 0
    · simp [hz, readEitherSign]
    · simp only [hz, decide_false, Bool.false_eq_true, if_false, List.nil_append, hd]
      unfold readEitherSign
      split
      · rename_i heq
        rw [(List.cons.inj heq).1] at hddigit
        exact absurd hddigit (by decide)
      · rename_i heq
        rw [(List.cons.inj heq).1] at hddigit
        exact absurd hddigit (by decide)
      · rfl
  have htake : (Nat.toDigits 10 z.natAbs).takeWhile Char.isDigit = Nat.toDigits 10 z.natAbs :=
    List.takeWhile_eq_self_iff.mpr hdigits
  have hdrop : (Nat.toDigits 10 z.natAbs).dropWhile Char.isDigit = [] :=
    List.dropWhile_eq_nil_iff.mpr hdigits
  have hinf : Nat.toDigits 10 z.natAbs ≠ "Infinity".toList := by
    intro heq
    rw [hd] at heq
    rw [(List.cons.inj heq).1] at hddigit
    exact absurd hddigit (by decide)
  have hvalue : Numeral.value ⟨decide (z < 0), Nat.toDigits 10 z.natAbs, [], 0⟩ = (z : ℚ) := by
    simp only [Numeral.value, Numeral.magnitude, List.append_nil, List.length_nil,
      Nat.ofDigitChars_ten_toDigits, decide_eq_true_eq, Nat.cast_zero, sub_zero, zpow_zero, mul_one,
      Nat.cast_natAbs, Int.cast_abs]
    split_ifs with hz
    · rw [abs_of_neg (by exact_mod_cast hz), neg_neg]
    · exact abs_of_nonneg (by exact_mod_cast Int.not_lt.mp hz)
  have hexact := Double.exact_int h
  unfold decimalNumber
  rw [hsign]
  simp only [hinf, if_false, htake, hdrop, readPoint, List.append_nil, hne, readExponent, hvalue]
  rw [hexact]

/-- An integer comes back from its text. -/
theorem numberOfText_intText {z : ℤ} (h : z.natAbs < 2 ^ 53) :
    numberOfText (.ofText (intText z)) = some (.finite z) := by
  have hunits := ofText_units fun c hc => (intText_unit (z := z) hc).1
  have htrim : ∀ unit ∈ (intText z).map unitOf, isWhiteUnit unit = false := by
    intro unit hu
    obtain ⟨c, hc, rfl⟩ := List.mem_map.mp hu
    exact (intText_unit hc).2.1
  have hback : ((intText z).map unitOf).map (fun unit => Char.ofNat unit.toNat) = intText z := by
    rw [List.map_map]
    conv_rhs => rw [← List.map_id (intText z)]
    exact List.map_congr_left fun c hc => (intText_unit hc).2.2
  have hdec := decimalNumber_intText h
  unfold numberOfText
  rw [hunits]
  dsimp only
  rw [trim_of_none htrim, hback]
  have hlead (c : Char) (digits : List Char) : intText z ≠ '0' :: c :: digits := by
    unfold intText Numeral.signText
    by_cases hz : z < 0
    · simp [hz]
    · rcases Nat.eq_zero_or_pos z.natAbs with h0 | hpos
      · rw [h0]
        simp [hz]
      · intro heq
        have hhead := Double.toDigits_head hpos
        simp only [hz, decide_false, Bool.false_eq_true, if_false, List.nil_append] at heq
        rw [heq] at hhead
        exact hhead rfl
  split
  next heq => rw [heq] at hdec; simp [decimalNumber, readEitherSign, readPoint] at hdec
  next c digits heq => exact absurd heq (hlead c digits)
  next => exact hdec

-- ---------------------------------------------------------------------------
-- Differences
-- ---------------------------------------------------------------------------

namespace Double

/-- A multiple of the least positive double. -/
def OnGrid (x : ℚ) : Prop := ∃ m : ℤ, x = m * 2 ^ (-1074 : ℤ)

theorem OnGrid.neg (h : OnGrid x) : OnGrid (-x) := by
  obtain ⟨m, rfl⟩ := h
  exact ⟨-m, by push_cast; ring⟩

theorem OnGrid.add (hx : OnGrid x) (hy : OnGrid y) : OnGrid (x + y) := by
  obtain ⟨m, rfl⟩ := hx
  obtain ⟨n, rfl⟩ := hy
  exact ⟨m + n, by push_cast; ring⟩

theorem onGrid_zpow (m e : ℤ) (h : -1074 ≤ e) : OnGrid (m * 2 ^ e) := by
  obtain ⟨k, hk⟩ := Int.eq_ofNat_of_zero_le (show 0 ≤ e + 1074 by omega)
  refine ⟨m * 2 ^ k, ?_⟩
  rw [show e = (k : ℤ) + -1074 by omega, zpow_add₀ (by norm_num), zpow_natCast]
  push_cast
  ring

theorem roundPositive_onGrid {q x : ℚ} (h : roundPositive q = .finite x) : OnGrid x := by
  unfold roundPositive at h
  dsimp only at h
  split at h
  · cases h
  · rw [← Double.finite.inj h]
    exact onGrid_zpow _ _ (le_max_right _ _)

theorem round_onGrid {q x : ℚ} (h : round q = .finite x) : OnGrid x := by
  unfold round at h
  split at h
  · cases h
    exact ⟨0, by simp⟩
  split at h
  · cases hround : roundPositive (-q) with
    | infinite negative => simp [hround, neg] at h
    | finite y =>
      rw [hround, neg] at h
      rw [← Double.finite.inj h]
      exact (roundPositive_onGrid hround).neg
  · exact roundPositive_onGrid h

theorem one_le_roundEven {q : ℚ} (h : 1 ≤ q) : 1 ≤ roundEven q := by
  have hfloor : 1 ≤ ⌊q⌋ := Int.le_floor.mpr (by exact_mod_cast h)
  unfold roundEven
  dsimp only
  split_ifs
  · exact hfloor
  · omega

theorem spacing_le {q : ℚ} (hpos : 0 < q) (h : OnGrid q) : spacing q ≤ q := by
  unfold spacing
  rcases le_total (Int.log 2 q - 52) (-1074) with hle | hle
  · rw [max_eq_right hle]
    obtain ⟨m, rfl⟩ := h
    have hm : (1 : ℚ) ≤ m := by
      have : 0 < (m : ℚ) := pos_of_mul_pos_left hpos (zpow_pos (by norm_num) _).le
      exact_mod_cast this
    exact le_mul_of_one_le_left (zpow_pos (by norm_num) _).le hm
  · rw [max_eq_left hle]
    calc (2 : ℚ) ^ (Int.log 2 q - 52)
        ≤ 2 ^ Int.log 2 q := zpow_le_zpow_right₀ (by norm_num) (by omega)
      _ ≤ q := by exact_mod_cast Int.zpow_log_le_self (by norm_num) hpos

/-- What is positive is not rounded to zero. -/
theorem round_pos {q : ℚ} (hpos : 0 < q) (h : OnGrid q) : .finite 0 < round q := by
  have hspacing : 0 < spacing q := zpow_pos (by norm_num) _
  have hone : 1 ≤ q / spacing q := (one_le_div hspacing).mpr (spacing_le hpos h)
  have hvalue : 0 < (roundEven (q / spacing q) : ℚ) * spacing q :=
    mul_pos (by exact_mod_cast lt_of_lt_of_le one_pos (one_le_roundEven hone)) hspacing
  rw [round, if_neg hpos.ne', if_neg (not_lt.mpr hpos.le), roundPositive]
  split
  · exact WithBot.coe_lt_coe.mpr (WithTop.coe_lt_top 0)
  · exact finite_lt.mpr hvalue

theorem neg_neg_of_pos {d : Double} (h : .finite 0 < d) : d.neg < .finite 0 := by
  cases d with
  | finite x =>
    rw [finite_lt] at h
    exact finite_lt.mpr (neg_lt_zero.mpr h)
  | infinite negative =>
    cases negative with
    | true =>
      change place _ < place _ at h
      simp [place] at h
    | false =>
      change place _ < place _
      simp [neg, place]

end Double

open Double in
/-- A difference tells the order. -/
theorem JsNumber.sub_finite {x y : ℚ} (hx : OnGrid x) (hy : OnGrid y) :
    ∃ d, JsNumber.sub (some (.finite x)) (some (.finite y)) = some d ∧
      (x < y → d < .finite 0) ∧ (x = y → d = .finite 0) ∧ (y < x → .finite 0 < d) := by
  refine ⟨round (x + -y), rfl, fun hlt => ?_, fun heq => ?_, fun hlt => ?_⟩
  · have hpos : 0 < y + -x := by linarith
    have hneg := neg_neg_of_pos (round_pos hpos (hy.add hx.neg))
    rwa [← round_neg, show -(y + -x) = x + -y by ring] at hneg
  · rw [heq, add_neg_cancel]
    rfl
  · exact round_pos (by linarith) (hx.add hy.neg)

end Lib
