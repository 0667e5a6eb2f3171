import Mathlib.Data.Int.Log
import Mathlib.Data.Rat.Floor
import Mathlib.Tactic.FieldSimp
import Mathlib.Tactic.Linarith
import Mathlib.Tactic.NormNum
import Mathlib.Tactic.Ring

/-!
# Numbers and their decimal text

A double by its exact value, the two zeros being one value. `Double.round` is
the rounding of IEEE 754 to nearest, ties to even, and `Double.text` is
`Number::toString` of ECMAScript: the shortest decimal that rounds to the
number. `readNumeral_text` says that a decimal is read as it was written, and
`read_text` that a number that needs no rounding comes back from its text.
-/

namespace Lib

-- ---------------------------------------------------------------------------
-- Rounding
-- ---------------------------------------------------------------------------

inductive Double
  | finite (value : ℚ)
  | infinite (negative : Bool)
  deriving DecidableEq

namespace Double

/-- The nearest integer, the even one of two. -/
def roundEven (q : ℚ) : ℤ :=
  let below := ⌊q⌋
  let rest := q - below
  if rest < 1 / 2 ∨ (rest = 1 / 2 ∧ below % 2 = 0) then below else below + 1

/-- The distance of the doubles around a positive number. -/
def spacing (q : ℚ) : ℚ := 2 ^ max (Int.log 2 q - 52) (-1074)

def roundPositive (q : ℚ) : Double :=
  let value := roundEven (q / spacing q) * spacing q
  if 2 ^ 1024 ≤ value then .infinite false else .finite value

def neg : Double → Double
  | .finite value => .finite (-value)
  | .infinite negative => .infinite !negative

def round (q : ℚ) : Double :=
  if q = 0 then .finite 0 else if q < 0 then (roundPositive (-q)).neg else roundPositive q

/-- The number is a double. -/
def Exact (value : ℚ) : Prop := round value = .finite value

theorem roundEven_int (n : ℤ) : roundEven n = n := by
  simp [roundEven]

theorem round_neg (q : ℚ) : round (-q) = (round q).neg := by
  unfold round
  rcases lt_trichotomy q 0 with h | rfl | h
  · have hneg : ¬ -q < 0 := by linarith
    have hne : q ≠ 0 := h.ne
    cases hround : roundPositive (-q) <;> simp [hne, h, hneg, hround, neg]
  · simp [neg]
  · have hneg : -q < 0 := by linarith
    have hpos : ¬ q < 0 := by linarith
    simp [h.ne', hneg, hpos]

/-- Safe integers are doubles. -/
theorem exact_nat {n : ℕ} (h : n < 2 ^ 53) : Exact n := by
  obtain rfl | hpos := n.eq_zero_or_pos
  · simp [Exact, round]
  have hlog : Nat.log 2 n ≤ 52 := Nat.lt_succ_iff.mp (Nat.log_lt_of_lt_pow hpos.ne' h)
  obtain ⟨k, hk⟩ := Nat.exists_eq_add_of_le hlog
  have hspacing : spacing (n : ℚ) = (2 ^ k)⁻¹ := by
    have hmax : max ((Nat.log 2 n : ℤ) - 52) (-1074) = -(k : ℤ) := by omega
    rw [spacing, Int.log_natCast, hmax, zpow_neg, zpow_natCast]
  have hscaled : (n : ℚ) / spacing n = ((n * 2 ^ k : ℕ) : ℤ) := by
    rw [hspacing]
    push_cast
    field_simp
  have hvalue : (roundEven ((n : ℚ) / spacing n) : ℚ) * spacing n = n := by
    rw [hscaled, roundEven_int, hspacing]
    push_cast
    field_simp
  have hsmall : ¬ (2 : ℚ) ^ 1024 ≤ n := by
    have hlt : (n : ℚ) < 2 ^ 53 := by exact_mod_cast h
    have hle : (2 : ℚ) ^ 53 ≤ 2 ^ 1024 := pow_le_pow_right₀ (by norm_num) (by norm_num)
    exact not_le.mpr (lt_of_lt_of_le hlt hle)
  have hpos' : ¬ (n : ℚ) < 0 := by simp
  simp [Exact, round, hpos.ne', hpos', roundPositive, hvalue, hsmall]

theorem exact_neg (h : Exact q) : Exact (-q) := by
  rw [Exact, round_neg, h]
  rfl

theorem exact_int {n : ℤ} (h : n.natAbs < 2 ^ 53) : Exact n := by
  obtain ⟨m, rfl | rfl⟩ := n.eq_nat_or_neg
  · simpa using exact_nat (by simpa using h)
  · have hm := exact_neg (exact_nat (n := m) (by simpa using h))
    simpa using hm

end Double

-- ---------------------------------------------------------------------------
-- Decimals
-- ---------------------------------------------------------------------------

/-- The parts of a decimal as it is written; no exponent is written for 0. -/
structure Numeral where
  negative : Bool
  int : List Char
  frac : List Char
  exponent : ℤ

namespace Numeral

def signText (negative : Bool) : List Char := if negative then ['-'] else []

def fracText (frac : List Char) : List Char := if frac = [] then [] else '.' :: frac

def exponentText (exponent : ℤ) : List Char :=
  if exponent = 0 then []
  else 'e' :: (if exponent < 0 then '-' else '+') :: Nat.toDigits 10 exponent.natAbs

def text (n : Numeral) : List Char :=
  signText n.negative ++ (n.int ++ (fracText n.frac ++ exponentText n.exponent))

def magnitude (n : Numeral) : ℚ :=
  Nat.ofDigitChars 10 (n.int ++ n.frac) 0 * 10 ^ (n.exponent - n.frac.length)

def value (n : Numeral) : ℚ := if n.negative then -n.magnitude else n.magnitude

/-- Digits, and no zero before another digit. -/
structure Valid (n : Numeral) : Prop where
  int : ∀ c ∈ n.int, c.isDigit = true
  nonempty : n.int ≠ []
  leading : n.int.head? = some '0' → n.int = ['0']
  frac : ∀ c ∈ n.frac, c.isDigit = true

end Numeral

def readSign : List Char → Bool × List Char
  | '-' :: rest => (true, rest)
  | rest => (false, rest)

/-- Some digits, and what follows them. -/
def readDigits (text : List Char) : Option (List Char × List Char) :=
  match text.takeWhile Char.isDigit with
  | [] => none
  | digits => some (digits, text.dropWhile Char.isDigit)

def readInt (text : List Char) : Option (List Char × List Char) := do
  let (digits, rest) ← readDigits text
  if digits.head? = some '0' ∧ digits ≠ ['0'] then none else some (digits, rest)

def readFrac : List Char → Option (List Char × List Char)
  | '.' :: rest => readDigits rest
  | rest => some ([], rest)

def readExponent : List Char → Option (ℤ × List Char)
  | c :: rest =>
    if c = 'e' ∨ c = 'E' then do
      let (negative, rest) := match rest with
        | '-' :: rest => (true, rest)
        | '+' :: rest => (false, rest)
        | rest => (false, rest)
      let (digits, rest) ← readDigits rest
      let magnitude : ℤ := Nat.ofDigitChars 10 digits 0
      some (if negative then -magnitude else magnitude, rest)
    else some (0, c :: rest)
  | [] => some (0, [])

/-- The number literal of JSON at the head of a text. -/
def readNumeral (text : List Char) : Option (Numeral × List Char) := do
  let (negative, rest) := readSign text
  let (int, rest) ← readInt rest
  let (frac, rest) ← readFrac rest
  let (exponent, rest) ← readExponent rest
  some (⟨negative, int, frac, exponent⟩, rest)

/-- What may follow a number without being taken for a part of it. -/
def EndsNumber (rest : List Char) : Prop :=
  ∀ c ∈ rest.head?, c.isDigit = false ∧ c ≠ '.' ∧ c ≠ 'e' ∧ c ≠ 'E'

-- ---------------------------------------------------------------------------
-- Reading what was written
-- ---------------------------------------------------------------------------

theorem readDigits_append {digits rest : List Char} (h : ∀ c ∈ digits, c.isDigit = true)
    (hne : digits ≠ []) (hrest : ∀ c ∈ rest.head?, c.isDigit = false) :
    readDigits (digits ++ rest) = some (digits, rest) := by
  have htake : rest.takeWhile Char.isDigit = [] := by
    cases rest with
    | nil => rfl
    | cons c rest => simp [hrest c rfl]
  have hdrop : rest.dropWhile Char.isDigit = rest := by
    cases rest with
    | nil => rfl
    | cons c rest => simp [hrest c rfl]
  unfold readDigits
  rw [List.takeWhile_append_of_pos h, List.dropWhile_append_of_pos h, htake, hdrop,
    List.append_nil]
  cases digits with
  | nil => exact absurd rfl hne
  | cons c digits => rfl

theorem toDigits_isDigit (n : ℕ) : ∀ c ∈ Nat.toDigits 10 n, c.isDigit = true :=
  fun _ h => Nat.isDigit_of_mem_toDigits (by decide) (by decide) h

theorem isDigit_ne {c d : Char} (hc : c.isDigit = true) (hd : d.isDigit = false) : c ≠ d :=
  fun h => by simp [h, hd] at hc

theorem readExponent_text (exponent : ℤ) {rest : List Char} (h : EndsNumber rest) :
    readExponent (Numeral.exponentText exponent ++ rest) = some (exponent, rest) := by
  unfold Numeral.exponentText
  by_cases hzero : exponent = 0
  · simp only [hzero, if_true, List.nil_append]
    cases rest with
    | nil => rfl
    | cons c rest =>
      obtain ⟨-, -, he, hE⟩ := h c rfl
      simp [readExponent, he, hE]
  · have hdigits : readDigits (Nat.toDigits 10 exponent.natAbs ++ rest) =
        some (Nat.toDigits 10 exponent.natAbs, rest) :=
      readDigits_append (toDigits_isDigit _) Nat.toDigits_ne_nil fun c hc => (h c hc).1
    by_cases hneg : exponent < 0
    · simp [readExponent, hzero, hneg, hdigits, abs_of_neg hneg]
    · simp [readExponent, hzero, hneg, hdigits, abs_of_nonneg (not_lt.mp hneg)]

theorem readFrac_text {frac rest : List Char} (hfrac : ∀ c ∈ frac, c.isDigit = true)
    (hdigit : ∀ c ∈ rest.head?, c.isDigit = false ∧ c ≠ '.') :
    readFrac (Numeral.fracText frac ++ rest) = some (frac, rest) := by
  unfold Numeral.fracText
  by_cases hnil : frac = []
  · simp only [hnil, if_true, List.nil_append]
    cases rest with
    | nil => rfl
    | cons c rest =>
      have hpoint := (hdigit c rfl).2
      unfold readFrac
      split
      · rename_i heq
        exact absurd (List.cons.inj heq).1 hpoint
      · rfl
  · simp only [hnil, if_false, List.cons_append, readFrac]
    exact readDigits_append hfrac hnil fun c hc => (hdigit c hc).1

theorem exponentText_head (exponent : ℤ) {rest : List Char} (h : EndsNumber rest) :
    ∀ c ∈ (Numeral.exponentText exponent ++ rest).head?, c.isDigit = false ∧ c ≠ '.' := by
  unfold Numeral.exponentText
  split
  · exact fun c hc => ⟨(h c hc).1, (h c hc).2.1⟩
  · simp

theorem fracText_head (frac : List Char) {rest : List Char}
    (h : ∀ c ∈ rest.head?, c.isDigit = false ∧ c ≠ '.') :
    ∀ c ∈ (Numeral.fracText frac ++ rest).head?, c.isDigit = false := by
  unfold Numeral.fracText
  split
  · exact fun c hc => (h c hc).1
  · simp

theorem readSign_text (negative : Bool) {rest : List Char} (h : ∀ c ∈ rest.head?, c ≠ '-') :
    readSign (Numeral.signText negative ++ rest) = (negative, rest) := by
  cases negative with
  | true => rfl
  | false =>
    cases rest with
    | nil => rfl
    | cons c rest =>
      have hminus := h c rfl
      unfold readSign
      split
      · rename_i heq
        exact absurd (List.cons.inj heq).1 hminus
      · rfl

/-- A decimal is read as it was written. -/
theorem readNumeral_text {n : Numeral} (valid : n.Valid) {rest : List Char}
    (h : EndsNumber rest) : readNumeral (n.text ++ rest) = some (n, rest) := by
  have hexponent := exponentText_head n.exponent h
  have hfrac := fracText_head n.frac hexponent
  have hint : readDigits (n.int ++ (Numeral.fracText n.frac ++
      (Numeral.exponentText n.exponent ++ rest))) =
      some (n.int, Numeral.fracText n.frac ++ (Numeral.exponentText n.exponent ++ rest)) :=
    readDigits_append valid.int valid.nonempty hfrac
  have hsign : ∀ c ∈ (n.int ++ (Numeral.fracText n.frac ++
      (Numeral.exponentText n.exponent ++ rest))).head?, c ≠ '-' := by
    obtain ⟨d, ds, hds⟩ := List.exists_cons_of_ne_nil valid.nonempty
    intro c hc
    obtain rfl : d = c := by simpa [hds] using hc
    exact isDigit_ne (valid.int d (by simp [hds])) rfl
  have hleading : ¬ (n.int.head? = some '0' ∧ n.int ≠ ['0']) :=
    fun h => h.2 (valid.leading h.1)
  unfold readNumeral Numeral.text
  simp only [List.append_assoc, readSign_text n.negative hsign, readInt, hint]
  simp [hleading, readFrac_text valid.frac hexponent, readExponent_text n.exponent h]

-- ---------------------------------------------------------------------------
-- Number::toString
-- ---------------------------------------------------------------------------

namespace Double

/-- The one of the two nearest multiples of a power of ten that rounds to the
number, the closer one first. -/
def significand? (x : ℚ) (exponent : ℤ) : Option ℕ :=
  let scaled := x / 10 ^ exponent
  let below := ⌊scaled⌋.toNat
  let nearest := if scaled - below ≤ 1 / 2 then [below, below + 1] else [below + 1, below]
  nearest.find? fun s => 0 < s ∧ round ((s : ℚ) * 10 ^ exponent) = .finite x

/-- The significand and the exponent of ten with the fewest digits. Seventeen
are enough for every double; what would be left over is exact. -/
def shortest (x : ℚ) : ℕ × ℤ :=
  let found := (List.range 17).findSome? fun (i : ℕ) =>
    let exponent := Int.log 10 x - i
    (significand? x exponent).map fun s =>
      if s = 10 ^ (i + 1) then (1, exponent + (i + 1)) else (s, exponent)
  found.getD (⌊x * 10 ^ 1074⌋.toNat, -1074)

/-- `k` digits, the decimal point after the first `n` of them. -/
def layout (negative : Bool) (s : ℕ) (exponent : ℤ) : Numeral :=
  let digits := Nat.toDigits 10 s
  let k := digits.length
  let n := exponent + k
  if k ≤ n ∧ n ≤ 21 then ⟨negative, digits ++ List.replicate exponent.toNat '0', [], 0⟩
  else if 0 < n ∧ n ≤ 21 then ⟨negative, digits.take n.toNat, digits.drop n.toNat, 0⟩
  else if -6 < n ∧ n ≤ 0 then ⟨negative, ['0'], List.replicate (-n).toNat '0' ++ digits, 0⟩
  else ⟨negative, digits.take 1, digits.drop 1, n - 1⟩

def numeral (x : ℚ) : Numeral :=
  if x = 0 then ⟨false, ['0'], [], 0⟩ else layout (x < 0) (shortest |x|).1 (shortest |x|).2

def text : Double → List Char
  | .finite x => (numeral x).text
  | .infinite false => "Infinity".toList
  | .infinite true => "-Infinity".toList

-- ---------------------------------------------------------------------------
-- Numbers come back from their text
-- ---------------------------------------------------------------------------

theorem digitChar_ne_zero : ∀ m < 10, 0 < m → m.digitChar ≠ '0' := by decide

theorem toDigits_head (h : 0 < s) : (Nat.toDigits 10 s).head? ≠ some '0' := by
  induction s using Nat.base_induction 10 (by decide) with
  | single m hm =>
    rw [Nat.toDigits_of_lt_base hm]
    simpa using digitChar_ne_zero m hm h
  | digit m k hk hm ih =>
    rw [← Nat.toDigits_append_toDigits (by decide) hm hk, List.head?_append_of_ne_nil _ Nat.toDigits_ne_nil]
    exact ih hm

theorem layout_digits (negative : Bool) (s : ℕ) (exponent : ℤ) :
    (∀ c ∈ (layout negative s exponent).int, c.isDigit = true) ∧
      (layout negative s exponent).int ≠ [] ∧
        ∀ c ∈ (layout negative s exponent).frac, c.isDigit = true := by
  have hdigits := toDigits_isDigit s
  have hne := Nat.toDigits_ne_nil (b := 10) (n := s)
  have hzeros : ∀ k, ∀ c ∈ List.replicate k '0', c.isDigit = true := by
    rintro k c hc
    rw [List.eq_of_mem_replicate hc]
    rfl
  unfold layout
  dsimp only
  generalize Nat.toDigits 10 s = digits at hdigits hne
  have htake : ∀ k, ∀ c ∈ digits.take k, c.isDigit = true :=
    fun k c hc => hdigits c (List.mem_of_mem_take hc)
  have hdrop : ∀ k, ∀ c ∈ digits.drop k, c.isDigit = true :=
    fun k c hc => hdigits c (List.mem_of_mem_drop hc)
  split_ifs with hwhole hpoint hsmall
  · refine ⟨fun c hc => ?_, by simp [hne], by simp⟩
    exact (List.mem_append.mp hc).elim (hdigits c) (hzeros _ c)
  · have hpos : (exponent + digits.length).toNat ≠ 0 := by omega
    exact ⟨htake _, by simp [hne, hpos], hdrop _⟩
  · refine ⟨by simp, by simp, fun c hc => ?_⟩
    exact (List.mem_append.mp hc).elim (hzeros _ c) (hdigits c)
  · exact ⟨htake _, by simp [hne], hdrop _⟩

theorem layout_leading (negative : Bool) (h : 0 < s) (exponent : ℤ) :
    (layout negative s exponent).int.head? = some '0' →
      (layout negative s exponent).int = ['0'] := by
  have hhead := toDigits_head h
  obtain ⟨d, ds, hds⟩ := List.exists_cons_of_ne_nil (Nat.toDigits_ne_nil (b := 10) (n := s))
  rw [hds] at hhead
  have hd : d ≠ '0' := by simpa using hhead
  unfold layout
  dsimp only
  rw [hds]
  split_ifs with hwhole hpoint hsmall
  · simp [hd]
  · obtain ⟨n, hn⟩ : ∃ n, (exponent + (d :: ds).length).toNat = n + 1 :=
      ⟨(exponent + (d :: ds).length).toNat - 1, by omega⟩
    rw [hn]
    simp [hd]
  · simp
  · simp [hd]

theorem layout_valid (negative : Bool) (h : 0 < s) (exponent : ℤ) :
    (layout negative s exponent).Valid := by
  obtain ⟨hint, hne, hfrac⟩ := layout_digits negative s exponent
  exact ⟨hint, hne, layout_leading negative h exponent, hfrac⟩

theorem layout_magnitude (negative : Bool) (s : ℕ) (exponent : ℤ) :
    (layout negative s exponent).magnitude = s * 10 ^ exponent := by
  have hvalue := Nat.ofDigitChars_ten_toDigits (n := s)
  have hpos := Nat.length_toDigits_pos (b := 10) (n := s)
  unfold layout
  dsimp only
  generalize Nat.toDigits 10 s = digits at hvalue hpos
  split_ifs with hwhole hpoint hsmall
  · obtain ⟨e, rfl⟩ := Int.eq_ofNat_of_zero_le (show 0 ≤ exponent by omega)
    simp [Numeral.magnitude, Nat.ofDigitChars_append, hvalue, mul_comm]
  · have hle : (exponent + digits.length).toNat ≤ digits.length := by omega
    have hexponent : (0 : ℤ) - (digits.drop (exponent + digits.length).toNat).length = exponent := by
      rw [List.length_drop]
      omega
    simp only [Numeral.magnitude, List.take_append_drop, hvalue, hexponent]
  · have hexponent : (0 : ℤ) -
        (List.replicate (-(exponent + digits.length)).toNat '0' ++ digits).length = exponent := by
      rw [List.length_append, List.length_replicate]
      omega
    simp only [Numeral.magnitude, hexponent, ← List.append_assoc, List.singleton_append,
      ← List.replicate_succ, Nat.ofDigitChars_append, Nat.ofDigitChars_replicate_zero,
      Nat.mul_zero, hvalue]
  · have hexponent : exponent + digits.length - 1 - (digits.drop 1).length = exponent := by
      rw [List.length_drop]
      omega
    simp only [Numeral.magnitude, List.take_append_drop, hvalue, hexponent]

theorem significand?_some {x : ℚ} (h : significand? x exponent = some s) :
    0 < s ∧ round (s * 10 ^ exponent) = .finite x := by
  simpa using List.find?_some h

/-- A positive double is a multiple of the least one. -/
theorem exact_multiple {x : ℚ} (hx : 0 < x) (h : Exact x) :
    ∃ m : ℤ, ∃ e : ℤ, -1074 ≤ e ∧ x = m * 2 ^ e := by
  simp only [Exact, round, hx.ne', not_lt.mpr hx.le, if_false, roundPositive] at h
  split at h
  · cases h
  · refine ⟨roundEven (x / spacing x), max (Int.log 2 x - 52) (-1074), le_max_right _ _, ?_⟩
    exact (Double.finite.inj h).symm

theorem multiple_scaled (m : ℤ) {e : ℤ} {k : ℕ} (h : -k ≤ e) :
    ∃ z : ℤ, (m * 2 ^ e : ℚ) * 10 ^ k = z := by
  obtain ⟨j, hj⟩ := Int.eq_ofNat_of_zero_le (show 0 ≤ e + k by omega)
  refine ⟨m * 2 ^ j * 5 ^ k, ?_⟩
  have hpow : (2 : ℚ) ^ e * 2 ^ k = 2 ^ j := by
    rw [← zpow_natCast, ← zpow_natCast, ← zpow_add₀ (by norm_num), hj]
  have hten : (10 : ℚ) ^ k = 2 ^ k * 5 ^ k := by
    rw [← mul_pow]
    norm_num
  push_cast
  rw [hten, ← hpow]
  ring

theorem scaled_back {x : ℚ} {k : ℕ} {z : ℤ} (hx : 0 < x) (h : x * 10 ^ k = z) :
    0 < ⌊x * 10 ^ k⌋.toNat ∧ (⌊x * 10 ^ k⌋.toNat : ℚ) * 10 ^ (-(k : ℤ)) = x := by
  have hten : (0 : ℚ) < 10 ^ k := by positivity
  have hz : 0 < z := by
    have hpos := mul_pos hx hten
    rw [h] at hpos
    exact_mod_cast hpos
  have hcast : ((z.toNat : ℕ) : ℚ) = z := by
    rw [← Int.cast_natCast, Int.toNat_of_nonneg hz.le]
  rw [h, Int.floor_intCast, hcast, ← h, zpow_neg, zpow_natCast]
  exact ⟨by omega, mul_inv_cancel_right₀ hten.ne' x⟩

theorem shortest_spec {x : ℚ} (hx : 0 < x) (h : Exact x) :
    0 < (shortest x).1 ∧ round ((shortest x).1 * 10 ^ (shortest x).2) = .finite x := by
  unfold shortest
  dsimp only
  cases hfound : (List.range 17).findSome? fun (i : ℕ) =>
      (significand? x (Int.log 10 x - i)).map fun s =>
        if s = 10 ^ (i + 1) then (1, Int.log 10 x - i + (i + 1)) else (s, Int.log 10 x - i) with
  | some found =>
    obtain ⟨i, -, hi⟩ := List.exists_of_findSome?_eq_some hfound
    obtain ⟨s, hs, rfl⟩ := Option.map_eq_some_iff.mp hi
    obtain ⟨hpos, hround⟩ := significand?_some hs
    rw [Option.getD_some]
    split_ifs with hten
    · refine ⟨Nat.one_pos, ?_⟩
      rw [zpow_add₀ (by norm_num), ← hround, hten]
      push_cast
      congr 1
      rw [show ((i : ℤ) + 1) = ((i + 1 : ℕ) : ℤ) by push_cast; rfl, zpow_natCast]
      ring
    · exact ⟨hpos, hround⟩
  | none =>
    obtain ⟨m, e, he, hx'⟩ := exact_multiple hx h
    obtain ⟨z, hz⟩ := multiple_scaled m (k := 1074) (by simpa using he)
    rw [← hx'] at hz
    obtain ⟨hpos, hback⟩ := scaled_back hx hz
    rw [Option.getD_none]
    refine ⟨hpos, ?_⟩
    have hround : round ((⌊x * 10 ^ 1074⌋.toNat : ℚ) * 10 ^ (-((1074 : ℕ) : ℤ))) = .finite x := by
      rw [hback]
      exact h
    exact hround

theorem exact_abs {x : ℚ} (h : Exact x) : Exact |x| := by
  rcases abs_choice x with habs | habs <;> rw [habs]
  · exact h
  · exact exact_neg h

theorem numeral_valid {x : ℚ} (h : Exact x) : (numeral x).Valid := by
  unfold numeral
  split_ifs with hzero
  · exact ⟨by simp, by simp, by simp, by simp⟩
  · exact layout_valid _ (shortest_spec (abs_pos.mpr hzero) (exact_abs h)).1 _

theorem layout_value (negative : Bool) (s : ℕ) (exponent : ℤ) :
    (layout negative s exponent).value =
      if negative then -(s * 10 ^ exponent : ℚ) else s * 10 ^ exponent := by
  have hnegative : (layout negative s exponent).negative = negative := by
    unfold layout
    dsimp only
    split_ifs <;> rfl
  rw [Numeral.value, hnegative, layout_magnitude]

theorem round_numeral {x : ℚ} (h : Exact x) : round (numeral x).value = .finite x := by
  unfold numeral
  split_ifs with hzero
  · subst hzero
    simp [Numeral.value, Numeral.magnitude, Nat.ofDigitChars_cons, round]
  · have hround := (shortest_spec (abs_pos.mpr hzero) (exact_abs h)).2
    rw [layout_value]
    by_cases hneg : x < 0
    · rw [if_pos (decide_eq_true hneg), round_neg, hround, neg, abs_of_neg hneg, neg_neg]
    · rw [if_neg (by simpa using hneg), hround, abs_of_nonneg (not_lt.mp hneg)]

/-- A number that is a double is read back from its text. -/
theorem read_text {x : ℚ} (h : Exact x) {rest : List Char} (hrest : EndsNumber rest) :
    readNumeral (text (.finite x) ++ rest) = some (numeral x, rest) :=
  readNumeral_text (numeral_valid h) hrest

-- ---------------------------------------------------------------------------
-- The characters of a number
-- ---------------------------------------------------------------------------

theorem numeral_digits (x : ℚ) : (∀ c ∈ (numeral x).int, c.isDigit = true) ∧
    (numeral x).int ≠ [] ∧ ∀ c ∈ (numeral x).frac, c.isDigit = true := by
  unfold numeral
  split_ifs
  · simp
  · exact layout_digits _ _ _

/-- The characters a number is written with. -/
def isNumberChar (c : Char) : Bool := c.isAlphanum || c == '-' || c == '+' || c == '.'

theorem isNumberChar_digit (h : c.isDigit = true) : isNumberChar c = true := by
  simp [isNumberChar, Char.isAlphanum, h]

theorem text_chars (n : Double) : ∀ c ∈ n.text, isNumberChar c = true := by
  cases n with
  | infinite negative => cases negative <;> exact List.forall_iff_forall_mem.mp (by decide)
  | finite x =>
    have hnumeral := numeral_digits x
    intro c hc
    change c ∈ (numeral x).text at hc
    generalize numeral x = n at hnumeral hc
    obtain ⟨hint, -, hfrac⟩ := hnumeral
    simp only [Numeral.text, List.mem_append] at hc
    rcases hc with hc | hc | hc | hc
    · unfold Numeral.signText at hc
      split_ifs at hc
      · obtain rfl := List.mem_singleton.mp hc
        rfl
      · cases hc
    · exact isNumberChar_digit (hint c hc)
    · unfold Numeral.fracText at hc
      split_ifs at hc
      · cases hc
      · rcases List.mem_cons.mp hc with rfl | hc
        · rfl
        · exact isNumberChar_digit (hfrac c hc)
    · unfold Numeral.exponentText at hc
      split_ifs at hc
      · cases hc
      all_goals
        rcases List.mem_cons.mp hc with rfl | hc
        · rfl
        rcases List.mem_cons.mp hc with rfl | hc
        · rfl
        · exact isNumberChar_digit (toDigits_isDigit _ c hc)

theorem text_ne_nil (n : Double) : n.text ≠ [] := by
  cases n with
  | infinite negative => cases negative <;> decide
  | finite x =>
    have hne := (numeral_digits x).2.1
    change (numeral x).text ≠ []
    generalize numeral x = n at hne ⊢
    simp [Numeral.text, hne]

end Double

end Lib
