import EsigSuite.Lib.Digits
import EsigSuite.Lib.UtcTime

/-!
# Times in ISO format

`toISOString` of a date, and what `Date.parse` reads from a text of that form.
Years outside four digits have a sign and six digits.
-/

namespace Lib.IsoTime

open UtcTime

/-- Dates are at most 100 million days from 1970. -/
def InRange (t : Int) : Prop := t.natAbs ≤ 8640000000000000

instance (t : Int) : Decidable (InRange t) := inferInstanceAs (Decidable (_ ≤ _))

def yearText (year : Int) : List Char :=
  if 0 ≤ year ∧ year ≤ 9999 then padded 4 year.toNat
  else (if year < 0 then '-' else '+') :: padded 6 year.natAbs

def toISOString (t : Int) : List Char :=
  let fields := Fields.ofMillis t
  yearText fields.date.year ++ '-' :: (padded 2 fields.date.month ++ '-' :: (padded 2 fields.date.day ++
    'T' :: (padded 2 fields.hour ++ ':' :: (padded 2 fields.minute ++ ':' :: (padded 2 fields.second ++
      '.' :: (padded 3 (t % 1000).toNat ++ ['Z']))))))

/-- The digits of a year, and what follows them. -/
def readDigitsOf (width : Nat) (text : List Char) : Option (Nat × List Char) :=
  let digits := text.take width
  if digits.length = width ∧ digits.all Char.isDigit then some (readNat digits, text.drop width)
  else none

/-- There is no year `-000000`. -/
def readYear : List Char → Option (Int × List Char)
  | '+' :: rest => (readDigitsOf 6 rest).map fun (year, rest) => ((year : Int), rest)
  | '-' :: rest => (readDigitsOf 6 rest).bind fun (year, rest) =>
    if year = 0 then none else some (-(year : Int), rest)
  | text => (readDigitsOf 4 text).map fun (year, rest) => ((year : Int), rest)

/-- `-MM-DDTHH:mm:ss.sssZ` after a year. The last hour of a day ends at `24:00`. -/
def readRest (year : Int) : List Char → Option Int
  | ['-', m₁, m₂, '-', d₁, d₂, 'T', h₁, h₂, ':', n₁, n₂, ':', s₁, s₂, '.', x₁, x₂, x₃, 'Z'] =>
    let month := readNat [m₁, m₂]
    let day := readNat [d₁, d₂]
    let hour := readNat [h₁, h₂]
    let minute := readNat [n₁, n₂]
    let second := readNat [s₁, s₂]
    let milli := readNat [x₁, x₂, x₃]
    if [m₁, m₂, d₁, d₂, h₁, h₂, n₁, n₂, s₁, s₂, x₁, x₂, x₃].all Char.isDigit ∧
        1 ≤ month ∧ month ≤ 12 ∧ 1 ≤ day ∧ day ≤ 31 ∧ minute ≤ 59 ∧ second ≤ 59 ∧
        (hour ≤ 23 ∨ (hour = 24 ∧ minute = 0 ∧ second = 0 ∧ milli = 0)) then
      some (makeTime year (month - 1) day hour minute second + milli)
    else none
  | _ => none

def readIso (text : List Char) : Option Int := do
  let (year, rest) ← readYear text
  let t ← readRest year rest
  if InRange t then some t else none

-- ---------------------------------------------------------------------------
-- A time comes back from its text
-- ---------------------------------------------------------------------------

theorem readDigitsOf_padded {width n : Nat} (hwidth : 0 < width) (h : n < 10 ^ width)
    (rest : List Char) : readDigitsOf width (padded width n ++ rest) = some (n, rest) := by
  have hlength := length_padded hwidth h
  have htake : (padded width n ++ rest).take width = padded width n := by
    rw [List.take_append_of_le_length (by omega), List.take_of_length_le (by omega)]
  have hdrop : (padded width n ++ rest).drop width = rest := by
    rw [List.drop_append_of_le_length (by omega), List.drop_of_length_le (by omega)]
    rfl
  have hdigits : (padded width n).all Char.isDigit = true :=
    List.all_eq_true.mpr fun c hc => padded_digit hc
  simp [readDigitsOf, htake, hdrop, hlength, hdigits]

theorem readYear_yearText {year : Int} (h : year.natAbs < 1000000) (rest : List Char) :
    readYear (yearText year ++ rest) = some (year, rest) := by
  unfold yearText
  split_ifs with hfour hneg
  · obtain ⟨c, digits, hc⟩ : ∃ c digits, padded 4 year.toNat = c :: digits :=
      List.exists_cons_of_length_pos (by
        rw [length_padded (by decide) (by omega)]
        decide)
    have hdigit : c.isDigit = true := padded_digit (hc ▸ List.mem_cons_self)
    have hread : readDigitsOf 4 (padded 4 year.toNat ++ rest) = some (year.toNat, rest) :=
      readDigitsOf_padded (by decide) (by omega) rest
    rw [hc, List.cons_append] at hread ⊢
    rw [readYear]
    · rw [hread]
      simp only [Option.map_some, Option.some.injEq, Prod.mk.injEq, and_true]
      omega
    · rintro _ ⟨rfl, _⟩
      exact absurd hdigit (by decide)
    · rintro _ ⟨rfl, _⟩
      exact absurd hdigit (by decide)
  · rw [List.cons_append, readYear, readDigitsOf_padded (by decide) h]
    simp only [Option.bind_some]
    rw [if_neg (by omega)]
    simp only [Option.some.injEq, Prod.mk.injEq, and_true]
    omega
  · rw [List.cons_append, readYear, readDigitsOf_padded (by decide) h]
    simp only [Option.map_some, Option.some.injEq, Prod.mk.injEq, and_true]
    omega

theorem year_bound {t : Int} (h : InRange t) : (year t).natAbs < 1000000 := by
  obtain ⟨hge, hle⟩ := toDays_bounds (Fields.valid t)
  have hdays : (Fields.ofMillis t).date.toDays = t / 86400000 := Date.toDays_ofDays _
  rw [hdays] at hge hle
  rw [InRange] at h
  simp only [Date.daysBeforeYear] at hge hle
  change (Fields.ofMillis t).date.year.natAbs < 1000000
  omega

theorem readRest_text (t : Int) :
    readRest (year t) ('-' :: (padded 2 (Fields.ofMillis t).date.month ++
      '-' :: (padded 2 (Fields.ofMillis t).date.day ++ 'T' :: (padded 2 (Fields.ofMillis t).hour ++
        ':' :: (padded 2 (Fields.ofMillis t).minute ++ ':' :: (padded 2 (Fields.ofMillis t).second ++
          '.' :: (padded 3 (t % 1000).toNat ++ ['Z'])))))))
      = some t := by
  obtain ⟨⟨hmonth, hmonth'⟩, hday, hday'⟩ := Fields.valid t
  obtain ⟨hhour, hminute, hsecond⟩ := Fields.clock t
  have htime := makeTime_ofMillis t
  obtain ⟨m₁, m₂, hm, hm₁, hm₂, hm'⟩ := padded_two (n := (Fields.ofMillis t).date.month) (by omega)
  obtain ⟨d₁, d₂, hd, hd₁, hd₂, hd'⟩ := padded_two (n := (Fields.ofMillis t).date.day) (by omega)
  obtain ⟨h₁, h₂, hh, hh₁, hh₂, hh'⟩ := padded_two (n := (Fields.ofMillis t).hour) (by omega)
  obtain ⟨n₁, n₂, hn, hn₁, hn₂, hn'⟩ := padded_two (n := (Fields.ofMillis t).minute) (by omega)
  obtain ⟨s₁, s₂, hs, hs₁, hs₂, hs'⟩ := padded_two (n := (Fields.ofMillis t).second) (by omega)
  obtain ⟨x₁, x₂, x₃, hx, hx₁, hx₂, hx₃, hx'⟩ := padded_three (n := (t % 1000).toNat) (by omega)
  rw [hm, hd, hh, hn, hs, hx]
  simp only [List.cons_append, List.nil_append, readRest, hm', hd', hh', hn', hs', hx', htime]
  rw [if_pos]
  · simp only [toSecond, Option.some.injEq]
    omega
  · refine ⟨by simp [*], hmonth, hmonth', hday, hday', by omega, by omega, .inl (by omega)⟩

theorem readIso_toISOString {t : Int} (h : InRange t) : readIso (toISOString t) = some t := by
  have hyear : (year t).natAbs < 1000000 := year_bound h
  unfold readIso toISOString
  dsimp only
  rw [show (Fields.ofMillis t).date.year = year t from rfl, readYear_yearText hyear]
  simp only [Option.bind_eq_bind, Option.bind_some]
  rw [readRest_text]
  simp [h]

end Lib.IsoTime
