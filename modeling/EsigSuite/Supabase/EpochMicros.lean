import EsigSuite.Supabase.RowChecks

/-!
# Timestamps read back

`timestamptzToEpochMicros` reads the text of a timestamp to the microsecond when
the year has four digits, the offset has no seconds and the number is a safe
integer.
-/

namespace EsigSuite.AuditLog

open Lib

-- ---------------------------------------------------------------------------
-- Digits and masks
-- ---------------------------------------------------------------------------

theorem padded_four {n : Nat} (h : n < 10000) : ∃ a b c d, padded 4 n = [a, b, c, d] ∧
    (a.isDigit = true ∧ b.isDigit = true ∧ c.isDigit = true ∧ d.isDigit = true) ∧
      readNat [a, b, c, d] = n := by
  have hlength := length_padded (show 0 < 4 by decide) h
  match hlist : padded 4 n, hlength with
  | [a, b, c, d], _ =>
    have hdigit : ∀ x ∈ [a, b, c, d], x.isDigit = true := by
      intro x hx
      rw [← hlist] at hx
      exact padded_digit hx
    refine ⟨a, b, c, d, rfl, ⟨?_, ?_, ?_, ?_⟩, by rw [← hlist, readNat_padded]⟩ <;>
      exact hdigit _ (by simp)

/-- The fraction that is left when its zeros are trimmed and padded again. -/
theorem fraction_spec {micros : Nat} (h : micros < 1000000) :
    let digits := (padded 6 micros).rdropWhile (· == '0')
    (∀ c ∈ digits, c.isDigit = true) ∧ digits.length ≤ 6 ∧
      readNat (digits ++ List.replicate (6 - digits.length) '0') = micros := by
  intro digits
  have hlength := length_padded (show 0 < 6 by decide) h
  have hsplit : digits ++ (padded 6 micros).rtakeWhile (· == '0') = padded 6 micros :=
    List.rdropWhile_append_rtakeWhile
  have hzeros : (padded 6 micros).rtakeWhile (· == '0') =
      List.replicate (6 - digits.length) '0' := by
    have hsum := congrArg List.length hsplit
    rw [List.length_append, hlength] at hsum
    rw [List.eq_replicate_iff]
    refine ⟨by omega, fun c hc => ?_⟩
    simpa using List.mem_rtakeWhile_imp hc
  refine ⟨fun c hc => ?_, ?_, ?_⟩
  · have hmem : c ∈ padded 6 micros := by
      rw [← hsplit]
      exact List.mem_append_left _ hc
    exact padded_digit hmem
  · have hsum := congrArg List.length hsplit
    rw [List.length_append, hlength] at hsum
    omega
  · rw [← hzeros, hsplit, readNat_padded]

-- ---------------------------------------------------------------------------
-- The parts of a timestamp
-- ---------------------------------------------------------------------------

/-- The fields of a timestamp with a year of four digits and an offset in minutes. -/
structure Fields where
  year : Nat
  month : Nat
  day : Nat
  hour : Nat
  minute : Nat
  second : Nat
  micros : Nat
  ahead : Bool
  offsetHours : Nat
  offsetMinutes : Nat

namespace Fields

structure InRange (f : Fields) : Prop where
  year : f.year < 10000
  month : 1 ≤ f.month ∧ f.month ≤ 12
  day : 1 ≤ f.day ∧ f.day ≤ 31
  hour : f.hour ≤ 23
  minute : f.minute ≤ 59
  second : f.second ≤ 59
  micros : f.micros < 1000000
  offsetHours : f.offsetHours ≤ 15
  offsetMinutes : f.offsetMinutes ≤ 59

def date (f : Fields) : Text :=
  padded 4 f.year ++ '-' :: (padded 2 f.month ++ '-' :: padded 2 f.day)

def time (f : Fields) : Text :=
  padded 2 f.hour ++ ':' :: (padded 2 f.minute ++ ':' :: padded 2 f.second)

def offset (f : Fields) : Text :=
  (if f.ahead then '+' else '-') :: (padded 2 f.offsetHours ++ ':' :: padded 2 f.offsetMinutes)

def text (f : Fields) : Text := f.date ++ 'T' :: (f.time ++ (fractionText f.micros ++ f.offset))

def minutesAhead (f : Fields) : Int :=
  (if f.ahead then (1 : Int) else -1) * (60 * f.offsetHours + f.offsetMinutes)

/-- Seconds since 1970-01-01 00:00:00 UTC. -/
def seconds (f : Fields) : Int :=
  86400 * (⟨f.year, f.month, f.day⟩ : Date).toDays + 3600 * f.hour + 60 * f.minute + f.second
    - 60 * f.minutesAhead

variable {f : Fields}

theorem offset_spec (h : f.InRange) : isOffset f.offset = true ∧ wholeOffset f.offset = f.offset ∧
    AuditLog.offsetMinutes f.offset = some f.minutesAhead := by
  have hhours := h.offsetHours
  obtain ⟨a, b, hab, ha, hb, hread⟩ := padded_two (n := f.offsetHours) (by omega)
  have hminutes := h.offsetMinutes
  obtain ⟨x, y, hxy, hx, hy, hread'⟩ := padded_two (n := f.offsetMinutes) (by omega)
  have hcolon : Char.isDigit ':' = false := by decide
  have hin : within 0 23 f.offsetHours = true ∧ within 0 59 f.offsetMinutes = true := by
    simp only [within, Bool.and_eq_true, decide_eq_true_eq]
    omega
  unfold offset
  rw [hab, hxy]
  refine ⟨?_, ?_, ?_⟩
  · cases f.ahead <;> simp [isOffset, fits, ha, hb, hx, hy]
  · simp [wholeOffset, fits, hcolon]
  · simp only [AuditLog.offsetMinutes, minutesAhead, List.cons_append, List.nil_append,
      List.take_succ_cons, List.take_zero, List.drop_succ_cons, List.drop_zero, List.head?_cons,
      hread, hread', hin.1, hin.2]
    cases f.ahead <;> simp

/-- The text splits where the pattern has its groups. -/
theorem match_text (h : f.InRange) : matchTimestamptz f.text =
    some { date := f.date, time := f.time, offset := f.offset,
           fraction := if (padded 6 f.micros).rdropWhile (· == '0') = [] then none
             else some ((padded 6 f.micros).rdropWhile (· == '0')) } := by
  obtain ⟨hoffset, -, -⟩ := offset_spec h
  obtain ⟨hdigits, hlength, -⟩ := fraction_spec h.micros
  have hsign : ∃ c rest, f.offset = c :: rest ∧ c ≠ '.' ∧ c.isDigit = false := by
    unfold offset
    cases f.ahead
    · exact ⟨'-', _, rfl, by decide, by decide⟩
    · exact ⟨'+', _, rfl, by decide, by decide⟩
  obtain ⟨c, rest, hc, hdot, hcdigit⟩ := hsign
  have hday : f.day < 100 := by have := h.day; omega
  have hmonth : f.month < 100 := by have := h.month; omega
  have hhour : f.hour < 100 := by have := h.hour; omega
  have hminute : f.minute < 100 := by have := h.minute; omega
  have hsecond : f.second < 100 := by have := h.second; omega
  obtain ⟨y₁, y₂, y₃, y₄, hy, ⟨hy₁, hy₂, hy₃, hy₄⟩, -⟩ := padded_four h.year
  obtain ⟨m₁, m₂, hm, hm₁, hm₂, -⟩ := padded_two hmonth
  obtain ⟨d₁, d₂, hd, hd₁, hd₂, -⟩ := padded_two hday
  obtain ⟨h₁, h₂, hh, hh₁, hh₂, -⟩ := padded_two hhour
  obtain ⟨n₁, n₂, hn, hn₁, hn₂, -⟩ := padded_two hminute
  obtain ⟨s₁, s₂, hs, hs₁, hs₂, -⟩ := padded_two hsecond
  have hfraction : fractionText f.micros ++ f.offset =
      (if (padded 6 f.micros).rdropWhile (· == '0') = [] then []
        else '.' :: (padded 6 f.micros).rdropWhile (· == '0')) ++ f.offset := rfl
  generalize (padded 6 f.micros).rdropWhile (· == '0') = digits at hdigits hlength hfraction
  unfold text date time
  rw [hfraction, hy, hm, hd, hh, hn, hs]
  by_cases hnil : digits = []
  · subst hnil
    simp [matchTimestamptz, fits, hc ▸ hoffset, hc, hdot, hy₁, hy₂, hy₃, hy₄, hm₁, hm₂, hd₁, hd₂,
      hh₁, hh₂, hn₁, hn₂, hs₁, hs₂]
  · have htake : (digits ++ c :: rest).takeWhile (·.isDigit) = digits := by
      rw [List.takeWhile_append_of_pos hdigits]
      simp [hcdigit]
    have hdrop : (digits ++ c :: rest).dropWhile (·.isDigit) = c :: rest := by
      rw [List.dropWhile_append_of_pos hdigits]
      simp [hcdigit]
    have hone : 1 ≤ digits.length := List.length_pos_iff.mpr hnil
    simp [matchTimestamptz, fits, hc ▸ hoffset, hc, hnil, htake, hdrop, hone, hlength, hy₁, hy₂,
      hy₃, hy₄, hm₁, hm₂, hd₁, hd₂, hh₁, hh₂, hn₁, hn₂, hs₁, hs₂]

theorem dateParse_text (h : f.InRange) :
    dateParse (f.date ++ 'T' :: (f.time ++ f.offset)) = some (1000 * f.seconds) := by
  obtain ⟨-, -, hoffset⟩ := offset_spec h
  have hday := h.day
  have hmonth := h.month
  have hhour := h.hour
  have hminute := h.minute
  have hsecond := h.second
  obtain ⟨y₁, y₂, y₃, y₄, hy, -, hyear'⟩ := padded_four h.year
  obtain ⟨m₁, m₂, hm, -, -, hmonth'⟩ := padded_two (n := f.month) (by omega)
  obtain ⟨d₁, d₂, hd, -, -, hday'⟩ := padded_two (n := f.day) (by omega)
  obtain ⟨h₁, h₂, hh, -, -, hhour'⟩ := padded_two (n := f.hour) (by omega)
  obtain ⟨n₁, n₂, hn, -, -, hminute'⟩ := padded_two (n := f.minute) (by omega)
  obtain ⟨s₁, s₂, hs, -, -, hsecond'⟩ := padded_two (n := f.second) (by omega)
  have hin : (within 1 12 f.month && within 1 31 f.day && within 0 59 f.minute &&
      within 0 59 f.second && (within 0 23 f.hour || f.hour == 24 && f.minute == 0 && f.second == 0)) =
        true := by
    simp only [within, Bool.and_eq_true, Bool.or_eq_true, decide_eq_true_eq]
    omega
  have hvalue : f.seconds = 86400 * (⟨f.year, f.month, f.day⟩ : Date).toDays + 3600 * f.hour +
      60 * f.minute + f.second - 60 * f.minutesAhead := rfl
  unfold date time
  rw [hy, hm, hd, hh, hn, hs]
  simp only [dateParse, List.cons_append, List.nil_append, List.append_assoc, List.drop_succ_cons,
    List.drop_zero, List.take_succ_cons, List.take_zero, hoffset, hyear', hmonth', hday', hhour',
    hminute', hsecond', hin, Option.bind_eq_bind, Option.bind_some, if_true, hvalue]

/-- Safe integers are read exactly. -/
theorem read_text (h : f.InRange) (hsafe : (1000000 * f.seconds).natAbs < 2 ^ 53)
    (hsafe' : (1000000 * f.seconds + f.micros).natAbs < 2 ^ 53) :
    timestamptzToEpochMicros f.text =
      some (.finite ((1000000 * f.seconds + f.micros : Int) : ℚ)) := by
  obtain ⟨-, hwhole, -⟩ := offset_spec h
  obtain ⟨-, hlength, hread⟩ := fraction_spec h.micros
  have hms : (1000 * f.seconds * 1000 : Int) = 1000000 * f.seconds := by ring
  have hfraction : readNat (((if (padded 6 f.micros).rdropWhile (· == '0') = [] then none
      else some ((padded 6 f.micros).rdropWhile (· == '0'))).getD ['0']) ++ List.replicate (6 -
        ((if (padded 6 f.micros).rdropWhile (· == '0') = [] then none
          else some ((padded 6 f.micros).rdropWhile (· == '0'))).getD ['0']).length) '0') =
            f.micros := by
    split_ifs with hnil
    · rw [hnil] at hread
      exact hread
    · exact hread
  have hexact := Double.exact_int hsafe
  have hexact' := Double.exact_int hsafe'
  simp only [Double.Exact] at hexact hexact'
  simp only [timestamptzToEpochMicros, match_text h, hwhole, dateParse_text h, hfraction,
    Option.bind_eq_bind, Option.bind_some, hms, hexact, plus]
  push_cast at hexact' ⊢
  rw [hexact']
  rfl

end Fields

-- ---------------------------------------------------------------------------
-- The text of the server
-- ---------------------------------------------------------------------------

/-- The day the session shows for a timestamp. -/
def localDate (zone : TimeZone) (t : Int) : Date :=
  Date.ofDays ((t + 1000000 * zone.offset t) / 86400000000)

/-- A year of four digits, an offset without seconds, and less than 9007199254
seconds from 1970, which is from 1684 to 2255. -/
structure Legible (zone : TimeZone) (t : Int) : Prop where
  year : 0 < (localDate zone t).year ∧ (localDate zone t).year < 10000
  offset : zone.offset t % 60 = 0
  safe : t.natAbs < 9007199254000000

def fieldsOf (zone : TimeZone) (t : Int) : Fields :=
  let inDay := ((t + 1000000 * zone.offset t) % 86400000000).toNat
  { year := (localDate zone t).year.toNat
    month := (localDate zone t).month
    day := (localDate zone t).day
    hour := inDay / 1000000 / 3600
    minute := inDay / 1000000 / 60 % 60
    second := inDay / 1000000 % 60
    micros := inDay % 1000000
    ahead := 0 ≤ zone.offset t
    offsetHours := (zone.offset t).natAbs / 3600
    offsetMinutes := (zone.offset t).natAbs / 60 % 60 }

variable {zone : TimeZone} {t : Int}

theorem fieldsOf_inRange (h : Legible zone t) : (fieldsOf zone t).InRange := by
  have hdate := Date.ofDays_valid ((t + 1000000 * zone.offset t) / 86400000000)
  have hyear := h.year
  have hbound := zone.bound t
  have hday : ((t + 1000000 * zone.offset t) % 86400000000).toNat < 86400000000 := by omega
  simp only [fieldsOf]
  refine ⟨?_, hdate.month, hdate.day, ?_, ?_, ?_, ?_, ?_, ?_⟩ <;> dsimp only <;> omega

theorem timestamptzText_fields (h : Legible zone t) :
    timestamptzText zone (.finite t) = (fieldsOf zone t).text := by
  have hyear := h.year
  have hoffset := h.offset
  have hseconds : (zone.offset t).natAbs % 60 = 0 := by omega
  have hyearText : yearText (localDate zone t).year = padded 4 (localDate zone t).year.toNat := by
    rw [yearText, if_pos hyear.1]
  have hoffsetText : offsetText (zone.offset t) = (fieldsOf zone t).offset := by
    by_cases hneg : zone.offset t < 0
    · simp [offsetText, Fields.offset, fieldsOf, hseconds, hneg, not_le.mpr hneg]
    · simp [offsetText, Fields.offset, fieldsOf, hseconds, hneg, not_lt.mp hneg]
  unfold timestamptzText Fields.text Fields.date Fields.time
  dsimp only
  rw [← localDate, hyearText, hoffsetText, if_pos hyear.1, List.append_nil]
  unfold fieldsOf
  simp only [List.append_assoc, List.cons_append]

theorem fieldsOf_seconds (h : Legible zone t) :
    1000000 * (fieldsOf zone t).seconds + (fieldsOf zone t).micros = t := by
  have hyear := h.year
  have hoffset := h.offset
  have hdays := Date.toDays_ofDays ((t + 1000000 * zone.offset t) / 86400000000)
  have hyear' : ((localDate zone t).year.toNat : Int) = (localDate zone t).year := by omega
  have hminutes : 60 * (fieldsOf zone t).minutesAhead = zone.offset t := by
    simp only [Fields.minutesAhead, fieldsOf, decide_eq_true_eq]
    split_ifs <;> omega
  simp only [Fields.seconds, hminutes]
  simp only [fieldsOf, hyear']
  change 1000000 * (86400 * (localDate zone t).toDays + _ + _ + _ - _) + _ = t
  rw [localDate, hdays]
  omega

theorem timestamptzToEpochMicros_text (h : Legible zone t) :
    timestamptzToEpochMicros (timestamptzText zone (.finite t)) = some (.finite (t : ℚ)) := by
  have hseconds := fieldsOf_seconds h
  have hmicros := (fieldsOf_inRange h).micros
  have hsafe := h.safe
  rw [timestamptzText_fields h, Fields.read_text (fieldsOf_inRange h) (by omega) (by omega), hseconds]

/-- The verifier gets the very text that the canonical payload has. -/
def ReadsExactly (zone : TimeZone) (createdAt : Timestamptz) : Prop :=
  ∃ micros, createdAt = .finite micros ∧
    ∃ x, timestamptzToEpochMicros (timestamptzText zone createdAt) = some x ∧ x.text = intText micros

theorem legible_reads (h : Legible zone t) : ReadsExactly zone (.finite t) := by
  have hsafe := h.safe
  exact ⟨t, rfl, _, timestamptzToEpochMicros_text h, Double.text_int (by omega)⟩

end EsigSuite.AuditLog
