import EsigSuite.Lib.Calendar

/-!
# Times in UTC

Milliseconds since 1970 and the fields of a calendar and a clock. Fields past
their end carry over, as the setters of a JavaScript date have it. A year of
two digits stands for one of 1950 to 2049.
-/

namespace Lib.UtcTime

structure Fields where
  date : Date
  hour : Nat
  minute : Nat
  second : Nat

def Fields.ofMillis (t : Int) : Fields where
  date := .ofDays (t / 86400000)
  hour := (t % 86400000 / 3600000).toNat
  minute := (t % 3600000 / 60000).toNat
  second := (t % 60000 / 1000).toNat

def year (t : Int) : Int := (Fields.ofMillis t).date.year

/-- Months are counted from zero. -/
def makeTime (year month day hour minute second : Int) : Int :=
  let days := Date.toDays ⟨year + month / 12, (month % 12 + 1).toNat, 1⟩ + day - 1
  86400000 * days + 3600000 * hour + 60000 * minute + 1000 * second

/-- The year that two digits stand for. -/
def century (yy : Nat) : Int := if 50 ≤ yy then 1900 + yy else 2000 + yy

/-- The time of six fields of two digits. -/
def ofTwoDigits (yy month day hour minute second : Nat) : Int :=
  makeTime (century yy) (month - 1) day hour minute second

/-- The start of the second. -/
def toSecond (t : Int) : Int := 1000 * (t / 1000)

-- ---------------------------------------------------------------------------
-- Fields
-- ---------------------------------------------------------------------------

theorem Fields.valid (t : Int) : (Fields.ofMillis t).date.Valid := Date.ofDays_valid _

theorem Fields.clock (t : Int) :
    (Fields.ofMillis t).hour < 24 ∧ (Fields.ofMillis t).minute < 60 ∧
      (Fields.ofMillis t).second < 60 := by
  simp only [ofMillis]
  omega

theorem toDays_day (year : Int) (month day : Nat) :
    Date.toDays ⟨year, month, day⟩ = Date.toDays ⟨year, month, 1⟩ + day - 1 := by
  simp only [Date.toDays]
  omega

theorem makeTime_date {year : Int} {month : Nat} (hmonth : 1 ≤ month ∧ month ≤ 12)
    (day hour minute second : Nat) :
    makeTime year (month - 1) day hour minute second =
      86400000 * Date.toDays ⟨year, month, day⟩ + 3600000 * hour + 60000 * minute +
        1000 * second := by
  have hyear : ((month : Int) - 1) / 12 = 0 := by omega
  have hindex : (((month : Int) - 1) % 12 + 1).toNat = month := by omega
  rw [makeTime, hyear, hindex, add_zero, toDays_day year month day]

/-- The fields of a time give it back to the second. -/
theorem makeTime_ofMillis (t : Int) :
    makeTime (year t) ((Fields.ofMillis t).date.month - 1) (Fields.ofMillis t).date.day
      (Fields.ofMillis t).hour (Fields.ofMillis t).minute (Fields.ofMillis t).second =
        toSecond t := by
  have hdays : Date.toDays ⟨year t, (Fields.ofMillis t).date.month,
      (Fields.ofMillis t).date.day⟩ = t / 86400000 := Date.toDays_ofDays _
  rw [makeTime_date (Fields.valid t).month, hdays]
  simp only [Fields.ofMillis, toSecond]
  omega

/-- Two digits are enough for the years 1950 to 2049. -/
theorem century_year {y : Int} (h : 1950 ≤ y ∧ y < 2050) : century (y % 100).toNat = y := by
  unfold century
  split <;> omega

-- ---------------------------------------------------------------------------
-- Years and times
-- ---------------------------------------------------------------------------

theorem toDays_bounds {d : Date} (h : d.Valid) :
    Date.daysBeforeYear (d.year - 1) - 719468 ≤ d.toDays ∧
      d.toDays ≤ Date.daysBeforeYear d.year + 367 - 719468 := by
  obtain ⟨hmonth, hday⟩ := h
  simp only [Date.toDays, Date.daysBeforeMonth, Date.daysBeforeYear]
  split_ifs <;> omega

/-- Years that are more than three apart are in the order of their days. -/
theorem daysBeforeYear_lt {y z : Int} (h : y + 4 ≤ z) :
    Date.daysBeforeYear y + 400 < Date.daysBeforeYear (z - 1) := by
  simp only [Date.daysBeforeYear]
  omega

theorem makeTime_lt {y month day hour minute second t : Int} (hday : day ≤ 31)
    (hhour : hour ≤ 31) (hminute : minute ≤ 59) (hsecond : second ≤ 59)
    (h : y + month / 12 + 4 ≤ year t) : makeTime y month day hour minute second < toSecond t := by
  have hmonth : 1 ≤ (month % 12 + 1).toNat ∧ (month % 12 + 1).toNat ≤ 12 := by omega
  obtain ⟨-, hle⟩ := toDays_bounds (d := ⟨y + month / 12, (month % 12 + 1).toNat, 1⟩)
    ⟨hmonth, Nat.le_refl 1, Nat.one_le_ofNat⟩
  obtain ⟨hge, -⟩ := toDays_bounds (Fields.valid t)
  have hlt := daysBeforeYear_lt h
  have hdays : (Fields.ofMillis t).date.toDays = t / 86400000 := Date.toDays_ofDays _
  rw [hdays] at hge
  rw [year] at hlt
  dsimp only at hle
  simp only [makeTime, toSecond]
  omega

/-- Fields that start with a year of four digits give a time before that year. -/
theorem ofTwoDigits_lt {t : Int} (h : 2050 ≤ year t ∧ year t ≤ 9999) {month day hour minute : Nat}
    (hmonth : month ≤ 12) (hday : day ≤ 31) (hhour : hour ≤ 59) (hminute : minute ≤ 59) :
    ofTwoDigits (year t / 100).toNat (year t % 100).toNat month day hour minute < toSecond t := by
  refine makeTime_lt (by omega) (by omega) (by omega) (by omega) ?_
  unfold century
  split <;> omega

end Lib.UtcTime
