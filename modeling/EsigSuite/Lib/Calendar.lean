import Mathlib.Tactic.Linarith
import Mathlib.Tactic.SplitIfs

/-!
# The Gregorian calendar

Days of the proleptic calendar and their numbers, with years counted from March
so that the leap day comes last.
-/

namespace Lib

/-- A day of the calendar; year 0 is before year 1. -/
structure Date where
  year : Int
  month : Nat
  day : Nat
deriving DecidableEq, Repr

namespace Date

structure Valid (d : Date) : Prop where
  month : 1 ≤ d.month ∧ d.month ≤ 12
  day : 1 ≤ d.day ∧ d.day ≤ 31

/-- Days before a year that starts in March. -/
def daysBeforeYear (year : Int) : Int := 365 * year + year / 4 - year / 100 + year / 400

/-- Days before a month of such a year. -/
def daysBeforeMonth (month : Nat) : Nat := (153 * month + 2) / 5

/-- Days since 1970-01-01. -/
def toDays (d : Date) : Int :=
  let year := if d.month ≤ 2 then d.year - 1 else d.year
  let month := if d.month ≤ 2 then d.month + 9 else d.month - 3
  daysBeforeYear year + daysBeforeMonth month + d.day - 1 - 719468

/-- The year that starts in March and the day in it. -/
def marchYear (days : Int) : Int × Nat :=
  let inCycle := days % 146097
  let century := min (inCycle / 36524) 3
  let inCentury := inCycle - 36524 * century
  let single := min (inCentury % 1461 / 365) 3
  (400 * (days / 146097) + 100 * century + 4 * (inCentury / 1461) + single,
    (inCentury % 1461 - 365 * single).toNat)

def ofMarch (year : Int) (day : Nat) : Date :=
  let month := (5 * day + 2) / 153
  { year := if month < 10 then year else year + 1
    month := if month < 10 then month + 3 else month - 9
    day := day - daysBeforeMonth month + 1 }

def ofDays (days : Int) : Date :=
  ofMarch (marchYear (days + 719468)).1 (marchYear (days + 719468)).2

-- ---------------------------------------------------------------------------
-- A day comes back from its number
-- ---------------------------------------------------------------------------

theorem daysBeforeYear_parts {century leap single : Int} (cycle : Int)
    (hc : 0 ≤ century ∧ century ≤ 3) (hl : 0 ≤ leap ∧ leap ≤ 24) (hs : 0 ≤ single ∧ single ≤ 3) :
    daysBeforeYear (400 * cycle + 100 * century + 4 * leap + single) =
      146097 * cycle + 36524 * century + 1461 * leap + 365 * single := by
  unfold daysBeforeYear
  omega

theorem marchYear_spec (days : Int) :
    daysBeforeYear (marchYear days).1 + (marchYear days).2 = days ∧ (marchYear days).2 ≤ 365 := by
  simp only [marchYear]
  generalize hcentury : min (days % 146097 / 36524) 3 = century
  generalize hcycle : days % 146097 - 36524 * century = inCentury
  generalize hsingle : min (inCentury % 1461 / 365) 3 = single
  rw [daysBeforeYear_parts _ (by omega) (by omega) (by omega)]
  omega

theorem daysBeforeMonth_le (day : Nat) : daysBeforeMonth ((5 * day + 2) / 153) ≤ day := by
  unfold daysBeforeMonth
  omega

theorem lt_daysBeforeMonth (day : Nat) : day - daysBeforeMonth ((5 * day + 2) / 153) < 31 := by
  unfold daysBeforeMonth
  omega

theorem toDays_ofMarch (year : Int) {day : Nat} (h : day ≤ 365) :
    (ofMarch year day).toDays = daysBeforeYear year + day - 719468 := by
  have hle := daysBeforeMonth_le day
  by_cases hmonth : (5 * day + 2) / 153 < 10
  · simp only [ofMarch, toDays, if_pos hmonth, Nat.add_sub_cancel]
    rw [if_neg (by omega), if_neg (by omega)]
    omega
  · simp only [ofMarch, toDays, if_neg hmonth]
    rw [if_pos (by omega), if_pos (by omega), Nat.sub_add_cancel (by omega), add_sub_cancel_right]
    omega

theorem toDays_ofDays (days : Int) : (ofDays days).toDays = days := by
  obtain ⟨hyear, hday⟩ := marchYear_spec (days + 719468)
  rw [ofDays, toDays_ofMarch _ hday, hyear]
  omega

theorem ofMarch_valid (year : Int) {day : Nat} (h : day ≤ 365) : (ofMarch year day).Valid := by
  have hlt := lt_daysBeforeMonth day
  refine ⟨?_, ?_⟩
  · simp only [ofMarch]
    split_ifs <;> omega
  · simp only [ofMarch]
    omega

theorem ofDays_valid (days : Int) : (ofDays days).Valid :=
  ofMarch_valid _ (marchYear_spec (days + 719468)).2

example : ofDays 19782 = ⟨2024, 2, 29⟩ := by decide +kernel

end Date

end Lib
