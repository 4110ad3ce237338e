/-
  The calendar of the package `time`: days and dates.

  A day is the number of days since 1 January of the year 1, as an integer. `civil` is the date
  of a day, `daysOf` the day of a date.

  * `civil_valid`: the date of a day is one of the calendar.
  * `daysOf_civil`: the day of the date of a day is the day.
-/
import Mathlib.Tactic.Common

namespace OpenHpcWeb.Go

/-! ## Months -/

/-- `daysBefore`: the days before a month that starts a year without a leap day. -/
def daysBefore (month : Nat) : Nat :=
  [0, 31, 59, 90, 120, 151, 181, 212, 243, 273, 304, 334, 365].getD month 0

/-- The month and the day of a day of the year, the latter from 0. -/
def monthDay (leap : Bool) (yday : Nat) : Nat × Nat :=
  if leap ∧ yday = 59 then (2, 29)
  else
    let day := if leap ∧ 59 < yday then yday - 1 else yday
    -- no month is longer than 31 days, so this is the month or the one before
    let month := day / 31
    if daysBefore (month + 1) ≤ day then (month + 2, day - daysBefore (month + 1) + 1)
    else (month + 1, day - daysBefore month + 1)

/-- The days of a month. -/
def daysInMonth (leap : Bool) (month : Nat) : Nat :=
  if leap ∧ month = 2 then 29 else daysBefore month - daysBefore (month - 1)

/-- The day of the year of a month and a day. -/
def yearDayOf (leap : Bool) (month day : Nat) : Nat :=
  daysBefore (month - 1) + (if leap ∧ 3 ≤ month then 1 else 0) + (day - 1)

theorem monthDay_spec : ∀ leap : Bool, ∀ yday < 366, (yday < 365 ∨ leap = true) →
    1 ≤ (monthDay leap yday).1 ∧ (monthDay leap yday).1 ≤ 12 ∧ 1 ≤ (monthDay leap yday).2 ∧
      (monthDay leap yday).2 ≤ daysInMonth leap (monthDay leap yday).1 ∧
      yearDayOf leap (monthDay leap yday).1 (monthDay leap yday).2 = yday := by
  decide +kernel

theorem daysInMonth_le : ∀ leap : Bool, ∀ month < 13, daysInMonth leap month ≤ 31 := by
  decide

/-! ## Years -/

def isLeap (year : Int) : Bool := year % 4 = 0 ∧ (year % 100 ≠ 0 ∨ year % 400 = 0)

/-- The days before a year. -/
def daysBeforeYear (year : Int) : Int :=
  365 * (year - 1) + (year - 1) / 4 - (year - 1) / 100 + (year - 1) / 400

/-- The years before a day in its cycle of 400 years, cut into centuries, cycles of 4 years and
    years: the last century and the last year are a day longer. -/
def yearInCycle (day : Int) : Int :=
  let centuries := day / 36524 - day / 36524 / 4
  let rest := day - 36524 * centuries
  let fours := rest / 1461
  let rest := rest - 1461 * fours
  let years := rest / 365 - rest / 365 / 4
  100 * centuries + 4 * fours + years

/-- The year of a day. -/
def yearOf (day : Int) : Int := 400 * (day / 146097) + yearInCycle (day % 146097) + 1

/-- Centuries of a cycle. -/
theorem centuries_spec {day : Int} (h : 0 ≤ day ∧ day < 146097) :
    ∃ b rest, b = day / 36524 - day / 36524 / 4 ∧ rest = day - 36524 * b ∧ 0 ≤ b ∧ b ≤ 3 ∧
      0 ≤ rest ∧ rest ≤ 36524 ∧ (rest = 36524 → b = 3) :=
  ⟨_, _, rfl, rfl, by omega, by omega, by omega, by omega, by omega⟩

/-- Years of four. -/
theorem years_spec {rest : Int} (h : 0 ≤ rest ∧ rest < 1461) :
    ∃ e yday, e = rest / 365 - rest / 365 / 4 ∧ yday = rest - 365 * e ∧ 0 ≤ e ∧ e ≤ 3 ∧
      0 ≤ yday ∧ yday ≤ 365 ∧ (yday = 365 → e = 3) :=
  ⟨_, _, rfl, rfl, by omega, by omega, by omega, by omega, by omega⟩

/-- A day of a cycle, cut into centuries, cycles of 4 years, years and days. The last day of a
    leap year is the only one with 365 before it. -/
theorem yearInCycle_spec {day : Int} (h : 0 ≤ day ∧ day < 146097) :
    ∃ b c e yday, yearInCycle day = 100 * b + 4 * c + e ∧
      day = 36524 * b + 1461 * c + 365 * e + yday ∧ 0 ≤ b ∧ b ≤ 3 ∧ 0 ≤ c ∧ c ≤ 24 ∧ 0 ≤ e ∧ e ≤ 3 ∧
      0 ≤ yday ∧ yday ≤ 365 ∧ (yday = 365 → e = 3 ∧ (c ≠ 24 ∨ b = 3)) := by
  obtain ⟨b, rest, hb, hrest, hb0, hb3, hrest0, hrest1, hlast⟩ := centuries_spec h
  have hfour : 0 ≤ rest - 1461 * (rest / 1461) ∧ rest - 1461 * (rest / 1461) < 1461 := by omega
  obtain ⟨e, yday, he, hyday, he0, he3, hyday0, hyday1, hleap⟩ := years_spec hfour
  refine ⟨b, rest / 1461, e, yday, ?_, by omega, hb0, hb3, by omega, by omega, he0, he3, hyday0,
    hyday1, fun hend => ⟨hleap hend, ?_⟩⟩
  · unfold yearInCycle
    dsimp only
    rw [← hb, ← hrest, ← he]
  · have hthree := hleap hend
    omega

/-- The year of a day starts at most that day, and has the day. -/
theorem yearOf_spec (day : Int) : daysBeforeYear (yearOf day) ≤ day ∧
    day ≤ daysBeforeYear (yearOf day) + 365 ∧
    (day = daysBeforeYear (yearOf day) + 365 → isLeap (yearOf day) = true) := by
  have hcycle : 0 ≤ day % 146097 ∧ day % 146097 < 146097 :=
    ⟨Int.emod_nonneg _ (by decide), Int.emod_lt_of_pos _ (by decide)⟩
  obtain ⟨b, c, e, yday, hyear, hday, hb0, hb3, hc0, hc24, he0, he3, hy0, hy1, hleap⟩ :=
    yearInCycle_spec hcycle
  have hbefore : daysBeforeYear (yearOf day) =
      146097 * (day / 146097) + 36524 * b + 1461 * c + 365 * e := by
    have hyears : yearOf day - 1 = 400 * (day / 146097) + (100 * b + 4 * c + e) := by
      unfold yearOf
      omega
    have hfours : (yearOf day - 1) / 4 = 100 * (day / 146097) + 25 * b + c := by omega
    have hcenturies : (yearOf day - 1) / 100 = 4 * (day / 146097) + b := by omega
    have hcycles : (yearOf day - 1) / 400 = day / 146097 := by omega
    unfold daysBeforeYear
    omega
  refine ⟨by omega, by omega, fun hend => ?_⟩
  obtain ⟨hthree, hcentury⟩ := hleap (by omega)
  unfold isLeap yearOf
  rw [hyear, decide_eq_true_eq]
  omega

/-- The days of a year. -/
def yearDay (day : Int) : Nat := (day - daysBeforeYear (yearOf day)).toNat

/-! ## Dates -/

structure Date where
  year : Int
  month : Nat
  day : Nat
  deriving DecidableEq

/-- The date of a day. -/
def civil (day : Int) : Date :=
  let (month, dayOfMonth) := monthDay (isLeap (yearOf day)) (yearDay day)
  ⟨yearOf day, month, dayOfMonth⟩

/-- The day of a date. -/
def daysOf (date : Date) : Int :=
  daysBeforeYear date.year + yearDayOf (isLeap date.year) date.month date.day

/-- The dates of the calendar. -/
structure Date.Valid (date : Date) : Prop where
  month : 1 ≤ date.month ∧ date.month ≤ 12
  day : 1 ≤ date.day ∧ date.day ≤ daysInMonth (isLeap date.year) date.month

theorem monthDay_yearDay (day : Int) :
    let md := monthDay (isLeap (yearOf day)) (yearDay day)
    1 ≤ md.1 ∧ md.1 ≤ 12 ∧ 1 ≤ md.2 ∧ md.2 ≤ daysInMonth (isLeap (yearOf day)) md.1 ∧
      yearDayOf (isLeap (yearOf day)) md.1 md.2 = yearDay day := by
  obtain ⟨hle, hlt, hleap⟩ := yearOf_spec day
  have hday : yearDay day < 366 := by
    unfold yearDay
    omega
  have hlast : yearDay day < 365 ∨ isLeap (yearOf day) = true := by
    by_cases hend : day = daysBeforeYear (yearOf day) + 365
    · exact .inr (hleap hend)
    · left
      unfold yearDay
      omega
  exact monthDay_spec _ _ hday hlast

theorem civil_valid (day : Int) : (civil day).Valid := by
  obtain ⟨hmonth, hmonth', hday, hday', -⟩ := monthDay_yearDay day
  exact ⟨⟨hmonth, hmonth'⟩, ⟨hday, hday'⟩⟩

/-- A day is the day of its date. -/
theorem daysOf_civil (day : Int) : daysOf (civil day) = day := by
  have hle := (yearOf_spec day).1
  have hback : yearDayOf (isLeap (civil day).year) (civil day).month (civil day).day =
      yearDay day := (monthDay_yearDay day).2.2.2.2
  unfold daysOf
  rw [hback]
  show daysBeforeYear (yearOf day) + ((day - daysBeforeYear (yearOf day)).toNat : Int) = day
  omega

end OpenHpcWeb.Go
