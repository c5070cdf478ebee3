import Mathlib.Algebra.Order.Ring.Nat

/-!
# The Gregorian calendar

Dates from the year 0 on, and the days there are before a date, counted year by year and month by month.

## What is proved

* `dayOfYear_lt` — a date is within its year.
* `count_le_of_noLater` — **a date that is no later has no more days before it**.
-/

namespace NestDdd.Theory

/-- Whether a year has a 29th of February. -/
def isLeap (year : ℕ) : Bool := year % 4 == 0 && (year % 100 != 0 || year % 400 == 0)

/-- The days of a month. -/
def monthDays (year : ℕ) : ℕ → ℕ
  | 2 => if isLeap year then 29 else 28
  | 4 | 6 | 9 | 11 => 30
  | _ => 31

/-- The days of a year. -/
def yearDays (year : ℕ) : ℕ := if isLeap year then 366 else 365

/-- A date. -/
structure Date where
  /-- The year. -/
  year : ℕ
  /-- The month, from 1 on. -/
  month : ℕ
  /-- The day of the month, from 1 on. -/
  day : ℕ
  /-- There are twelve months. -/
  month_mem : 1 ≤ month ∧ month ≤ 12
  /-- The month has the day. -/
  day_mem : 1 ≤ day ∧ day ≤ monthDays year month
  deriving DecidableEq

/-- The days before a year. -/
def daysBeforeYear : ℕ → ℕ
  | 0 => 0
  | year + 1 => daysBeforeYear year + yearDays year

/-- The days of the first `n` months of a year. -/
def daysOfMonths (year : ℕ) : ℕ → ℕ
  | 0 => 0
  | n + 1 => daysOfMonths year n + monthDays year (n + 1)

namespace Date

/-- The days of the year before a date. -/
def dayOfYear (d : Date) : ℕ := daysOfMonths d.year (d.month - 1) + (d.day - 1)

/-- The days before a date, from the first of January of the year 0 on. -/
def count (d : Date) : ℕ := daysBeforeYear d.year + d.dayOfYear

/-- No later: by year, then by month, then by day. -/
def NoLater (d e : Date) : Prop :=
  d.year < e.year ∨ (d.year = e.year ∧ (d.month < e.month ∨ (d.month = e.month ∧ d.day ≤ e.day)))

end Date

variable {d e : Date} {year n m : ℕ}

theorem daysOfMonths_twelve (year : ℕ) : daysOfMonths year 12 = yearDays year := by
  simp only [daysOfMonths, monthDays, yearDays]
  split <;> rfl

theorem daysOfMonths_mono (year : ℕ) (h : n ≤ m) : daysOfMonths year n ≤ daysOfMonths year m := by
  induction h with
  | refl => exact Nat.le_refl _
  | step _ ih => exact ih.trans (Nat.le_add_right _ _)

theorem daysBeforeYear_mono (h : n ≤ m) : daysBeforeYear n ≤ daysBeforeYear m := by
  induction h with
  | refl => exact Nat.le_refl _
  | step _ ih => exact ih.trans (Nat.le_add_right _ _)

/-- A date is within its month. -/
theorem dayOfYear_lt_month (d : Date) : d.dayOfYear < daysOfMonths d.year d.month := by
  obtain ⟨hmonth, -⟩ := d.month_mem
  obtain ⟨hfirst, hlast⟩ := d.day_mem
  obtain ⟨n, hn⟩ : ∃ n, d.month = n + 1 := ⟨d.month - 1, by omega⟩
  rw [hn] at hlast
  rw [Date.dayOfYear, hn, Nat.add_sub_cancel, daysOfMonths]
  omega

/-- A date is within its year. -/
theorem dayOfYear_lt (d : Date) : d.dayOfYear < yearDays d.year := by
  rw [← daysOfMonths_twelve]
  exact lt_of_lt_of_le (dayOfYear_lt_month d) (daysOfMonths_mono d.year d.month_mem.2)

/-- **A date that is no later has no more days before it.** -/
theorem count_le_of_noLater (h : d.NoLater e) : d.count ≤ e.count := by
  have hlt := dayOfYear_lt d
  rcases h with hyear | ⟨hyear, hmonth | ⟨hmonth, hday⟩⟩
  · have hmono := daysBeforeYear_mono (show d.year + 1 ≤ e.year from hyear)
    rw [daysBeforeYear] at hmono
    rw [Date.count, Date.count]
    omega
  · have hwithin := dayOfYear_lt_month d
    have hmono := daysOfMonths_mono d.year (show d.month ≤ e.month - 1 by omega)
    rw [Date.count, Date.count, Date.dayOfYear.eq_def e, ← hyear]
    omega
  · rw [Date.count, Date.count, Date.dayOfYear, Date.dayOfYear, hyear, hmonth]
    omega

end NestDdd.Theory
