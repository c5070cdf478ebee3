import Mathlib.Data.Int.LeastGreatest
import NestDdd.Shared.IsoDate

/-!
# Dates of the language

`Date.parse` of the midnight of a date and `toUTCString`, with the functions ECMAScript defines them by, and a reader
of the date in an HTTP header.

## What is proved

* `dayFromYear_eq`, `makeDay_eq` — the days of ECMAScript are those of the calendar.
* `readHttpDate_toUTCString` — **what `toUTCString` writes of the midnight of a date is read back as it**.
-/

namespace NestDdd.Shared

open NestDdd.Theory

/-! ### Days and years -/

/-- `DayFromYear(y)`. -/
def dayFromYear (y : ℤ) : ℤ := 365 * (y - 1970) + (y - 1969) / 4 - (y - 1901) / 100 + (y - 1601) / 400

/-- `InLeapYear`, as a number. -/
def leapDay (y : ℤ) : ℤ := if y % 4 = 0 ∧ (y % 100 ≠ 0 ∨ y % 400 = 0) then 1 else 0

/-- Where the month `m` begins in a year, counted from 0. -/
def monthStart (leap : ℤ) : ℕ → ℤ
  | 0 => 0
  | 1 => 31
  | 2 => 59 + leap
  | 3 => 90 + leap
  | 4 => 120 + leap
  | 5 => 151 + leap
  | 6 => 181 + leap
  | 7 => 212 + leap
  | 8 => 243 + leap
  | 9 => 273 + leap
  | 10 => 304 + leap
  | 11 => 334 + leap
  | _ => 365 + leap

/-- `MakeDay(y, m, d)`. -/
def makeDay (y : ℤ) (m : ℕ) (d : ℤ) : ℤ := dayFromYear y + monthStart (leapDay y) m + (d - 1)

theorem dayFromYear_bound {day y : ℤ} (h : dayFromYear y ≤ day) : y ≤ 1970 + day.natAbs := by
  rw [dayFromYear] at h
  omega

theorem exists_dayFromYear (day : ℤ) : ∃ y, dayFromYear y ≤ day := by
  refine ⟨1970 - day.natAbs, ?_⟩
  rw [dayFromYear]
  omega

/-- `YearFromTime`: the largest year that has begun on a day. -/
def yearFromDay (day : ℤ) : ℤ :=
  (Int.greatestOfBdd (1970 + day.natAbs) (fun _ h => dayFromYear_bound h) (exists_dayFromYear day)).1

/-- `MonthFromTime`, of a day within a year. -/
def monthFromDay (leap dayInYear : ℤ) : ℕ := Nat.findGreatest (fun m => monthStart leap m ≤ dayInYear) 11

/-- `YearFromTime` is the year the day is in. -/
theorem yearFromDay_eq {day y : ℤ} (h : dayFromYear y ≤ day) (hlt : day < dayFromYear (y + 1)) :
    yearFromDay day = y := by
  obtain ⟨hle, hmax⟩ :=
    (Int.greatestOfBdd (1970 + day.natAbs) (fun _ h => dayFromYear_bound h) (exists_dayFromYear day)).2
  apply le_antisymm
  · by_contra hnot
    have hnext : y + 1 ≤ yearFromDay day := by omega
    have hmono : dayFromYear (y + 1) ≤ dayFromYear (yearFromDay day) := by
      rw [dayFromYear, dayFromYear]
      omega
    rw [yearFromDay] at hmono
    omega
  · exact hmax y h

/-! ### The days of the calendar -/

variable {d : Date}

theorem leapDay_eq (year : ℕ) : leapDay year = if isLeap year then 1 else 0 := by
  rw [leapDay]
  congr 1
  simp only [isLeap, Bool.and_eq_true, Bool.or_eq_true, beq_iff_eq, bne_iff_ne, eq_iff_iff]
  omega

/-- **Years begin where the calendar has them**; the first of January of 1970 is the day 719528. -/
theorem dayFromYear_eq (year : ℕ) : dayFromYear year = daysBeforeYear year - 719528 := by
  induction year with
  | zero => rfl
  | succ year ih =>
    have hleap := leapDay_eq year
    rw [leapDay] at hleap
    have hstep : dayFromYear (year + 1 : ℕ) = dayFromYear year + 365 + leapDay year := by
      rw [dayFromYear, dayFromYear, leapDay]
      push_cast
      split <;> omega
    rw [hstep, ih, daysBeforeYear, yearDays, leapDay_eq]
    split <;> push_cast <;> omega

theorem daysOfMonths_eq (year : ℕ) {n : ℕ} (h : n ≤ 12) : (daysOfMonths year n : ℤ) = monthStart (leapDay year) n := by
  rw [leapDay_eq]
  cases hleap : isLeap year <;> interval_cases n <;> simp [daysOfMonths, monthDays, monthStart, hleap]

/-- **A date is the day the calendar has it on.** -/
theorem makeDay_eq (d : Date) : makeDay d.year (d.month - 1) d.day = d.count - 719528 := by
  obtain ⟨hmonth, hmonth'⟩ := d.month_mem
  obtain ⟨hday, -⟩ := d.day_mem
  rw [makeDay, dayFromYear_eq, ← daysOfMonths_eq d.year (show d.month - 1 ≤ 12 by omega), Date.count, Date.dayOfYear]
  push_cast [Nat.cast_sub hday]
  ring

theorem monthStart_mono (year : ℕ) {n m : ℕ} (h : n ≤ m) (hm : m ≤ 12) :
    monthStart (leapDay year) n ≤ monthStart (leapDay year) m := by
  rw [← daysOfMonths_eq year (h.trans hm), ← daysOfMonths_eq year hm]
  exact_mod_cast daysOfMonths_mono year h

/-- **The year of a date's day is its year.** -/
theorem yearFromDay_count (d : Date) : yearFromDay (d.count - 719528) = d.year := by
  have hlt := dayOfYear_lt d
  have hnext := dayFromYear_eq (d.year + 1)
  rw [daysBeforeYear] at hnext
  push_cast at hnext
  apply yearFromDay_eq
  · rw [dayFromYear_eq, Date.count]
    push_cast
    omega
  · rw [hnext, Date.count]
    push_cast
    omega

/-- **The month of a date's day is its month**, counted from 0. -/
theorem monthFromDay_dayOfYear (d : Date) : monthFromDay (leapDay d.year) d.dayOfYear = d.month - 1 := by
  obtain ⟨hmonth, hmonth'⟩ := d.month_mem
  rw [monthFromDay, Nat.findGreatest_eq_iff]
  refine ⟨by omega, ?_, ?_⟩
  · intro _
    rw [← daysOfMonths_eq d.year (show d.month - 1 ≤ 12 by omega), Date.dayOfYear]
    omega
  · intro n hn hle
    have hwithin := dayOfYear_lt_month d
    have hmono := monthStart_mono d.year (show d.month ≤ n by omega) (by omega)
    rw [← daysOfMonths_eq d.year hmonth'] at hmono
    omega

/-! ### Texts of numbers -/

/-- A number with at least `w` digits. -/
def zeroPadded (w n : ℕ) : JsString := JsString.padStart w 0x30 (natToString n)

/-- The last `w` digits of a number. -/
def lastDigits : ℕ → ℕ → JsString
  | 0, _ => []
  | w + 1, n => lastDigits w (n / 10) ++ [digitUnit (n % 10)]

theorem digitsValue_lastDigits {w n : ℕ} (h : n < 10 ^ w) : digitsValue (lastDigits w n) = n := by
  induction w generalizing n with
  | zero =>
    rw [pow_zero] at h
    rw [lastDigits, digitsValue_nil]
    omega
  | succ w ih =>
    rw [pow_succ] at h
    rw [lastDigits, digitsValue_concat, ih (by omega), digitValue_digitUnit (by omega)]
    omega

theorem lastDigits_isDigit (w n : ℕ) : ∀ u ∈ lastDigits w n, isDecimalDigit u = true := by
  induction w generalizing n with
  | zero => exact fun u hu => absurd hu List.not_mem_nil
  | succ w ih =>
    intro u hu
    rcases List.mem_append.mp hu with hu | hu
    · exact ih _ u hu
    · rw [List.mem_singleton.mp hu]
      exact isDecimalDigit_digitUnit (Nat.mod_lt n (by decide))

theorem natToString_digit {n : ℕ} (h : n < 10) : natToString n = [digitUnit n] := by
  interval_cases n <;> rfl

theorem natToString_ten {n : ℕ} (h : 10 ≤ n) : natToString n = natToString (n / 10) ++ [digitUnit (n % 10)] := by
  rw [natToString, natToString, if_neg (by omega), if_neg (by omega), Nat.digits_def' (by decide) (by omega),
    List.reverse_cons, List.map_append, List.map_singleton]

theorem lastDigits_zero (w : ℕ) : lastDigits w 0 = List.replicate w 0x30 := by
  induction w with
  | zero => rfl
  | succ w ih =>
    rw [lastDigits, ih, List.replicate_succ']
    rfl

theorem zeroPadded_eq {w n : ℕ} (hw : 0 < w) (h : n < 10 ^ w) : zeroPadded w n = lastDigits w n := by
  induction w generalizing n with
  | zero => cases hw
  | succ w ih =>
    rw [pow_succ] at h
    rw [zeroPadded, JsString.padStart, List.leftpad, lastDigits]
    by_cases hn : n < 10
    · rw [natToString_digit hn, Nat.div_eq_of_lt hn, Nat.mod_eq_of_lt hn, lastDigits_zero]
      rfl
    · have hw' : 0 < w := by
        by_contra hzero
        rw [show w = 0 by omega, pow_zero] at h
        omega
      have hrest := ih hw' (n := n / 10) (by omega)
      rw [zeroPadded, JsString.padStart, List.leftpad] at hrest
      rw [natToString_ten (by omega), List.length_append, List.length_singleton, Nat.add_sub_add_right,
        ← List.append_assoc, hrest]

/-! ### `toUTCString` -/

/-- The names of the days, from Sunday on. -/
def dayNames : List JsString := ["Sun", "Mon", "Tue", "Wed", "Thu", "Fri", "Sat"]

/-- The names of the months. -/
def monthNames : List JsString :=
  ["Jan", "Feb", "Mar", "Apr", "May", "Jun", "Jul", "Aug", "Sep", "Oct", "Nov", "Dec"]

/-- A year in a date's text. -/
def yearText (y : ℤ) : JsString := minusText (decide (y < 0)) ++ zeroPadded 4 y.natAbs

/-- `toUTCString()` of the time value `t`, in milliseconds. -/
def toUTCString (t : ℤ) : JsString :=
  let day := t / 86400000
  let year := yearFromDay day
  let dayInYear := day - dayFromYear year
  let month := monthFromDay (leapDay year) dayInYear
  let date := dayInYear - monthStart (leapDay year) month + 1
  dayNames.getD ((day + 4) % 7).toNat [] ++ [0x2C, 0x20] ++ zeroPadded 2 date.toNat ++ [0x20] ++
    monthNames.getD month [] ++ [0x20] ++ yearText year ++ [0x20] ++ zeroPadded 2 (t / 3600000 % 24).toNat ++ [0x3A] ++
    zeroPadded 2 (t / 60000 % 60).toNat ++ [0x3A] ++ zeroPadded 2 (t / 1000 % 60).toNat ++ [0x20, 0x47, 0x4D, 0x54]

/-- The time value of the midnight of a date: `Date.parse` of `YYYY-MM-DDT00:00:00Z`. -/
def midnight (d : Date) : ℤ := makeDay d.year (d.month - 1) d.day * 86400000

theorem monthDays_lt (year month : ℕ) : monthDays year month < 100 := by
  rw [monthDays.eq_def]
  split
  · split <;> omega
  all_goals omega

/-- **The midnight of a date**, written. -/
theorem toUTCString_midnight (d : Date) (hyear : d.year < 10000) :
    toUTCString (midnight d) = dayNames.getD ((d.count + 6) % 7) [] ++ [0x2C, 0x20] ++ lastDigits 2 d.day ++ [0x20] ++
      monthNames.getD (d.month - 1) [] ++ [0x20] ++ lastDigits 4 d.year ++ [0x20] ++ lastDigits 2 0 ++ [0x3A] ++
      lastDigits 2 0 ++ [0x3A] ++ lastDigits 2 0 ++ [0x20, 0x47, 0x4D, 0x54] := by
  obtain ⟨hmonth, hmonth'⟩ := d.month_mem
  obtain ⟨hday, hlast⟩ := d.day_mem
  have hlast' : d.day < 10 ^ 2 := lt_of_le_of_lt hlast (monthDays_lt d.year d.month)
  have hmid : midnight d = ((d.count : ℤ) - 719528) * 86400000 := by rw [midnight, makeDay_eq]
  have hin : (d.count : ℤ) - 719528 - dayFromYear d.year = d.dayOfYear := by
    rw [dayFromYear_eq, Date.count]
    push_cast
    omega
  have hdate : ((d.dayOfYear : ℤ) - monthStart (leapDay d.year) (d.month - 1) + 1).toNat = d.day := by
    rw [← daysOfMonths_eq d.year (show d.month - 1 ≤ 12 by omega), Date.dayOfYear]
    omega
  have hweek : (((d.count : ℤ) - 719528 + 4) % 7).toNat = (d.count + 6) % 7 := by omega
  have hyearText : yearText d.year = lastDigits 4 d.year := by
    rw [yearText, Int.natAbs_natCast, zeroPadded_eq (by decide) (by omega), decide_eq_false (by omega)]
    rfl
  rw [toUTCString, hmid]
  simp only [Int.mul_ediv_cancel _ (show (86400000 : ℤ) ≠ 0 by decide), yearFromDay_count, hin, monthFromDay_dayOfYear,
    hdate, hweek, hyearText]
  rw [show ((d.count : ℤ) - 719528) * 86400000 / 3600000 % 24 = 0 by omega,
    show ((d.count : ℤ) - 719528) * 86400000 / 60000 % 60 = 0 by omega,
    show ((d.count : ℤ) - 719528) * 86400000 / 1000 % 60 = 0 by omega, zeroPadded_eq (by decide) hlast',
    zeroPadded_eq (by decide) (by decide)]
  rfl

/-! ### The date of an HTTP header -/

/-- The second an `IMF-fixdate` names, as in `Sun, 06 Nov 1994 08:49:37 GMT`. The name of the day has to be right. -/
def readHttpDate (s : JsString) : Option ℤ :=
  match readDigits ((s.drop 5).take 2), readDigits ((s.drop 12).take 4), readDigits ((s.drop 17).take 2),
    readDigits ((s.drop 20).take 2), readDigits ((s.drop 23).take 2) with
  | some day, some year, some hour, some minute, some second =>
    (dateOf year (monthNames.idxOf ((s.drop 8).take 3) + 1) day).bind fun d =>
      if s.take 3 = dayNames.getD ((d.count + 6) % 7) [] ∧ (s.drop 3).take 2 = [0x2C, 0x20] ∧
          (s.drop 7).take 1 = [0x20] ∧ (s.drop 11).take 1 = [0x20] ∧ (s.drop 16).take 1 = [0x20] ∧
          (s.drop 19).take 1 = [0x3A] ∧ (s.drop 22).take 1 = [0x3A] ∧ s.drop 25 = [0x20, 0x47, 0x4D, 0x54] then
        some (beginning d + hour * 3600 + minute * 60 + second)
      else none
  | _, _, _, _, _ => none

theorem readDigits_lastDigits {w n : ℕ} (h : n < 10 ^ w) : readDigits (lastDigits w n) = some n := by
  rw [readDigits, if_pos, digitsValue_lastDigits h]
  exact List.all_eq_true.mpr (lastDigits_isDigit w n)

/-- **The midnight of a date is read back.** -/
theorem readHttpDate_toUTCString (d : Date) (hyear : d.year < 10000) :
    readHttpDate (toUTCString (midnight d)) = some (beginning d) := by
  obtain ⟨hmonth, hmonth'⟩ := d.month_mem
  have hname : ∀ i, i < 7 → ∃ a b c, dayNames.getD i [] = [a, b, c] := by
    intro i hi
    interval_cases i <;> exact ⟨_, _, _, rfl⟩
  have hmonthName : ∀ i, i < 12 → ∃ a b c, monthNames.getD i [] = [a, b, c] ∧ monthNames.idxOf [a, b, c] = i := by
    intro i hi
    interval_cases i <;> exact ⟨_, _, _, rfl, rfl⟩
  obtain ⟨a, b, c, habc⟩ := hname ((d.count + 6) % 7) (Nat.mod_lt _ (by decide))
  obtain ⟨a', b', c', habc', hidx⟩ := hmonthName (d.month - 1) (by omega)
  have hday := readDigits_lastDigits (w := 2) (lt_of_le_of_lt d.day_mem.2 (monthDays_lt d.year d.month))
  have hyearDigits := readDigits_lastDigits (w := 4) hyear
  have hzero := readDigits_lastDigits (w := 2) (n := 0) (by decide)
  rw [toUTCString_midnight d hyear, habc, habc']
  simp only [lastDigits, List.nil_append, List.cons_append] at hday hyearDigits hzero ⊢
  simp only [readHttpDate, List.drop_succ_cons, List.drop_zero, List.take_succ_cons, List.take_zero, hday, hyearDigits,
    hzero, hidx, Nat.sub_add_cancel hmonth, dateOf_self, Option.bind_some, habc, and_self, if_true]
  simp

end NestDdd.Shared
