import TurfSync.Calendar.Gregorian
import TurfSync.Store.Schema

/-! `date.util.ts` over JavaScript's UTC getters and setters. A setter replaces one field of
the date and normalises: months out of range move into other years, days out of range into
other months. -/

namespace TurfSync

open Calendar

/-! ### Dates -/

def day (t : Time) : ℤ := t / dayMs

def timeWithinDay (t : Time) : ℤ := t % dayMs

/-- `12 * year + month`. -/
def monthCount (t : Time) : ℤ := monthOf (day t)

def getUTCFullYear (t : Time) : ℤ := monthCount t / 12

def getUTCMonth (t : Time) : ℤ := monthCount t % 12

def getUTCDate (t : Time) : ℤ := day t - monthStart (monthCount t) + 1

/-- `0` for Sunday; the epoch was a Thursday. -/
def getUTCDay (t : Time) : ℤ := (day t + 4) % 7

/-- The day of a year, a month and a day of the month, none of which need be in range. -/
def makeDay (year month date : ℤ) : ℤ := monthStart (12 * year + month) + date - 1

def makeDate (d time : ℤ) : Time := d * dayMs + time

def setUTCDate (t : Time) (date : ℤ) : Time :=
  makeDate (makeDay (getUTCFullYear t) (getUTCMonth t) date) (timeWithinDay t)

def setUTCMonth (t : Time) (month : ℤ) : Time :=
  makeDate (makeDay (getUTCFullYear t) month (getUTCDate t)) (timeWithinDay t)

/-- `Date.UTC`, to which the years from `0` to `99` are those of the twentieth century. -/
def Date.UTC (year month date : ℤ) : Time :=
  let fullYear := if 0 ≤ year ∧ year ≤ 99 then 1900 + year else year
  makeDate (makeDay fullYear month date) 0

/-! ### `date.util.ts`, apart from `startOfUTCDay` -/

def startOfUTCWeek (date : Time) : Time :=
  let result := startOfUTCDay date
  let day := getUTCDay result
  let diff := getUTCDate result - day + (if day = 0 then -6 else 1)
  setUTCDate result diff

def startOfUTCMonth (date : Time) : Time :=
  setUTCDate (startOfUTCDay date) 1

def addUTCDays (date : Time) (days : ℤ) : Time :=
  setUTCDate date (getUTCDate date + days)

def addUTCMonths (date : Time) (months : ℤ) : Time :=
  let originalDay := getUTCDate date
  let targetMonth := getUTCMonth date + months
  let result := setUTCMonth (setUTCDate date 1) targetMonth
  let maxDays := getUTCDate (Date.UTC (getUTCFullYear result) (getUTCMonth result + 1) 0)
  setUTCDate result (min originalDay maxDays)

/-! ### What getters and setters do -/

theorem dayMs_pos : 0 < dayMs := by decide

theorem day_makeDate {d time : ℤ} (h0 : 0 ≤ time) (h : time < dayMs) :
    day (makeDate d time) = d := by
  rw [day, makeDate, add_comm, Int.add_mul_ediv_right _ _ dayMs_pos.ne',
    Int.ediv_eq_zero_of_lt h0 h, zero_add]

theorem timeWithinDay_makeDate {d time : ℤ} (h0 : 0 ≤ time) (h : time < dayMs) :
    timeWithinDay (makeDate d time) = time := by
  rw [timeWithinDay, makeDate, add_comm, Int.add_mul_emod_self_right, Int.emod_eq_of_lt h0 h]

theorem timeWithinDay_nonneg (t : Time) : 0 ≤ timeWithinDay t := Int.emod_nonneg t dayMs_pos.ne'

theorem timeWithinDay_lt (t : Time) : timeWithinDay t < dayMs := Int.emod_lt_of_pos t dayMs_pos

theorem makeDate_day (t : Time) : makeDate (day t) (timeWithinDay t) = t :=
  Int.ediv_mul_add_emod t dayMs

theorem getUTCFullYear_getUTCMonth (t : Time) :
    12 * getUTCFullYear t + getUTCMonth t = monthCount t :=
  Int.mul_ediv_add_emod (monthCount t) 12

theorem getUTCDate_bounds (t : Time) :
    1 ≤ getUTCDate t ∧ getUTCDate t ≤ monthLength (monthCount t) := by
  have hspec := monthOf_spec (day t)
  rw [monthStart_succ] at hspec
  unfold getUTCDate monthCount
  omega

/-- A date is its month, its day in the month and its time of day. -/
theorem eq_makeDate (t : Time) :
    t = makeDate (monthStart (monthCount t) + getUTCDate t - 1) (timeWithinDay t) := by
  have hday : monthStart (monthCount t) + getUTCDate t - 1 = day t := by
    unfold getUTCDate
    omega
  rw [hday, makeDate_day]

section Fields

variable {k i time : ℤ} (hi : 1 ≤ i) (hk : i ≤ monthLength k) (h0 : 0 ≤ time)
  (htime : time < dayMs)
include hi hk h0 htime

theorem monthCount_makeDate : monthCount (makeDate (monthStart k + i - 1) time) = k := by
  rw [monthCount, day_makeDate h0 htime, add_sub_assoc, monthOf_add (by omega) (by omega)]

theorem getUTCDate_makeDate : getUTCDate (makeDate (monthStart k + i - 1) time) = i := by
  rw [getUTCDate, monthCount_makeDate hi hk h0 htime, day_makeDate h0 htime]
  omega

end Fields

theorem setUTCDate_eq (t : Time) (date : ℤ) :
    setUTCDate t date = makeDate (monthStart (monthCount t) + date - 1) (timeWithinDay t) := by
  rw [setUTCDate, makeDay, getUTCFullYear_getUTCMonth]

/-- Setting the day of the month moves by days, whatever months that crosses. -/
theorem setUTCDate_add (t : Time) (n : ℤ) :
    setUTCDate t (getUTCDate t + n) = makeDate (day t + n) (timeWithinDay t) := by
  rw [setUTCDate_eq, getUTCDate]
  congr 1
  omega

theorem addUTCDays_eq (t : Time) (n : ℤ) : addUTCDays t n = t + n * dayMs := by
  rw [addUTCDays, setUTCDate_add]
  conv_rhs => rw [← makeDate_day t]
  unfold makeDate
  ring

/-- The month a date's month index counts to, its day of the month and time of day kept. -/
theorem setUTCMonth_eq (t : Time) (n : ℤ) : setUTCMonth t (getUTCMonth t + n) =
    makeDate (monthStart (monthCount t + n) + getUTCDate t - 1) (timeWithinDay t) := by
  rw [setUTCMonth, makeDay, ← add_assoc, getUTCFullYear_getUTCMonth]

end TurfSync
