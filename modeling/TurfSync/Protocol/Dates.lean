import TurfSync.Services.Dates

/-! The functions of `date.util.ts` in terms of the calendar's grids: the `startOf` functions
take an instant to the start of its cell, and the `add` functions take a start to another
start. -/

namespace TurfSync

open Calendar

def dayGrid : Grid Time := days.scale dayMs dayMs_pos

def weekGrid : Grid Time := weeks.scale dayMs dayMs_pos

def monthGrid : Grid Time := months.scale dayMs dayMs_pos

theorem dayGrid_start (k : ℤ) : dayGrid.start k = makeDate k 0 := by
  show dayMs * (1 * k + 0) = k * dayMs + 0
  ring

theorem weekGrid_start (k : ℤ) : weekGrid.start k = makeDate (7 * k + 4) 0 := by
  show dayMs * (7 * k + 4) = (7 * k + 4) * dayMs + 0
  ring

theorem monthGrid_start (k : ℤ) : monthGrid.start k = makeDate (monthStart k) 0 := by
  show dayMs * monthStart k = monthStart k * dayMs + 0
  ring

theorem weekGrid_cell (t : Time) : weekGrid.cell t = (day t - 4) / 7 := rfl

theorem monthGrid_cell (t : Time) : monthGrid.cell t = monthCount t := rfl

/-! ### Midnights -/

def Midnight (t : Time) : Prop := timeWithinDay t = 0

def MondayMidnight (t : Time) : Prop := Midnight t ∧ getUTCDay t = 1

def FirstMidnight (t : Time) : Prop := Midnight t ∧ getUTCDate t = 1

@[simp] theorem day_midnight (d : ℤ) : day (makeDate d 0) = d :=
  day_makeDate le_rfl dayMs_pos

@[simp] theorem timeWithinDay_midnight (d : ℤ) : timeWithinDay (makeDate d 0) = 0 :=
  timeWithinDay_makeDate le_rfl dayMs_pos

theorem midnight_makeDate (d : ℤ) : Midnight (makeDate d 0) := timeWithinDay_midnight d

theorem Midnight.eq_makeDate {t : Time} (h : Midnight t) : t = makeDate (day t) 0 := by
  have hmake := makeDate_day t
  rw [show timeWithinDay t = 0 from h] at hmake
  exact hmake.symm

theorem midnight_iff {t : Time} : Midnight t ↔ t ∈ Set.range dayGrid.start := by
  constructor
  · intro h
    exact ⟨day t, (dayGrid_start _).trans h.eq_makeDate.symm⟩
  · rintro ⟨k, rfl⟩
    rw [dayGrid_start]
    exact midnight_makeDate k

theorem mondayMidnight_iff {t : Time} : MondayMidnight t ↔ t ∈ Set.range weekGrid.start := by
  constructor
  · rintro ⟨h, hday⟩
    refine ⟨(day t - 4) / 7, (weekGrid_start _).trans ?_⟩
    rw [getUTCDay] at hday
    rw [show 7 * ((day t - 4) / 7) + 4 = day t by omega, ← h.eq_makeDate]
  · rintro ⟨k, rfl⟩
    rw [weekGrid_start]
    refine ⟨midnight_makeDate _, ?_⟩
    rw [getUTCDay, day_midnight]
    omega

theorem firstMidnight_iff {t : Time} : FirstMidnight t ↔ t ∈ Set.range monthGrid.start := by
  constructor
  · rintro ⟨h, hdate⟩
    refine ⟨monthCount t, (monthGrid_start _).trans ?_⟩
    rw [getUTCDate] at hdate
    rw [show monthStart (monthCount t) = day t by omega, ← h.eq_makeDate]
  · rintro ⟨k, rfl⟩
    rw [monthGrid_start]
    refine ⟨midnight_makeDate _, ?_⟩
    have hlength := (monthLength_bounds k).1
    have hdate := getUTCDate_makeDate (k := k) le_rfl (by omega) le_rfl dayMs_pos
    rwa [add_sub_cancel_right] at hdate

/-! ### The starts of days, weeks and months -/

theorem startOfUTCDay_makeDate (t : Time) : startOfUTCDay t = makeDate (day t) 0 := by
  rw [makeDate, add_zero]
  exact sub_eq_of_eq_add (makeDate_day t).symm

theorem startOfUTCDay_floor (t : Time) : startOfUTCDay t = dayGrid.floor t := by
  rw [startOfUTCDay_makeDate, Grid.floor, dayGrid_start]
  congr 1
  show t / dayMs = (t / dayMs - 0) / 1
  rw [sub_zero, Int.ediv_one]

theorem startOfUTCWeek_floor (t : Time) : startOfUTCWeek t = weekGrid.floor t := by
  have hdate (n m : ℤ) : getUTCDate (startOfUTCDay t) - n + m =
      getUTCDate (startOfUTCDay t) + (m - n) := by omega
  rw [startOfUTCWeek, hdate, setUTCDate_add, startOfUTCDay_makeDate, day_midnight, timeWithinDay_midnight,
    Grid.floor, weekGrid_start, weekGrid_cell, getUTCDay, day_midnight]
  congr 1
  split_ifs <;> omega

theorem startOfUTCMonth_floor (t : Time) : startOfUTCMonth t = monthGrid.floor t := by
  rw [startOfUTCMonth, setUTCDate_eq, startOfUTCDay_makeDate, timeWithinDay_midnight,
    add_sub_cancel_right, monthCount, day_midnight, Grid.floor, monthGrid_start]
  rfl

/-! ### Stepping from start to start -/

theorem addUTCDays_dayGrid (k n : ℤ) :
    addUTCDays (dayGrid.start k) n = dayGrid.start (k + n) := by
  rw [addUTCDays_eq, dayGrid_start, dayGrid_start, makeDate, makeDate]
  ring

theorem addUTCDays_weekGrid (k n : ℤ) :
    addUTCDays (weekGrid.start k) (n * 7) = weekGrid.start (k + n) := by
  rw [addUTCDays_eq, weekGrid_start, weekGrid_start, makeDate, makeDate]
  ring

/-! ### Stepping by months -/

/-- `addUTCMonths`'s number of days in month `k`: the day before the first of the next. -/
def maxDays (k : ℤ) : ℤ := getUTCDate (Date.UTC (k / 12) (k % 12 + 1) 0)

theorem getUTCDate_lastDay (y m : ℤ) :
    getUTCDate (makeDate (makeDay y (m + 1) 0) 0) = monthLength (12 * y + m) := by
  have hlength := (monthLength_bounds (12 * y + m)).1
  have hday : makeDay y (m + 1) 0 =
      monthStart (12 * y + m) + monthLength (12 * y + m) - 1 := by
    rw [makeDay, ← add_assoc, monthStart_succ, add_zero]
  rw [hday, getUTCDate_makeDate (by omega) le_rfl le_rfl dayMs_pos]

theorem maxDays_of_year {k : ℤ} (hyear : ¬ (0 ≤ k / 12 ∧ k / 12 ≤ 99)) :
    maxDays k = monthLength k := by
  rw [maxDays, Date.UTC, if_neg hyear, getUTCDate_lastDay, Int.mul_ediv_add_emod]

/-- The first century is taken for the twentieth, which has its month lengths but for the
leap day of the year `0`. -/
theorem maxDays_of_century {k : ℤ} (hyear : 0 ≤ k / 12 ∧ k / 12 ≤ 99) :
    maxDays k = monthLength (12 * (1900 + k / 12) + k % 12) := by
  rw [maxDays, Date.UTC, if_pos hyear, getUTCDate_lastDay]

theorem monthLength_century {k : ℤ} (hyear : 0 < k / 12 ∧ k / 12 ≤ 99) :
    monthLength (12 * (1900 + k / 12) + k % 12) = monthLength k := by
  have hleap : Leap (1900 + k / 12) ↔ Leap (k / 12) := by
    unfold Leap
    omega
  have hy : (12 * (1900 + k / 12) + k % 12) / 12 = 1900 + k / 12 := by omega
  have hm : (12 * (1900 + k / 12) + k % 12) % 12 = k % 12 := by omega
  rw [monthLength, hy, hm]
  simp only [hleap]
  rfl

theorem maxDays_eq {k : ℤ} (hyear : k / 12 ≠ 0) : maxDays k = monthLength k := by
  by_cases h : 0 ≤ k / 12 ∧ k / 12 ≤ 99
  · rw [maxDays_of_century h, monthLength_century (by omega)]
  · exact maxDays_of_year h

theorem maxDays_bounds (k : ℤ) : 28 ≤ maxDays k ∧ maxDays k ≤ monthLength k := by
  by_cases hyear : k / 12 = 0
  · rw [maxDays_of_century (by omega)]
    have hy : (12 * (1900 + k / 12) + k % 12) / 12 = 1900 := by omega
    have hm : (12 * (1900 + k / 12) + k % 12) % 12 = k % 12 := by omega
    refine ⟨(monthLength_bounds _).1, ?_⟩
    rw [monthLength, monthLength, hy, hm, hyear]
    split
    · decide
    all_goals exact le_rfl
  · rw [maxDays_eq hyear]
    exact ⟨(monthLength_bounds k).1, le_rfl⟩

/-- The first two steps of `addUTCMonths`: to the first of the target month. -/
theorem setUTCMonth_setUTCDate (t : Time) (n : ℤ) :
    setUTCMonth (setUTCDate t 1) (getUTCMonth t + n) =
      makeDate (monthStart (monthCount t + n) + 1 - 1) (timeWithinDay t) := by
  have hlength := (monthLength_bounds (monthCount t)).1
  have h0 := timeWithinDay_nonneg t
  have hlt := timeWithinDay_lt t
  have hcount : monthCount (setUTCDate t 1) = monthCount t := by
    rw [setUTCDate_eq, monthCount_makeDate le_rfl (by omega) h0 hlt]
  have hmonth : getUTCMonth t = getUTCMonth (setUTCDate t 1) := by
    rw [getUTCMonth, getUTCMonth, hcount]
  rw [hmonth, setUTCMonth_eq, hcount, setUTCDate_eq,
    getUTCDate_makeDate le_rfl (by omega) h0 hlt, timeWithinDay_makeDate h0 hlt]

theorem addUTCMonths_eq (date : Time) (n : ℤ) : addUTCMonths date n =
    makeDate (monthStart (monthCount date + n) +
      min (getUTCDate date) (maxDays (monthCount date + n)) - 1) (timeWithinDay date) := by
  have hlength := (monthLength_bounds (monthCount date + n)).1
  have h0 := timeWithinDay_nonneg date
  have hlt := timeWithinDay_lt date
  have hcount : monthCount (setUTCMonth (setUTCDate date 1) (getUTCMonth date + n)) =
      monthCount date + n := by
    rw [setUTCMonth_setUTCDate, monthCount_makeDate le_rfl (by omega) h0 hlt]
  have hwithin : timeWithinDay (setUTCMonth (setUTCDate date 1) (getUTCMonth date + n)) =
      timeWithinDay date := by
    rw [setUTCMonth_setUTCDate, timeWithinDay_makeDate h0 hlt]
  rw [addUTCMonths, setUTCDate_eq, getUTCFullYear, hcount, hwithin,
    show getUTCMonth (setUTCMonth (setUTCDate date 1) (getUTCMonth date + n)) =
      (monthCount date + n) % 12 by rw [getUTCMonth, hcount]]
  rfl

section Added

variable (date : Time) (n : ℤ)

theorem added_bounds : 1 ≤ min (getUTCDate date) (maxDays (monthCount date + n)) ∧
    min (getUTCDate date) (maxDays (monthCount date + n)) ≤
      monthLength (monthCount date + n) := by
  have hdate := (getUTCDate_bounds date).1
  have hmax := maxDays_bounds (monthCount date + n)
  omega

theorem monthCount_addUTCMonths : monthCount (addUTCMonths date n) = monthCount date + n := by
  rw [addUTCMonths_eq, monthCount_makeDate (added_bounds date n).1 (added_bounds date n).2
    (timeWithinDay_nonneg date) (timeWithinDay_lt date)]

theorem getUTCDate_addUTCMonths : getUTCDate (addUTCMonths date n) =
    min (getUTCDate date) (maxDays (monthCount date + n)) := by
  rw [addUTCMonths_eq, getUTCDate_makeDate (added_bounds date n).1 (added_bounds date n).2
    (timeWithinDay_nonneg date) (timeWithinDay_lt date)]

theorem timeWithinDay_addUTCMonths :
    timeWithinDay (addUTCMonths date n) = timeWithinDay date := by
  rw [addUTCMonths_eq, timeWithinDay_makeDate (timeWithinDay_nonneg date) (timeWithinDay_lt date)]

end Added

/-- No month is shorter than 28 days, so until then nothing is clamped. -/
theorem addUTCMonths_of_le (date : Time) (n : ℤ) (hdate : getUTCDate date ≤ 28) :
    addUTCMonths date n =
      makeDate (monthStart (monthCount date + n) + getUTCDate date - 1) (timeWithinDay date) := by
  have hmax := (maxDays_bounds (monthCount date + n)).1
  rw [addUTCMonths_eq, min_eq_left (by omega)]

theorem addUTCMonths_add (date : Time) (a b : ℤ) (hdate : getUTCDate date ≤ 28) :
    addUTCMonths (addUTCMonths date a) b = addUTCMonths date (a + b) := by
  have hmax := (maxDays_bounds (monthCount date + a)).1
  have hkept : getUTCDate (addUTCMonths date a) = getUTCDate date := by
    rw [getUTCDate_addUTCMonths, min_eq_left (by omega)]
  rw [addUTCMonths_of_le _ b (hkept.trans_le hdate), addUTCMonths_of_le date (a + b) hdate, hkept,
    monthCount_addUTCMonths, timeWithinDay_addUTCMonths, add_assoc]

theorem addUTCMonths_monthGrid (k n : ℤ) :
    addUTCMonths (monthGrid.start k) n = monthGrid.start (k + n) := by
  have hfirst := (firstMidnight_iff.mpr ⟨k, rfl⟩ : FirstMidnight (monthGrid.start k))
  have hcount : monthCount (monthGrid.start k) = k := monthGrid.cell_start k
  rw [addUTCMonths_of_le _ _ (by rw [hfirst.2]; norm_num), hcount, hfirst.2,
    show timeWithinDay (monthGrid.start k) = 0 from hfirst.1, add_sub_cancel_right,
    monthGrid_start]

/-! ### The order of dates -/

theorem makeDate_le_iff {a b x y : ℤ} (hx : 0 ≤ x ∧ x < dayMs) (hy : 0 ≤ y ∧ y < dayMs) :
    makeDate a x ≤ makeDate b y ↔ a < b ∨ a = b ∧ x ≤ y :=
  Grid.mul_add_le_mul_add_iff hx hy

theorem monthStart_add_lt {j k d i : ℤ} (hjk : j < k) (hd : d ≤ monthLength j) (hi : 1 ≤ i) :
    monthStart j + d - 1 < monthStart k + i - 1 := by
  have hmono := monthStart_strictMono.monotone (Int.add_one_le_of_lt hjk)
  rw [monthStart_succ] at hmono
  omega

/-- Dates come in the order of their months, then of their days, then of their times. -/
theorem makeDate_month_le_iff {j k d i x y : ℤ} (hd : 1 ≤ d ∧ d ≤ monthLength j)
    (hi : 1 ≤ i ∧ i ≤ monthLength k) (hx : 0 ≤ x ∧ x < dayMs) (hy : 0 ≤ y ∧ y < dayMs) :
    makeDate (monthStart j + d - 1) x ≤ makeDate (monthStart k + i - 1) y ↔
      j < k ∨ j = k ∧ (d < i ∨ d = i ∧ x ≤ y) := by
  rw [makeDate_le_iff hx hy]
  rcases lt_trichotomy j k with h | rfl | h
  · have hlt := monthStart_add_lt h hd.2 hi.1
    omega
  · omega
  · have hlt := monthStart_add_lt h hi.2 hd.1
    omega

theorem timeWithinDay_bounds (t : Time) : 0 ≤ timeWithinDay t ∧ timeWithinDay t < dayMs :=
  ⟨timeWithinDay_nonneg t, timeWithinDay_lt t⟩

theorem le_iff_fields {t u : Time} : t ≤ u ↔ monthCount t < monthCount u ∨
    monthCount t = monthCount u ∧ (getUTCDate t < getUTCDate u ∨
      getUTCDate t = getUTCDate u ∧ timeWithinDay t ≤ timeWithinDay u) := by
  rw [← makeDate_month_le_iff (getUTCDate_bounds t) (getUTCDate_bounds u) (timeWithinDay_bounds t)
    (timeWithinDay_bounds u), ← eq_makeDate, ← eq_makeDate]

end TurfSync
