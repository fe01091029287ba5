import TurfSync.Protocol.Dates

/-! The calendar arithmetic of `date.util.ts`. Midnights, Mondays and firsts of the month are
found for every instant, and adding months is exact in the month and clamps the day. The clamp
is where order can be lost: two days of one month that clamp to the same day keep their times
of day, which may stand the other way round. -/

namespace TurfSync

open Calendar

/-! ### The `startOf` functions -/

theorem lt_startOfUTCWeek_add (t : Time) : t < startOfUTCWeek t + 7 * dayMs := by
  have hnext := weekGrid.lt_next t
  rw [← addUTCDays_weekGrid, addUTCDays_eq] at hnext
  rw [startOfUTCWeek_floor]
  exact hnext

theorem startOf_floors :
    Grid.IsFloor Midnight startOfUTCDay ∧
    Grid.IsFloor MondayMidnight startOfUTCWeek ∧
    Grid.IsFloor FirstMidnight startOfUTCMonth ∧
    ∀ t, startOfUTCWeek t ≤ t ∧ t < startOfUTCWeek t + 7 * dayMs := by
  have hweek := Grid.isFloor (fun _ => mondayMidnight_iff) startOfUTCWeek_floor
  refine ⟨Grid.isFloor (fun _ => midnight_iff) startOfUTCDay_floor, hweek,
    Grid.isFloor (fun _ => firstMidnight_iff) startOfUTCMonth_floor, fun t => ?_⟩
  exact ⟨(hweek.greatest t).1.2, lt_startOfUTCWeek_add t⟩

/-! ### Adding months -/

/-- Two dates of one month whose days both clamp, the later with the earlier time of day. -/
def Crossed (date later : Time) (months : ℤ) : Prop :=
  monthCount date = monthCount later ∧
  monthLength (monthCount date + months) ≤ getUTCDate date ∧
  getUTCDate date < getUTCDate later ∧ timeWithinDay later < timeWithinDay date

theorem addUTCMonths_le_iff {date later : Time} {months : ℤ} (hle : date ≤ later)
    (hyear : (monthCount date + months) / 12 ≠ 0) :
    addUTCMonths date months ≤ addUTCMonths later months ↔ ¬ Crossed date later months := by
  rw [le_iff_fields] at hle
  rw [le_iff_fields, monthCount_addUTCMonths, monthCount_addUTCMonths, getUTCDate_addUTCMonths,
    getUTCDate_addUTCMonths, timeWithinDay_addUTCMonths, timeWithinDay_addUTCMonths]
  unfold Crossed
  rcases eq_or_ne (monthCount date) (monthCount later) with heq | hne
  · rw [← heq] at hle ⊢
    rw [maxDays_eq hyear]
    omega
  · omega

theorem addUTCMonths_calendar {date : Time} {months : ℤ}
    (hyear : getUTCFullYear (addUTCMonths date months) ≠ 0) :
    12 * getUTCFullYear (addUTCMonths date months) + getUTCMonth (addUTCMonths date months) =
      12 * getUTCFullYear date + getUTCMonth date + months ∧
    getUTCDate (addUTCMonths date months) =
      min (getUTCDate date) (monthLength (monthCount date + months)) ∧
    timeWithinDay (addUTCMonths date months) = timeWithinDay date ∧
    (getUTCDate date ≤ 28 → ∀ more, addUTCMonths (addUTCMonths date months) more =
      addUTCMonths date (months + more)) ∧
    ∀ later, date ≤ later →
      (addUTCMonths date months ≤ addUTCMonths later months ↔ ¬ Crossed date later months) := by
  rw [getUTCFullYear, monthCount_addUTCMonths] at hyear
  rw [getUTCFullYear_getUTCMonth, getUTCFullYear_getUTCMonth]
  refine ⟨monthCount_addUTCMonths date months, ?_, timeWithinDay_addUTCMonths date months,
    fun hdate more => addUTCMonths_add date months more hdate,
    fun later hle => addUTCMonths_le_iff hle hyear⟩
  rw [getUTCDate_addUTCMonths, maxDays_eq hyear]

/-- 31 January 2026 a month later is 28 February. -/
theorem addUTCMonths_calendar_january :
    getUTCDate (addUTCMonths (20484 * dayMs) 1) = 28 ∧
    ¬ Crossed (20484 * dayMs) (20485 * dayMs) 1 := by
  have h := @addUTCMonths_calendar (20484 * dayMs) 1 (by decide +kernel)
  obtain ⟨_, hdate, _, _, hle⟩ := h
  exact ⟨hdate.trans (by decide +kernel), (hle _ (by decide +kernel)).mp (by decide +kernel)⟩

/-- 30 January 2026, 10:00, and the next day at 9:00: a month later both are on 28 February. -/
theorem addUTCMonths_crosses : ∃ date later : Time,
    (getUTCFullYear date = 2026 ∧ getUTCFullYear (addUTCMonths date 1) = 2026 ∧
      getUTCFullYear later = 2026 ∧ getUTCFullYear (addUTCMonths later 1) = 2026) ∧
    date ≤ later ∧ addUTCMonths later 1 < addUTCMonths date 1 := by
  refine ⟨20483 * dayMs + 10 * hourMs, 20484 * dayMs + 9 * hourMs, ?_, ?_, ?_⟩
  all_goals decide +kernel

end TurfSync
