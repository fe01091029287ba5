import TurfSync.Calendar.Grid
import Mathlib.Tactic.IntervalCases

/-! The proleptic Gregorian calendar over the days since 1 January 1970. Months are counted
through, `12 * year + month` with January `0`, so that month lengths, leap years and year ends
are all in the first day of a month; months, weeks and days are then grids of days. -/

namespace TurfSync.Calendar

def Leap (y : ℤ) : Prop := y % 4 = 0 ∧ (y % 100 ≠ 0 ∨ y % 400 = 0)

instance : DecidablePred Leap := fun _ => inferInstanceAs (Decidable (_ ∧ _))

/-! ### Years -/

/-- The first day of a year. -/
def dayFromYear (y : ℤ) : ℤ :=
  365 * (y - 1970) + (y - 1969) / 4 - (y - 1901) / 100 + (y - 1601) / 400

/-- The mean year has 146097 / 400 days, which misses the year of a day by one at most. -/
def yearFromDay (d : ℤ) : ℤ :=
  let y := 1970 + 400 * d / 146097
  if dayFromYear (y + 1) ≤ d then y + 1 else if dayFromYear y ≤ d then y else y - 1

theorem dayFromYear_succ (y : ℤ) :
    dayFromYear (y + 1) = dayFromYear y + if Leap y then 366 else 365 := by
  unfold dayFromYear Leap
  split_ifs <;> omega

theorem yearFromDay_spec (d : ℤ) :
    dayFromYear (yearFromDay d) ≤ d ∧ d < dayFromYear (yearFromDay d + 1) := by
  unfold yearFromDay
  dsimp only
  have hq : 146097 * (400 * d / 146097) ≤ 400 * d ∧
      400 * d < 146097 * (400 * d / 146097) + 146097 := by omega
  generalize 400 * d / 146097 = q at hq
  split_ifs with h₁ h₂
  · refine ⟨h₁, ?_⟩
    unfold dayFromYear at *
    omega
  · exact ⟨h₂, not_le.mp h₁⟩
  · rw [sub_add_cancel]
    refine ⟨?_, not_le.mp h₂⟩
    unfold dayFromYear at *
    omega

/-! ### Months -/

/-- The days of year `y` before its month `m`. -/
def daysBefore (y m : ℤ) : ℤ :=
  (367 * m + 5) / 12 - if m ≤ 1 then 0 else if Leap y then 1 else 2

/-- The first day of month `k`. -/
def monthStart (k : ℤ) : ℤ := dayFromYear (k / 12) + daysBefore (k / 12) (k % 12)

def monthLength (k : ℤ) : ℤ :=
  match k % 12 with
  | 1 => if Leap (k / 12) then 29 else 28
  | 3 | 5 | 8 | 10 => 30
  | _ => 31

theorem monthLength_bounds (k : ℤ) : 28 ≤ monthLength k ∧ monthLength k ≤ 31 := by
  unfold monthLength
  split
  · split_ifs <;> omega
  all_goals omega

theorem daysBefore_succ (y m : ℤ) (h0 : 0 ≤ m) (h : m < 12) :
    daysBefore y (m + 1) = daysBefore y m + monthLength (12 * y + m) := by
  have hy : (12 * y + m) / 12 = y := by omega
  have hm : (12 * y + m) % 12 = m := by omega
  rw [monthLength, hy, hm]
  unfold daysBefore
  interval_cases m <;> by_cases hleap : Leap y <;> simp [hleap]

/-- The start of a month from that of its year; month `12` is the next January. -/
theorem monthStart_add (y m : ℤ) (h0 : 0 ≤ m) (h : m ≤ 12) :
    monthStart (12 * y + m) = dayFromYear y + daysBefore y m := by
  rcases h.lt_or_eq with h | rfl
  · have hy : (12 * y + m) / 12 = y := by omega
    have hm : (12 * y + m) % 12 = m := by omega
    rw [monthStart, hy, hm]
  · have hy : (12 * y + 12) / 12 = y + 1 := by omega
    have hm : (12 * y + 12) % 12 = 0 := by omega
    rw [monthStart, hy, hm, dayFromYear_succ]
    unfold daysBefore
    by_cases hleap : Leap y <;> simp [hleap]

theorem monthStart_succ (k : ℤ) : monthStart (k + 1) = monthStart k + monthLength k := by
  have hk : k = 12 * (k / 12) + k % 12 := by omega
  have hnext := monthStart_add (k / 12) (k % 12 + 1) (by omega) (by omega)
  rw [daysBefore_succ _ _ (by omega) (by omega), ← add_assoc, ← hk, ← add_assoc] at hnext
  exact hnext

theorem monthStart_strictMono : StrictMono monthStart := by
  refine strictMono_int_of_lt_succ fun k => ?_
  have hlength := (monthLength_bounds k).1
  rw [monthStart_succ]
  omega

/-- The month of a day. Without February's gap the months of a year have 367 / 12 days. -/
def monthOf (d : ℤ) : ℤ :=
  let y := yearFromDay d
  let p := d - dayFromYear y
  let c := if p < daysBefore y 2 then 0 else if Leap y then 1 else 2
  12 * y + (12 * (p + c) + 6) / 367

theorem monthOf_spec (d : ℤ) : monthStart (monthOf d) ≤ d ∧ d < monthStart (monthOf d + 1) := by
  have hy := yearFromDay_spec d
  rw [dayFromYear_succ] at hy
  unfold monthOf
  dsimp only
  generalize yearFromDay d = y at *
  have hd : d = dayFromYear y + (d - dayFromYear y) := by omega
  generalize d - dayFromYear y = p at *
  generalize hc : (if p < daysBefore y 2 then (0 : ℤ) else if Leap y then 1 else 2) = c at *
  have hm : 0 ≤ (12 * (p + c) + 6) / 367 ∧ (12 * (p + c) + 6) / 367 < 12 := by
    unfold daysBefore at hc
    split_ifs at hc hy <;> omega
  generalize hq : (12 * (p + c) + 6) / 367 = q at *
  rw [add_assoc, monthStart_add y q (by omega) (by omega),
    monthStart_add y (q + 1) (by omega) (by omega)]
  unfold daysBefore at *
  split_ifs at * <;> omega

/-! ### Days, weeks and months as grids -/

def days : Grid ℤ := .every 1 0 one_pos

/-- Weeks begin on Monday, as 5 January 1970 was one. -/
def weeks : Grid ℤ := .every 7 4 (by norm_num)

def months : Grid ℤ := .ofStarts monthStart monthOf monthStart_strictMono monthOf_spec

theorem monthOf_eq_iff {d k : ℤ} : monthOf d = k ↔ monthStart k ≤ d ∧ d < monthStart (k + 1) :=
  months.cell_eq_iff

/-- The day of a month, counted from `0`, fixes month and day. -/
theorem monthOf_add {k i : ℤ} (h0 : 0 ≤ i) (h : i < monthLength k) :
    monthOf (monthStart k + i) = k := by
  rw [monthOf_eq_iff, monthStart_succ]
  omega

end TurfSync.Calendar
