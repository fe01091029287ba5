import TurfSync.Protocol.Dates
import TurfSync.Services.Analytics
import Mathlib.Data.List.Nodup
import Mathlib.Data.List.Dedup

/-! The revenue analytics against a count period by period. The database truncates, the service
steps back from the end of the range, and the two meet in the texts of their dates: both walk
the starts of one grid, on which the texts are injective, so no period is missed and none is
counted twice. -/

namespace TurfSync.AdminService

open Calendar Text

/-! ### Labels -/

theorem padStart_toString {width : ℕ} {n : ℤ} (hn : 0 ≤ n) :
    padStart width (toString n) = numeral width n.toNat := by
  rw [toString_of_nonneg hn, numeral]

theorem toList_isoYear (year : ℤ) : (isoYear year).toList =
    if 0 ≤ year ∧ year ≤ 9999 then (numeral 4 year.toNat).toList
    else (if year < 0 then '-' else '+') :: (numeral 6 year.natAbs).toList := by
  unfold isoYear
  split_ifs with h hneg
  · rw [padStart_toString h.1]
  · rw [String.toList_append]
    rfl
  · rw [String.toList_append]
    rfl

/-- A wide year begins with its sign, which is no digit. -/
theorem four_ne_wide (n : ℕ) (year : ℤ) (l : List Char) :
    (numeral 4 n).toList ≠ (if year < 0 then '-' else '+') :: l := by
  intro h
  have hdigit := isDigit_of_mem_numeral (h ▸ List.mem_cons_self)
  split_ifs at hdigit
  · exact absurd hdigit (by decide)
  · exact absurd hdigit (by decide)

theorem sign_inj {y y' : ℤ} (h : (if y < 0 then '-' else '+') = if y' < 0 then '-' else '+') :
    y < 0 ↔ y' < 0 := by
  split_ifs at h with h₁ h₂ h₂
  · exact iff_of_true h₁ h₂
  · exact absurd h (by decide)
  · exact absurd h (by decide)
  · exact iff_of_false h₁ h₂

theorem isoYear_injective : Function.Injective isoYear := by
  intro y y' h
  have hlists := congrArg String.toList h
  rw [toList_isoYear, toList_isoYear] at hlists
  by_cases hy : 0 ≤ y ∧ y ≤ 9999 <;> by_cases hy' : 0 ≤ y' ∧ y' ≤ 9999
  · rw [if_pos hy, if_pos hy'] at hlists
    have hnum := numeral_injective 4 (String.toList_inj.mp hlists)
    omega
  · rw [if_pos hy, if_neg hy'] at hlists
    exact absurd hlists (four_ne_wide _ _ _)
  · rw [if_neg hy, if_pos hy'] at hlists
    exact absurd hlists.symm (four_ne_wide _ _ _)
  · rw [if_neg hy, if_neg hy'] at hlists
    obtain ⟨hchar, htail⟩ := List.cons.inj hlists
    have hsign := sign_inj hchar
    have hnum := numeral_injective 6 (String.toList_inj.mp htail)
    omega

theorem monthNumeral (t : Time) : padStart 2 (toString (getUTCMonth t + 1)) =
    numeral 2 (getUTCMonth t + 1).toNat ∧ 0 ≤ getUTCMonth t ∧ getUTCMonth t < 12 := by
  have hmonth : 0 ≤ getUTCMonth t ∧ getUTCMonth t < 12 := by
    unfold getUTCMonth
    omega
  exact ⟨padStart_toString (by omega), hmonth⟩

theorem dateNumeral (t : Time) : padStart 2 (toString (getUTCDate t)) =
    numeral 2 (getUTCDate t).toNat ∧ 1 ≤ getUTCDate t ∧ getUTCDate t ≤ 31 := by
  have hdate := getUTCDate_bounds t
  have hlength := (monthLength_bounds (monthCount t)).2
  exact ⟨padStart_toString (by omega), hdate.1, by omega⟩

theorem monthCount_of_fields {t u : Time} (hyear : getUTCFullYear t = getUTCFullYear u)
    (hmonth : getUTCMonth t = getUTCMonth u) : monthCount t = monthCount u := by
  rw [← getUTCFullYear_getUTCMonth, ← getUTCFullYear_getUTCMonth, hyear, hmonth]

/-- The text of a month after that of its year is read in one way. -/
theorem monthCount_of_label {t u : Time} {year : ℤ → String} (hyear : Function.Injective year)
    (h : year (getUTCFullYear t) ++ "-" ++ padStart 2 (toString (getUTCMonth t + 1)) =
      year (getUTCFullYear u) ++ "-" ++ padStart 2 (toString (getUTCMonth u + 1))) :
    monthCount t = monthCount u := by
  obtain ⟨ht, ht0, ht12⟩ := monthNumeral t
  obtain ⟨hu, hu0, hu12⟩ := monthNumeral u
  rw [ht, hu] at h
  obtain ⟨hfront, hmonth⟩ := append_numeral_inj two_pos (by omega) (by omega) h
  exact monthCount_of_fields (hyear hfront) (by omega)

theorem day_of_isoDate {t u : Time} (h : isoDate t = isoDate u) : day t = day u := by
  obtain ⟨ht, ht1, ht31⟩ := dateNumeral t
  obtain ⟨hu, hu1, hu31⟩ := dateNumeral u
  rw [isoDate, isoDate, ht, hu] at h
  obtain ⟨hfront, hdate⟩ := append_numeral_inj two_pos (by omega) (by omega) h
  have hcount := monthCount_of_label isoYear_injective hfront
  unfold getUTCDate at hdate ht1 hu1
  rw [hcount] at hdate ht1
  omega

/-! ### The grid of a period -/

/-- The days, the weeks from Monday on or the months. -/
def periodGrid (period : String) : Grid Time :=
  if period = "daily" then dayGrid else if period = "weekly" then weekGrid else monthGrid

/-- The label of a period is that of no other. -/
theorem keyOf_start_injective (period : String) :
    Function.Injective fun k => keyOf period ((periodGrid period).start k) := by
  intro j k h
  by_cases hiso : period = "daily" ∨ period = "weekly"
  · simp only [keyOf, if_pos hiso] at h
    have hday := day_of_isoDate h
    rcases hiso with rfl | rfl
    · rw [show periodGrid "daily" = dayGrid from rfl, dayGrid_start, dayGrid_start, day_midnight,
        day_midnight] at hday
      exact hday
    · rw [show periodGrid "weekly" = weekGrid from rfl, weekGrid_start, weekGrid_start,
        day_midnight, day_midnight] at hday
      omega
  · simp only [keyOf, if_neg hiso] at h
    have hgrid : periodGrid period = monthGrid := by
      rw [periodGrid, if_neg fun hp => hiso (.inl hp), if_neg fun hp => hiso (.inr hp)]
    have hcount := monthCount_of_label toString_injective h
    rwa [hgrid, ← monthGrid_cell, ← monthGrid_cell, monthGrid.cell_start,
      monthGrid.cell_start] at hcount

theorem rangeEndDate_eq (period : String) (now : Time) : rangeEndDate period now =
    (periodGrid period).start ((periodGrid period).cell now + 1) := by
  unfold rangeEndDate periodGrid
  split_ifs
  · rw [startOfUTCDay_floor, Grid.floor, addUTCDays_dayGrid]
  · rw [startOfUTCWeek_floor, Grid.floor]
    exact addUTCDays_weekGrid _ 1
  · rw [startOfUTCMonth_floor, Grid.floor, addUTCMonths_monthGrid]

theorem rangeStartDate_eq (period : String) (now : Time) : rangeStartDate period now =
    (periodGrid period).start ((periodGrid period).cell now + 1 + -daysOf period) := by
  rw [rangeStartDate, rangeEndDate_eq]
  unfold periodGrid
  split_ifs
  · rw [addUTCDays_dayGrid]
  · rw [addUTCDays_weekGrid]
  · rw [addUTCMonths_monthGrid]

theorem startDate_eq (period : String) (k : ℤ) (i : ℕ) :
    startDate period ((periodGrid period).start k) i = (periodGrid period).start (k + -i + -1) := by
  unfold startDate periodGrid
  split_ifs
  · rw [addUTCDays_dayGrid, addUTCDays_dayGrid]
  · rw [addUTCDays_weekGrid]
    exact addUTCDays_weekGrid _ (-1)
  · rw [addUTCMonths_monthGrid, addUTCMonths_monthGrid]

/-! ### Groups -/

/-- A UTC session truncates to the UTC day, the Monday or the first of the month; a `GROUP BY`
has a group for each key of its rows and no other. -/
structure Postgres.Utc (pg : Postgres) : Prop where
  day : ∀ t, IsGreatest {m | Midnight m ∧ m ≤ t} (pg.date_trunc "day" t)
  week : ∀ t, IsGreatest {m | MondayMidnight m ∧ m ≤ t} (pg.date_trunc "week" t)
  month : ∀ t, IsGreatest {m | FirstMidnight m ∧ m ≤ t} (pg.date_trunc "month" t)
  nodup_groups : ∀ keys, (pg.groups keys).Nodup
  mem_groups : ∀ keys k, k ∈ pg.groups keys ↔ k ∈ keys

/-- A session that lists the groups in the order of their last rows. -/
def Postgres.utc : Postgres where
  date_trunc interval :=
    if interval = "day" then startOfUTCDay
    else if interval = "week" then startOfUTCWeek else startOfUTCMonth
  groups keys := keys.dedup

theorem Postgres.utc_utc : Postgres.utc.Utc where
  day := (Grid.isFloor (fun _ => midnight_iff) startOfUTCDay_floor).greatest
  week := (Grid.isFloor (fun _ => mondayMidnight_iff) startOfUTCWeek_floor).greatest
  month := (Grid.isFloor (fun _ => firstMidnight_iff) startOfUTCMonth_floor).greatest
  nodup_groups := List.nodup_dedup
  mem_groups _ _ := List.mem_dedup

section Maps

variable {V : Type} {period : String} {s : Time}

theorem mapOf_append (groups : List (Group V)) (g : Group V) :
    mapOf period (groups ++ [g]) = match g.period with
      | none => mapOf period groups
      | some date => Function.update (mapOf period groups) (keyOf period date) (some g.value) := by
  rw [mapOf, List.foldl_append]
  rfl

/-- What is kept under the text of a date is the group of that date. -/
theorem mapOf_keyOf (groups : List (Group V)) (hnodup : (groups.map (·.period)).Nodup)
    (hinj : ∀ g ∈ groups, ∀ d ∈ g.period, keyOf period d = keyOf period s → d = s) :
    mapOf period groups (keyOf period s) =
      (groups.find? (·.period = some s)).map (·.value) := by
  induction groups using List.reverseRecOn with
  | nil => rfl
  | append_singleton groups g ih =>
    rw [List.map_append, List.nodup_append] at hnodup
    obtain ⟨hgroups, -, hapart⟩ := hnodup
    have hold := ih hgroups fun g' hg' => hinj g' (List.mem_append_left _ hg')
    have hnew := hinj g (List.mem_append_right _ (List.mem_singleton_self g))
    rw [mapOf_append, List.find?_append]
    cases hperiod : g.period with
    | none =>
      have hmiss : [g].find? (·.period = some s) = none := by simp [hperiod]
      rw [hmiss, Option.or_none]
      exact hold
    | some d =>
      dsimp only
      by_cases hd : d = s
      · subst hd
        -- the date has no earlier group
        have hmiss : groups.find? (·.period = some d) = none := by
          rw [List.find?_eq_none]
          intro g' hg' hsame
          exact hapart _ (List.mem_map_of_mem hg') _ (List.mem_singleton_self _)
            ((of_decide_eq_true hsame).trans hperiod.symm)
        rw [Function.update_self, hmiss, Option.none_or]
        simp [hperiod]
      · have hkey : keyOf period s ≠ keyOf period d := fun h => hd (hnew d hperiod h.symm)
        have hmiss : [g].find? (·.period = some s) = none := by simp [hperiod, hd]
        rw [Function.update_of_ne hkey, hmiss, Option.or_none]
        exact hold

end Maps

section Grouped

variable {R V : Type} {pg : Postgres} {period : String} {s : Time}

theorem find_groupBy (hpg : pg.Utc) (rows : List R) (key : R → Option Time)
    (aggregate : List R → V) (k : Option Time) :
    (pg.groupBy rows key aggregate).find? (·.period = k) =
      if k ∈ rows.map key then some ⟨k, aggregate (rows.filter (key · = k))⟩ else none := by
  have hfind : (pg.groups (rows.map key)).find? (· = k) =
      if k ∈ rows.map key then some k else none := by
    cases hfound : (pg.groups (rows.map key)).find? (· = k) with
    | none =>
      rw [List.find?_eq_none] at hfound
      rw [if_neg]
      exact fun hk => hfound k ((hpg.mem_groups _ _).mpr hk) (decide_eq_true rfl)
    | some k' =>
      obtain rfl : k' = k := of_decide_eq_true (List.find?_some (p := fun x => decide (x = k)) hfound)
      rw [if_pos ((hpg.mem_groups _ _).mp (List.mem_of_find?_eq_some hfound))]
  rw [Postgres.groupBy, List.find?_map]
  show Option.map _ ((pg.groups (rows.map key)).find? (· = k)) = _
  rw [hfind]
  split_ifs <;> rfl

/-- The value kept for a date: its group's, which is that of no rows if there is none. -/
theorem mapOf_groupBy (hpg : pg.Utc) (rows : List R) (key : R → Option Time)
    (aggregate : List R → V)
    (hinj : ∀ r ∈ rows, ∀ d ∈ key r, keyOf period d = keyOf period s → d = s) :
    (mapOf period (pg.groupBy rows key aggregate) (keyOf period s)).getD (aggregate []) =
      aggregate (rows.filter (key · = some s)) := by
  have hnodup : ((pg.groupBy rows key aggregate).map (·.period)).Nodup := by
    rw [Postgres.groupBy, List.map_map]
    exact (List.map_id _).symm ▸ hpg.nodup_groups _
  rw [mapOf_keyOf _ hnodup, find_groupBy hpg]
  · split_ifs with hs
    · rfl
    · have hnone : rows.filter (key · = some s) = [] := by
        rw [List.filter_eq_nil_iff]
        intro r hr hkey
        exact hs (List.mem_map.mpr ⟨r, hr, of_decide_eq_true hkey⟩)
      rw [hnone]
      rfl
  · intro g hg d hd
    rw [Postgres.groupBy, List.mem_map] at hg
    obtain ⟨k, hk, rfl⟩ := hg
    rw [hpg.mem_groups, List.mem_map] at hk
    obtain ⟨r, hr, rfl⟩ := hk
    exact hinj r hr d hd

/-- The database truncates to the start of the period. -/
theorem date_trunc_eq (hpg : pg.Utc) (t : Time) :
    pg.date_trunc (intervalOf period) t = (periodGrid period).floor t := by
  unfold intervalOf periodGrid
  split_ifs
  · rw [← startOfUTCDay_floor]
    exact (hpg.day t).unique (Postgres.utc_utc.day t)
  · rw [← startOfUTCWeek_floor]
    exact (hpg.week t).unique (Postgres.utc_utc.week t)
  · rw [← startOfUTCMonth_floor]
    exact (hpg.month t).unique (Postgres.utc_utc.month t)

end Grouped

/-! ### Period by period -/

/-- The sum of the payments that are paid from `start` on and before `stop`. -/
def revenueIn (db : Db) (start stop : Time) : ℚ :=
  ((db.payments.filter fun p =>
    p.status = .PAID ∧ ∃ paidAt ∈ p.paidAt, start ≤ paidAt ∧ paidAt < stop).map (·.amount)).sum

/-- The number of the bookings made from `start` on and before `stop`. -/
def bookingsIn (db : Db) (start stop : Time) : ℕ :=
  (db.bookings.filter fun b => start ≤ b.createdAt ∧ b.createdAt < stop).length

/-- The periods that are shown, the last of which is that of `now`. -/
def periods (period : String) (now : Time) : List ℤ :=
  (List.range (daysOf period)).reverse.map fun i : ℕ => (periodGrid period).cell now - i

section Rows

variable {pg : Postgres} {period : String} {now : Time}

theorem mem_periods {k : ℤ} : k ∈ periods period now ↔
    (periodGrid period).cell now - daysOf period < k ∧ k ≤ (periodGrid period).cell now := by
  simp only [periods, List.mem_map, List.mem_reverse, List.mem_range]
  constructor
  · rintro ⟨i, hi, rfl⟩
    omega
  · rintro ⟨hlt, hle⟩
    exact ⟨((periodGrid period).cell now - k).toNat, by omega, by omega⟩

theorem periods_pairwise : (periods period now).Pairwise (· < ·) := by
  rw [periods, List.pairwise_map, List.pairwise_reverse]
  refine List.pairwise_lt_range.imp ?_
  intro i j hij
  omega

/-- An instant is in one of the periods exactly if it is in the range. -/
theorem mem_range_iff (t : Time) : (rangeStartDate period now ≤ t ∧ t < rangeEndDate period now) ↔
    (periodGrid period).cell t ∈ periods period now := by
  rw [rangeStartDate_eq, rangeEndDate_eq, mem_periods]
  have hmem := (periodGrid period).mem_Ico_iff (t := t)
    (j := (periodGrid period).cell now + 1 + -daysOf period)
    (k := (periodGrid period).cell now + 1)
  rw [Set.mem_Ico, Set.mem_Ico] at hmem
  rw [hmem]
  omega

variable (hpg : pg.Utc) {k : ℤ} (hk : k ∈ periods period now)
include hpg

/-- A truncated instant is the start of a period exactly if it is in that period. -/
theorem date_trunc_iff {t : Time} :
    pg.date_trunc (intervalOf period) t = (periodGrid period).start k ↔
      (periodGrid period).start k ≤ t ∧ t < (periodGrid period).start (k + 1) := by
  rw [date_trunc_eq hpg, Grid.floor_eq_iff, Grid.cell_eq_iff]

theorem keyOf_date_trunc {t : Time} (h : keyOf period (pg.date_trunc (intervalOf period) t) =
    keyOf period ((periodGrid period).start k)) :
    pg.date_trunc (intervalOf period) t = (periodGrid period).start k := by
  rw [date_trunc_eq hpg] at h ⊢
  exact congrArg (periodGrid period).start (keyOf_start_injective period h)

include hk

/-- Of the rows in the range, those of a period are those truncated to its start. -/
theorem range_and_trunc_iff {t : Time} :
    ((rangeStartDate period now ≤ t ∧ t < rangeEndDate period now) ∧
      pg.date_trunc (intervalOf period) t = (periodGrid period).start k) ↔
    (periodGrid period).start k ≤ t ∧ t < (periodGrid period).start (k + 1) := by
  rw [mem_range_iff, date_trunc_iff hpg, ← Grid.cell_eq_iff, and_iff_right_iff_imp]
  rintro rfl
  exact hk

theorem revenue_lookup (db : Db) :
    (mapOf period (paymentGroups pg (intervalOf period) (rangeStartDate period now)
      (rangeEndDate period now) db) (keyOf period ((periodGrid period).start k))).getD 0 =
      revenueIn db ((periodGrid period).start k) ((periodGrid period).start (k + 1)) := by
  refine (mapOf_groupBy hpg _ _ _ ?_).trans ?_
  · intro p _ d hd
    obtain ⟨t, -, rfl⟩ := Option.map_eq_some_iff.mp hd
    exact keyOf_date_trunc hpg
  · rw [List.filter_filter, revenueIn]
    congr 2
    refine List.filter_congr fun p _ => ?_
    rw [← Bool.decide_and, decide_eq_decide]
    cases p.paidAt with
    | none => simp
    | some t =>
      simp only [Option.map_some, Option.some.injEq, Option.mem_def, exists_eq_left',
        ← range_and_trunc_iff hpg hk]
      tauto

theorem bookings_lookup (db : Db) :
    (mapOf period (bookingGroups pg (intervalOf period) (rangeStartDate period now)
      (rangeEndDate period now) db) (keyOf period ((periodGrid period).start k))).getD 0 =
      bookingsIn db ((periodGrid period).start k) ((periodGrid period).start (k + 1)) := by
  refine (mapOf_groupBy hpg _ _ _ ?_).trans ?_
  · intro b _ d hd
    obtain rfl := Option.some.inj hd
    exact keyOf_date_trunc hpg
  · rw [List.filter_filter, bookingsIn]
    congr 1
    refine List.filter_congr fun b _ => ?_
    rw [← Bool.decide_and, decide_eq_decide, Option.some.injEq, ← range_and_trunc_iff hpg hk,
      and_comm]

end Rows

theorem getRevenueAnalytics_eq {pg : Postgres} (hpg : pg.Utc) (period : String) (now : Time)
    (db : Db) :
    getRevenueAnalytics pg period now db = (periods period now).map fun k =>
      { label := keyOf period ((periodGrid period).start k)
        revenue := revenueIn db ((periodGrid period).start k) ((periodGrid period).start (k + 1))
        bookings :=
          bookingsIn db ((periodGrid period).start k) ((periodGrid period).start (k + 1)) } := by
  rw [getRevenueAnalytics, periods, List.map_map]
  refine List.map_congr_left fun i hi => ?_
  have hk : (periodGrid period).cell now - i ∈ periods period now := List.mem_map_of_mem hi
  have hstart : startDate period (rangeEndDate period now) i =
      (periodGrid period).start ((periodGrid period).cell now - i) := by
    rw [rangeEndDate_eq, startDate_eq]
    congr 1
    omega
  dsimp only
  rw [hstart, revenue_lookup hpg hk, bookings_lookup hpg hk]
  rfl

theorem getLast_periods (period : String) (now : Time) :
    (periods period now).getLast? = some ((periodGrid period).cell now) := by
  have hpos : daysOf period ≠ 0 := by
    unfold daysOf
    split_ifs <;> decide
  rw [periods, List.getLast?_map, List.getLast?_reverse, List.head?_range, if_neg hpos]
  simp

/-- One row for every period, with what was paid and booked in it; no label is used twice, and
every instant of the range is in one period. -/
theorem getRevenueAnalytics_rows {pg : Postgres} (hpg : pg.Utc) (period : String) (now : Time)
    (db : Db) :
    (getRevenueAnalytics pg period now db = (periods period now).map fun k =>
      { label := keyOf period ((periodGrid period).start k)
        revenue := revenueIn db ((periodGrid period).start k) ((periodGrid period).start (k + 1))
        bookings :=
          bookingsIn db ((periodGrid period).start k) ((periodGrid period).start (k + 1)) }) ∧
    ((getRevenueAnalytics pg period now db).map (·.label)).Nodup ∧
    (periods period now).length = daysOf period ∧
    ((periods period now).map (periodGrid period).start).Pairwise (· < ·) ∧
    (∃ last ∈ (periods period now).getLast?, (periodGrid period).start last ≤ now ∧
      now < (periodGrid period).start (last + 1)) ∧
    ∀ t, rangeStartDate period now ≤ t ∧ t < rangeEndDate period now ↔
      ∃! k, k ∈ periods period now ∧ (periodGrid period).start k ≤ t ∧
        t < (periodGrid period).start (k + 1) := by
  have hrows := getRevenueAnalytics_eq hpg period now db
  refine ⟨hrows, ?_, ?_, ?_, ?_, fun t => ?_⟩
  · rw [hrows, List.map_map]
    exact List.Nodup.map (keyOf_start_injective period) (periods_pairwise.imp ne_of_lt)
  · simp [periods]
  · exact List.pairwise_map.mpr (periods_pairwise.imp fun h => (periodGrid period).start_strictMono h)
  · exact ⟨_, getLast_periods period now, (periodGrid period).floor_le now,
      (periodGrid period).lt_next now⟩
  · rw [mem_range_iff]
    constructor
    · intro ht
      refine ⟨(periodGrid period).cell t, ⟨ht, (periodGrid period).floor_le t,
        (periodGrid period).lt_next t⟩, ?_⟩
      rintro k ⟨-, hin⟩
      exact ((periodGrid period).cell_eq_iff.mpr hin).symm
    · rintro ⟨k, ⟨hk, hin⟩, -⟩
      rwa [(periodGrid period).cell_eq_iff.mpr hin]

/-- At noon on 5 July 2026 the 30 days show what was paid on 4 July in the last row but one. -/
theorem getRevenueAnalytics_rows_july :
    let db : Db := {
      turfs := [], slots := [], bookings := [], webhookEvents := [], coupons := []
      couponUsages := [], auditLogs := []
      payments := [⟨1, 1, 100, "usd", .PAID, ⟨1⟩, none, none, some (20638 * dayMs), none⟩] }
    (getRevenueAnalytics .utc "daily" (20639 * dayMs + 12 * hourMs) db).map (·.revenue) =
      List.replicate 28 0 ++ [100, 0] := by
  intro db
  rw [(getRevenueAnalytics_rows Postgres.utc_utc "daily" _ db).1]
  decide +kernel

end TurfSync.AdminService
