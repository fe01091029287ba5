import TurfSync.Guarantees.SlotTable

/-! The generated slots against the opening hours. The generator reads the hours of the
opening and the closing time and not the minutes, so its slots lie inside the opening
hours exactly when the turf opens on the hour, and does not close later within the hour
it opens in. -/

namespace TurfSync

open Txn SlotService

/-! ### Opening hours -/

namespace Turf

variable (turf : Turf) (date : Time)

/-- The instant the turf opens at on a business day. -/
def opening : Time := setUTCHours date turf.openTime.hour turf.openTime.minute

/-- The turf closes on the next day. -/
def Overnight : Prop := turf.closeTime.minutes ≤ turf.openTime.minutes

instance : Decidable turf.Overnight := inferInstanceAs (Decidable (_ ≤ _))

/-- The instant the turf closes at. -/
def closing : Time :=
  setUTCHours (if turf.Overnight then date + dayMs else date) turf.closeTime.hour
    turf.closeTime.minute

/-- The closing time in minutes, counted from the midnight before the opening. -/
def closingMinutes : ℕ := turf.closeTime.minutes + if turf.Overnight then 1440 else 0

end Turf

/-- A slot lies inside the opening hours of a business day. -/
def Slot.Within (s : Slot) (turf : Turf) (date : Time) : Prop :=
  turf.opening date ≤ s.start ∧ s.finish ≤ turf.closing date

variable {turf : Turf} {date : Time}

theorem setUTCHours_minutes (date : Time) (t : TimeOfDay) :
    setUTCHours date t.hour t.minute = startOfUTCDay date + t.minutes * 60000 := by
  simp only [setUTCHours, TimeOfDay.minutes, hourMs]
  push_cast
  ring

theorem startOfUTCDay_next (date : Time) : startOfUTCDay (date + dayMs) = startOfUTCDay date + dayMs := by
  simpa using startOfUTCDay_add_days date 1

theorem startOfUTCDay_idem (date : Time) : startOfUTCDay (startOfUTCDay date) = startOfUTCDay date := by
  have hmod : (date - date % dayMs) % dayMs = 0 := Int.emod_eq_zero_of_dvd (Int.dvd_self_sub_emod)
  rw [startOfUTCDay, startOfUTCDay, hmod, sub_zero]

theorem closing_eq : turf.closing date = startOfUTCDay date + turf.closingMinutes * 60000 := by
  rw [Turf.closing, setUTCHours_minutes, Turf.closingMinutes]
  split_ifs
  · have hday : dayMs = 1440 * 60000 := rfl
    rw [startOfUTCDay_next, hday]
    push_cast
    ring
  · rfl

/-! ### The slots of one day -/

/-- Only the day of the date counts. -/
theorem slotAt_day_row (turf : Turf) (date : Time) (hour : ℕ) (id : SlotId) :
    (slotAt turf date hour).row id = (slotAt turf (startOfUTCDay date) hour).row id := by
  simp only [NewSlot.row, slotAt]
  split_ifs
  · rw [startOfUTCDay_next, startOfUTCDay_next, startOfUTCDay_idem]
  · rw [startOfUTCDay_idem]

theorem slotAt_row_start (turf : Turf) (date : Time) (id : SlotId) {hour : ℕ} (hhour : hour < 48) :
    ((slotAt turf date hour).row id).start = startOfUTCDay date + hour * hourMs := by
  rw [slotAt_day_row]
  exact slotAt_start turf (startOfUTCDay_idem date) id hhour

theorem slotAt_within_iff (id : SlotId) {hour : ℕ} (hhour : hour < 48) :
    ((slotAt turf date hour).row id).Within turf date ↔
      turf.openTime.minutes ≤ hour * 60 ∧ (hour + 1) * 60 ≤ turf.closingMinutes := by
  have hhourMs : hourMs = 60 * 60000 := rfl
  rw [Slot.Within, slotAt_finish, slotAt_row_start turf date id hhour, closing_eq, Turf.opening,
    setUTCHours_minutes, hhourMs]
  refine and_congr ?_ ?_
  · rw [add_le_add_iff_left, ← mul_assoc, mul_le_mul_iff_left₀ (by norm_num)]
    exact_mod_cast Iff.rfl
  · rw [add_assoc, add_le_add_iff_left, ← mul_assoc, ← add_mul, mul_le_mul_iff_left₀ (by norm_num),
      ← add_one_mul]
    exact_mod_cast Iff.rfl

/-- A row that generation adds is the slot of an hour from the opening to the closing
hour. -/
theorem mem_created {w : World} {rows : List Slot}
    (h : (generateTurfSlots turf date w).2.db.slots = w.db.slots ++ rows) {s : Slot} (hs : s ∈ rows) :
    ∃ hour id, (turf.currentHour ≤ hour ∧ hour < turf.endHour) ∧
      s = (slotAt turf date hour).row id := by
  by_cases hdata : ∀ d ∈ slotsToCreate turf date, (w.db.turf? d.turfId).isSome
  · obtain ⟨added, hsub, hadded⟩ := @Rows.insertAll_eq _ _ _ Slot.key w.db.slots
      (newRows w.out.uuid (slotsToCreate turf date))
    rw [generateTurfSlots, slotCreateMany_ok hdata] at h
    obtain rfl := List.append_cancel_left (hadded.symm.trans h)
    obtain ⟨d, hd, id, -, -, rfl⟩ := mem_newRows (hsub.subset hs)
    obtain ⟨hour, hh, rfl⟩ := List.mem_map.mp hd
    rw [List.mem_range'_1] at hh
    exact ⟨hour, id, by omega, rfl⟩
  · have hfail : ∃ d ∈ slotsToCreate turf date, (w.db.turf? d.turfId).isNone := by
      simpa using hdata
    rw [generateTurfSlots, slotCreateMany, if_pos hfail] at h
    obtain rfl : rows = [] := by simpa using h
    simp at hs

/-- From an empty table, each hour is created. -/
theorem created_of_hour {hour : ℕ} (hlow : turf.currentHour ≤ hour) (hhigh : hour < turf.endHour)
    (hend : turf.endHour ≤ 48) {w : World} (hturf : (w.db.turf? turf.id).isSome)
    (hempty : w.db.slots = []) :
    ∃ id, (slotAt turf date hour).row id ∈ (generateTurfSlots turf date w).2.db.slots := by
  have hmem : slotAt turf date hour ∈ slotsToCreate turf date :=
    List.mem_map_of_mem (List.mem_range'_1.mpr (by omega))
  obtain ⟨r, hr, hkey⟩ := @newRows_key w.out.uuid _ _ hmem
  obtain ⟨s, hs, hskey⟩ : ∃ s ∈ Rows.insertAll Slot.key w.db.slots
      (newRows w.out.uuid (slotsToCreate turf date)), s.key = r.key := Rows.key_insertAll hr
  have hslots : (generateTurfSlots turf date w).2.db.slots =
      Rows.insertAll Slot.key w.db.slots (newRows w.out.uuid (slotsToCreate turf date)) :=
    congrArg (fun r => r.2.db.slots) (generateTurfSlots_ok hturf)
  have hrows : (generateTurfSlots turf date w).2.db.slots =
      w.db.slots ++ (generateTurfSlots turf date w).2.db.slots := by rw [hempty, List.nil_append]
  rw [← hslots] at hs
  obtain ⟨hour', id, hh, rfl⟩ := mem_created hrows hs
  -- rows of one place in the index start together
  have hplace : ((slotAt turf date hour').row id).key = ((slotAt turf date hour).row id).key :=
    hskey.trans hkey
  have hstart : ((slotAt turf date hour').row id).start = ((slotAt turf date hour).row id).start := by
    simp only [Slot.key, Prod.mk.injEq] at hplace
    rw [Slot.start, Slot.start, hplace.2.1, hplace.2.2]
  rw [slotAt_row_start turf date id (by omega), slotAt_row_start turf date id (by omega)] at hstart
  have hcast : (hour' : ℤ) = hour :=
    mul_right_cancel₀ (show hourMs ≠ 0 by decide) (add_left_cancel hstart)
  obtain rfl : hour' = hour := by exact_mod_cast hcast
  exact ⟨id, hs⟩

/-- The hours of a business day lie inside the opening hours. -/
theorem hours_within_iff (hopen : turf.openTime.Accepted) (hclose : turf.closeTime.Accepted) :
    (∀ hour, turf.currentHour ≤ hour → hour < turf.endHour →
      turf.openTime.minutes ≤ hour * 60 ∧ (hour + 1) * 60 ≤ turf.closingMinutes) ↔
      turf.openTime.minute = 0 ∧
        (turf.closeTime.hour = turf.openTime.hour → turf.closeTime.minute = 0) := by
  obtain ⟨-, hnonempty⟩ := hours_le hopen hclose
  obtain ⟨hoh, hom⟩ := hopen
  obtain ⟨hch, hcm⟩ := hclose
  have hclosing : turf.closingMinutes = turf.closeTime.minutes + 1440 ∧
      turf.closeTime.minutes ≤ turf.openTime.minutes ∨
      turf.closingMinutes = turf.closeTime.minutes ∧
        ¬ turf.closeTime.minutes ≤ turf.openTime.minutes := by
    by_cases hover : turf.Overnight
    · exact .inl ⟨congrArg (_ + ·) (if_pos hover), hover⟩
    · exact .inr ⟨congrArg (_ + ·) (if_neg hover), hover⟩
  simp only [TimeOfDay.minutes] at hclosing ⊢
  constructor
  · intro h
    -- the first hour starts at the opening hour, and ends too late if the turf closes in it
    obtain ⟨hfirst, hlast⟩ := h turf.currentHour le_rfl hnonempty
    simp only [Turf.currentHour] at hfirst hlast
    have hminute : turf.openTime.minute = 0 := by omega
    exact ⟨hminute, fun hsame => by omega⟩
  · rintro ⟨hminute, hsame⟩ hour hlow hhigh
    unfold Turf.currentHour at hlow
    unfold Turf.endHour Turf.currentHour at hhigh
    split_ifs at hhigh <;> omega

/-- Whatever slots there are, the slots that generation adds for a business day lie inside
the opening hours: exactly for a turf that opens on the hour and does not close later
within that hour. -/
theorem created_within_iff (hopen : turf.openTime.Accepted) (hclose : turf.closeTime.Accepted)
    (date : Time) :
    (∀ w rows, (generateTurfSlots turf date w).2.db.slots = w.db.slots ++ rows →
      ∀ s ∈ rows, s.Within turf date) ↔
      turf.openTime.minute = 0 ∧
        (turf.closeTime.hour = turf.openTime.hour → turf.closeTime.minute = 0) := by
  obtain ⟨hle, -⟩ := hours_le hopen hclose
  have hcur : turf.currentHour < 24 := hopen.1
  rw [← hours_within_iff hopen hclose]
  constructor
  · intro h hour hlow hhigh
    let w : World := ⟨⟨[turf], [], [], [], [], [], [], []⟩, ⟨0, 0, fun _ => none, [], [], [], []⟩, []⟩
    have hturf : (w.db.turf? turf.id).isSome := by simp [w, Db.turf?, Rows.lookup]
    obtain ⟨id, hs⟩ := @created_of_hour turf date _ hlow hhigh (by omega) w hturf rfl
    exact (slotAt_within_iff id (by omega)).mp (h w _ rfl _ hs)
  · intro h w rows hrows s hs
    obtain ⟨hour, id, hh, rfl⟩ := mem_created hrows hs
    exact (slotAt_within_iff id (by omega)).mpr (h hour hh.1 hh.2)

/-- From six in the evening to eight. -/
theorem created_within_arena :
    (∀ w rows, (generateTurfSlots Arena.turf 0 w).2.db.slots = w.db.slots ++ rows →
      ∀ s ∈ rows, s.Within Arena.turf 0) ↔
      Arena.turf.openTime.minute = 0 ∧
        (Arena.turf.closeTime.hour = Arena.turf.openTime.hour → Arena.turf.closeTime.minute = 0) :=
  created_within_iff (by decide) (by decide) 0

/-- A turf that opens at half past six has a slot from six on. -/
theorem created_before_opening :
    let turf := { Arena.turf with openTime := ⟨6, 30⟩, closeTime := ⟨23, 0⟩ }
    let w : World := { Arena.sys.world with db := { Arena.db with turfs := [turf], slots := [] } }
    turf.openTime.Accepted ∧ turf.closeTime.Accepted ∧
      ∃ s ∈ (generateTurfSlots turf 0 w).2.db.slots, s ∉ w.db.slots ∧ s.start < turf.opening 0 ∧
        ¬ s.Within turf 0 := by
  intro turf w
  refine ⟨by decide, by decide, ⟨100, 1, 0, ⟨6, 0⟩, ⟨7, 0⟩, false⟩, by decide +kernel,
    by decide, by decide, fun h => ?_⟩
  exact absurd h.1 (by decide)

end TurfSync
