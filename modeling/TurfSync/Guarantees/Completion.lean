import TurfSync.Protocol.Solo
import TurfSync.Guarantees.OpeningHours

/-! When the completion job completes a booking. The job takes the end of a slot on the
date the slot starts on. So it is right, for the slots that are generated, except where a
slot ends at midnight: such a slot counts as over as soon as its date has begun. -/

namespace TurfSync

open Txn SlotService BookingCompleteJob

variable {cfg : Config} {c : Session Call} {w : World} {now : Time}

/-! ### The job -/

/-- The rows that the loop completes. -/
def Over (now : Time) (row : Booking × Slot) : Prop := slotDate row.2 < now

instance (now : Time) : DecidablePred (Over now) := fun _ => inferInstanceAs (Decidable (_ < _))

def completedIds (now : Time) (rows : List (Booking × Slot)) : List BookingId :=
  (rows.filter (Over now ·)).map (·.1.id)

theorem setBookings_cons (id : BookingId) (ids : List BookingId) (status : BookingStatus)
    (bookings : List Booking) : Db.setBookings ids status (Db.setBookings [id] status bookings) =
      Db.setBookings (id :: ids) status bookings := by
  simp only [Db.setBookings, Rows.update, List.map_map]
  refine List.map_congr_left fun b _ => ?_
  by_cases hid : b.id = id
  · simp [hid]
  · simp [hid]

/-- One round of the loop. -/
theorem solo_complete {row : Booking × Slot} (hrow : (w.db.booking? row.1.id).isSome) :
    ∃ w', (engine cfg).solo c (complete now row) .idle w = (.ok (), .idle, w') ∧
      w'.db = if Over now row then w.db.apply (.bookingSet [row.1.id] .COMPLETED) else w.db := by
  unfold complete
  by_cases hover : Over now row
  · obtain ⟨b, hb⟩ := Option.isSome_iff_exists.mp hrow
    have hplan : (Update.bookingUpdate row.1.id .COMPLETED).plan cfg w.db w.out.uuid w.out.now =
        ⟨.ok (), [.booking row.1.id], [.bookingSet [row.1.id] .COMPLETED], 0⟩ := by
      simp only [Update.plan, hb]
    rw [if_pos hover, if_pos (show slotDate row.2 < now from hover), solo_update hplan]
    exact ⟨_, rfl, rfl⟩
  · rw [if_neg hover, if_neg (show ¬ slotDate row.2 < now from hover)]
    exact ⟨w, rfl, rfl⟩

theorem isSome_booking?_apply {id id' : BookingId} {db : Db} (h : (db.booking? id).isSome) :
    ((db.apply (.bookingSet [id'] .COMPLETED)).booking? id).isSome := by
  rw [Db.booking?_set (show _ = Db.setBookings [id'] .COMPLETED db.bookings from rfl)]
  split_ifs
  · rwa [Option.isSome_map]
  · exact h

theorem solo_completeAll {rows : List (Booking × Slot)}
    (hrows : ∀ row ∈ rows, (w.db.booking? row.1.id).isSome) :
    ∃ w', (engine cfg).solo c (Script.forEach (complete now) rows) .idle w = (.ok (), .idle, w') ∧
      w'.db = w.db.apply (.bookingSet (completedIds now rows) .COMPLETED) := by
  induction rows generalizing w with
  | nil =>
    refine ⟨w, rfl, ?_⟩
    simp [completedIds, Db.apply, Db.setBookings]
  | cons row rows ih =>
    obtain ⟨w₁, hw₁, hdb₁⟩ := @solo_complete cfg c _ now _ (hrows row (by simp))
    have hrest : ∀ row' ∈ rows, (w₁.db.booking? row'.1.id).isSome := by
      intro row' hrow'
      have hold := hrows row' (by simp [hrow'])
      rw [hdb₁]
      split_ifs
      · exact isSome_booking?_apply hold
      · exact hold
    obtain ⟨w₂, hw₂, hdb₂⟩ := ih hrest
    refine ⟨w₂, ?_, ?_⟩
    · rw [Script.forEach, Engine.solo_bind, hw₁]
      exact hw₂
    · rw [hdb₂, hdb₁]
      by_cases hover : Over now row
      · rw [if_pos hover, completedIds, completedIds, List.filter_cons_of_pos (by simpa using hover)]
        simp only [Db.apply, setBookings_cons, List.map_cons]
      · rw [if_neg hover, completedIds, completedIds, List.filter_cons_of_neg (by simpa using hover)]

/-- The bookings whose row the job reads and whose slot it takes to be over. -/
theorem solo_autoCompleteBookings (hids : (w.db.bookings.map (·.id)).Nodup) :
    ∃ w', (engine cfg).solo c (autoCompleteBookings now) .idle w = (.ok .done, .idle, w') ∧
      w'.db = w.db.apply (.bookingSet
        (completedIds now ((Query.bookingFindExpired now).eval w.db)) .COMPLETED) := by
  have hrows : ∀ row ∈ (Query.bookingFindExpired now).eval w.db,
      (w.db.booking? row.1.id).isSome := by
    intro row hrow
    obtain ⟨b, hb, hslot⟩ := List.mem_filterMap.mp (List.mem_of_mem_filter hrow)
    obtain ⟨s, -, rfl⟩ := Option.map_eq_some_iff.mp hslot
    rw [Db.booking?, Rows.lookup_of_mem hids hb]
    rfl
  obtain ⟨w', hw', hdb⟩ := @solo_completeAll cfg c _ now _ hrows
  refine ⟨w', ?_, hdb⟩
  unfold autoCompleteBookings
  simp only [Prog.bind_eq, Prog.pure_eq, Engine.solo_bind, solo_query (.bookingFindExpired now),
    Engine.andThen_ok, hw']
  rfl

/-- A confirmed booking is completed when its slot's date has come and the job takes the
slot to be over. -/
theorem mem_completedIds_iff {b : Booking} {s : Slot} (hids : (w.db.bookings.map (·.id)).Nodup)
    (hb : b ∈ w.db.bookings) (hstatus : b.status = .CONFIRMED)
    (hslot : w.db.slot? b.slotId = some s) :
    b.id ∈ completedIds now ((Query.bookingFindExpired now).eval w.db) ↔
      s.date ≤ now ∧ slotDate s < now := by
  simp only [completedIds, Query.eval, List.mem_map, List.mem_filter, List.mem_filterMap,
    decide_eq_true_eq]
  constructor
  · rintro ⟨row, ⟨⟨⟨b', hb', hrow⟩, -, hdate⟩, hover⟩, hid⟩
    obtain ⟨s', hs', rfl⟩ := Option.map_eq_some_iff.mp hrow
    obtain rfl : b' = b := Rows.eq_of_key hids hb' hb hid
    obtain rfl : s = s' := Option.some.inj (hslot.symm.trans hs')
    exact ⟨hdate, hover⟩
  · rintro ⟨hdate, hover⟩
    exact ⟨(b, s), ⟨⟨⟨b, hb, by rw [hslot]; rfl⟩, hstatus, hdate⟩, hover⟩, rfl⟩

/-! ### Generated slots -/

/-- A slot of some turf's opening hours, booked or not. -/
def Slot.Generated (s : Slot) : Prop :=
  ∃ turf date hour id v, turf.openTime.Accepted ∧ turf.closeTime.Accepted ∧
    (turf.currentHour ≤ hour ∧ hour < turf.endHour) ∧
    s = { (slotAt turf date hour).row id with isBooked := v }

/-- The times of a generated slot, from its date and the hour it starts at. -/
structure Slot.Hourly (s : Slot) : Prop where
  date : startOfUTCDay s.date = s.date
  hour : s.startTime.hour < 24
  start : s.start = s.date + s.startTime.hour * hourMs
  endHour : s.endTime.hour = (s.startTime.hour + 1) % 24

theorem Slot.Generated.hourly {s : Slot} (h : s.Generated) : s.Hourly := by
  obtain ⟨turf, date, hour, id, v, -, -, -, rfl⟩ := h
  refine ⟨startOfUTCDay_idem _, Nat.mod_lt _ (by norm_num), ?_, ?_⟩
  · simp only [Slot.start, NewSlot.row, slotAt, setUTCHours, startOfUTCDay_idem]
    push_cast
    ring
  · simp only [NewSlot.row, slotAt]
    omega

/-- The job is right about the end of a slot, unless it is midnight. -/
theorem Slot.Hourly.over_iff {s : Slot} (h : s.Hourly) (now : Time) :
    (s.date ≤ now ∧ slotDate s < now ↔ s.start + hourMs < now) ↔
      ¬ (s.startTime.hour = 23 ∧ s.date < now ∧ now ≤ s.start + hourMs) := by
  have hpos : 0 < hourMs := by decide
  have hdate : slotDate s = s.date + s.endTime.hour * hourMs := by
    simp [slotDate, setUTCHours, h.date]
  rw [hdate, h.endHour, h.start]
  by_cases hlast : s.startTime.hour = 23
  · have hmod : (s.startTime.hour + 1) % 24 = 0 := by omega
    rw [hmod, hlast]
    push_cast
    constructor
    · rintro hiff ⟨-, hlt, hle⟩
      have hnow := hiff.mp ⟨hlt.le, by linarith⟩
      linarith
    · intro hnot
      constructor
      · rintro ⟨-, hlt⟩
        by_contra hle
        exact hnot ⟨trivial, by linarith, by linarith⟩
      · intro hlt
        have hle : s.date ≤ now := by linarith
        exact ⟨hle, by linarith⟩
  · have hhour := h.hour
    have hmod : (s.startTime.hour + 1) % 24 = s.startTime.hour + 1 := by omega
    have hend : s.date + ((s.startTime.hour + 1 : ℕ) : ℤ) * hourMs =
        s.date + s.startTime.hour * hourMs + hourMs := by
      push_cast
      ring
    rw [hmod, hend]
    refine iff_of_true ⟨And.right, fun hlt => ⟨?_, hlt⟩⟩ fun hall => hlast hall.1
    have hnonneg : 0 ≤ (s.startTime.hour : ℤ) * hourMs := by positivity
    linarith

/-! ### Completion -/

/-- The completion job, run alone, completes a confirmed booking on a generated slot when
the slot is over: exactly where the slot does not end at midnight, or its date has not
begun, or it is over. -/
theorem completed_iff {b : Booking} {s : Slot} (hids : (w.db.bookings.map (·.id)).Nodup)
    (hb : b ∈ w.db.bookings) (hstatus : b.status = .CONFIRMED)
    (hslot : w.db.slot? b.slotId = some s) (hs : s.Generated) :
    let after := ((engine cfg).solo c (autoCompleteBookings now) .idle w).2.2.db
    (after.booking? b.id = some { b with status := .COMPLETED } ↔ s.start + hourMs < now) ↔
      ¬ (s.startTime.hour = 23 ∧ s.date < now ∧ now ≤ s.start + hourMs) := by
  obtain ⟨w', hw', hdb⟩ := @solo_autoCompleteBookings cfg c _ now hids
  have hrow : w.db.booking? b.id = some b := Rows.lookup_of_mem hids hb
  have hafter : w'.db.booking? b.id = some { b with status := .COMPLETED } ↔
      s.date ≤ now ∧ slotDate s < now := by
    rw [← mem_completedIds_iff hids hb hstatus hslot, hdb,
      Db.booking?_set (show _ = Db.setBookings _ _ w.db.bookings from rfl), hrow]
    split_ifs with hmem
    · exact iff_of_true rfl hmem
    · refine iff_of_false (fun he => ?_) hmem
      have hcompleted := congrArg Booking.status (Option.some.inj he)
      rw [hstatus] at hcompleted
      cases hcompleted
  intro after
  rw [show after = w'.db from congrArg (fun r => r.2.2.db) hw', hafter]
  exact hs.hourly.over_iff now

namespace Arena

/-- User 7 has paid for the slot. -/
def taken (s : Slot) : World :=
  { sys.world with db := { db with
      slots := [s]
      bookings := [⟨101, 7, 1, s.id, 1000, .CONFIRMED, none, 0⟩] } }

/-- The last hour before midnight. -/
def latest : Slot := { slot 6 with endTime := ⟨0, 0⟩ }

theorem generated_evening : (slot 2).Generated :=
  ⟨turf, 5 * dayMs, 19, 2, false, by decide, by decide, by decide, rfl⟩

theorem generated_latest : latest.Generated :=
  ⟨{ turf with closeTime := ⟨2, 0⟩ }, 5 * dayMs, 23, 6, false, by decide, by decide, by decide, rfl⟩

end Arena

/-- A slot from seven to eight, at half past seven. -/
theorem completed_iff_evening :
    let now := 5 * dayMs + 19 * hourMs + 1800000
    let after := ((engine (Arena.cfg true)).solo ⟨0, .autoCompleteBookings now⟩
      (autoCompleteBookings now) .idle (Arena.taken (Arena.slot 2))).2.2.db
    (after.booking? 101 = some ⟨101, 7, 1, 2, 1000, .COMPLETED, none, 0⟩ ↔
      (Arena.slot 2).start + hourMs < now) ↔
      ¬ ((Arena.slot 2).startTime.hour = 23 ∧ (Arena.slot 2).date < now ∧
        now ≤ (Arena.slot 2).start + hourMs) :=
  completed_iff (w := Arena.taken (Arena.slot 2)) (b := ⟨101, 7, 1, 2, 1000, .CONFIRMED, none, 0⟩)
    (by decide) (by decide) rfl (by decide) Arena.generated_evening

/-- In the morning, the slot of the coming night is over. -/
theorem completed_before_start :
    let now := 5 * dayMs + 8 * hourMs
    let after := ((engine (Arena.cfg true)).solo ⟨0, .autoCompleteBookings now⟩
      (autoCompleteBookings now) .idle (Arena.taken Arena.latest)).2.2.db
    Arena.latest.Generated ∧ now < Arena.latest.start ∧
      after.booking? 101 = some ⟨101, 7, 1, 6, 1000, .COMPLETED, none, 0⟩ := by
  refine ⟨Arena.generated_latest, by decide, by decide +kernel⟩

end TurfSync
