import TurfSync.Guarantees.OpeningHours

/-! Which slots are sold. `create` checks the date that the request names against the next
30 days, and books the slot that it names: nothing compares the two, and nothing looks at
the hour of the slot. So the slot that is sold is an upcoming one exactly if it is on the
date that was checked and, if that is today, its hour has not passed. -/

namespace TurfSync

open Txn

/-- The slot has not started, it is on one of the next 30 days, and that is the date the
request names. -/
structure Slot.Upcoming (s : Slot) (now : Time) (dto : CreateBookingDto) : Prop where
  start : now ≤ s.start
  today : startOfUTCDay now ≤ s.date
  window : s.date ≤ startOfUTCDay now + 30 * dayMs
  named : ∃ d ∈ dto.date, s.date = startOfUTCDay d

theorem Slot.upcoming_def {s : Slot} {now : Time} {dto : CreateBookingDto} :
    s.Upcoming now dto ↔ now ≤ s.start ∧ startOfUTCDay now ≤ s.date ∧
      s.date ≤ startOfUTCDay now + 30 * dayMs ∧ ∃ d ∈ dto.date, s.date = startOfUTCDay d :=
  ⟨fun ⟨h₁, h₂, h₃, h₄⟩ => ⟨h₁, h₂, h₃, h₄⟩, fun ⟨h₁, h₂, h₃, h₄⟩ => ⟨h₁, h₂, h₃, h₄⟩⟩

instance (s : Slot) (now : Time) (dto : CreateBookingDto) : Decidable (s.Upcoming now dto) :=
  decidable_of_iff _ Slot.upcoming_def.symm

namespace CreateBookingDto

variable (dto : CreateBookingDto) (now : Time) (s : Slot)

/-- The request names the date of the slot; and the time of day is not past the start of
the slot, if the slot is on that day. -/
structure Fits : Prop where
  named : ∃ d ∈ dto.date, s.date = startOfUTCDay d
  hour : s.date = startOfUTCDay now →
    now % dayMs ≤ s.startTime.hour * hourMs + s.startTime.minute * 60000

/-- The date passes the checks of `create`; a date that is none does. -/
def Checked : Prop :=
  ∀ d ∈ dto.date, startOfUTCDay now ≤ startOfUTCDay d ∧
    startOfUTCDay d ≤ startOfUTCDay now + 30 * dayMs

end CreateBookingDto

/-! ### Days -/

theorem startOfUTCDay_eq (t : Time) : startOfUTCDay t = dayMs * (t / dayMs) := by
  have hdiv : t % dayMs + dayMs * (t / dayMs) = t := Int.emod_add_mul_ediv t dayMs
  rw [startOfUTCDay]
  linarith

/-- The days after today begin after `now`. -/
theorem lt_of_startOfUTCDay_lt {now d : Time} (h : startOfUTCDay now < startOfUTCDay d) :
    now < startOfUTCDay d := by
  have hday : (0 : ℤ) < dayMs := by decide
  rw [startOfUTCDay_eq, startOfUTCDay_eq] at h
  rw [startOfUTCDay_eq]
  have hlt : now / dayMs < d / dayMs := lt_of_mul_lt_mul_left h hday.le
  have hnow : now < dayMs * (now / dayMs + 1) := Int.lt_mul_ediv_self_add hday |>.trans_eq (by ring)
  exact hnow.trans_le (mul_le_mul_of_nonneg_left hlt hday.le)

namespace Slot

variable {s : Slot} {now : Time} {dto : CreateBookingDto}

theorem start_eq (hdate : startOfUTCDay s.date = s.date) :
    s.start = s.date + (s.startTime.hour * hourMs + s.startTime.minute * 60000) := by
  rw [start, setUTCHours, hdate, add_assoc]

/-- Among the requests whose date is checked. -/
theorem upcoming_iff (h : dto.Checked now) : s.Upcoming now dto ↔ dto.Fits now s := by
  have hdate : (∃ d ∈ dto.date, s.date = startOfUTCDay d) → startOfUTCDay s.date = s.date := by
    rintro ⟨d, -, hd⟩
    rw [hd, startOfUTCDay_idem]
  have hnow : now = startOfUTCDay now + now % dayMs := (sub_add_cancel _ _).symm
  constructor
  · intro hup
    refine ⟨hup.named, fun htoday => ?_⟩
    have hstart := hup.start
    rw [start_eq (hdate hup.named), htoday] at hstart
    linarith
  · rintro ⟨hnamed, hhour⟩
    have hstart := start_eq (hdate hnamed)
    obtain ⟨d, hd, hs⟩ := hnamed
    obtain ⟨hpast, hfuture⟩ := h d hd
    refine ⟨?_, hs ▸ hpast, hs ▸ hfuture, d, hd, hs⟩
    rcases hpast.eq_or_lt with htoday | hlater
    · have hle := hhour (hs.trans htoday.symm)
      rw [hs, ← htoday] at hstart
      linarith
    · have hlt := lt_of_startOfUTCDay_lt hlater
      have hnonneg : 0 ≤ (s.startTime.hour : ℤ) * hourMs + s.startTime.minute * 60000 := by
        have hms : (0 : ℤ) ≤ hourMs := by decide
        positivity
      rw [hstart, hs]
      linarith

end Slot

/-! ### Sales -/

variable {cfg : Config} {s : Sys}

/-- A call that does not end at once has passed the checks. -/
theorem BookingService.checked_of_create {dto : CreateBookingDto} {userId : UserId} {now : Time}
    (h : (BookingService.create cfg dto userId now).result? = none) : dto.Checked now := by
  unfold BookingService.create at h
  intro d hd
  have hmem : startOfUTCDay d ∈ dto.date.map startOfUTCDay := Option.mem_map_of_mem _ hd
  by_cases hnear : ∃ d ∈ dto.date.map startOfUTCDay, d < startOfUTCDay now
  · rw [if_pos hnear] at h
    cases h
  by_cases hfar : ∃ d ∈ dto.date.map startOfUTCDay, startOfUTCDay now + 30 * dayMs < d
  · rw [if_neg hnear, if_pos hfar] at h
    cases h
  exact ⟨not_lt.mp fun hlt => hnear ⟨_, hmem, hlt⟩, not_lt.mp fun hlt => hfar ⟨_, hmem, hlt⟩⟩

/-- Whatever the database holds and however the calls interleave: the slot of a booking
that is committed is an upcoming one exactly if it fits the request. -/
theorem sold_upcoming_iff (h : s.Initial cfg) (as : List Act) :
    (service cfg).Each (fun t a => ∀ cm ∈ (service cfg).committed t a, ∀ dto userId now b,
      cm.session.call = .create dto userId now → .bookingInsert b ∈ cm.writes →
      ∃ slot, t.world.db.slot? dto.slotId = some slot ∧ b.slotId = slot.id ∧
        (slot.Upcoming now dto ↔ dto.Fits now slot)) s as := by
  have hbegun : (service cfg).Always (Service.Begun (service cfg)) s as := by
    refine Service.always_of_step (M := fun _ _ => True) (fun t a ht _ => ht.step a) ?_
      (Service.each_of_forall (fun _ _ => trivial) s as)
    simp [Service.Begun, h.threads]
  refine ((h.always stable_true trivial).and hbegun).each fun t a ⟨hkeeps, hb⟩ cm hcm dto userId
    now b call hinsert => ?_
  obtain ⟨-, hcommits, hdb, -, -⟩ := hkeeps.commit stable_true hcm
  have hchecked : dto.Checked now := by
    have hnone := hb.committed hcm
    rw [call] at hnone
    exact BookingService.checked_of_create hnone
  obtain ⟨slot, hslot, hid⟩ : ∃ slot, cm.base.db.slot? dto.slotId = some slot ∧
      b.slotId = slot.id := by
    generalize cm.writes = ws at hcommits hinsert
    cases hcommits with
    | @book dto' _ _ b' slot call' hslotId _ _ hslot =>
      simp only [List.mem_cons, reduceCtorEq, Write.bookingInsert.injEq, List.not_mem_nil,
        or_false, false_or] at hinsert
      subst hinsert
      obtain ⟨rfl, -, -⟩ := Call.create.inj (call.symm.trans call')
      exact ⟨slot, hslotId ▸ hslot, (Rows.lookup_some hslot).2.symm⟩
    | _ => simp at hinsert
  exact ⟨slot, hdb ▸ hslot, hid, Slot.upcoming_iff hchecked⟩

/-- User 7 books slot 1, five days ahead. -/
theorem sold_upcoming_arena :
    (service (Arena.cfg true)).Each (fun t a => ∀ cm ∈ (service (Arena.cfg true)).committed t a,
      ∀ dto userId now b, cm.session.call = .create dto userId now →
      .bookingInsert b ∈ cm.writes →
      ∃ slot, t.world.db.slot? dto.slotId = some slot ∧ b.slotId = slot.id ∧
        (slot.Upcoming now dto ↔ dto.Fits now slot)) Arena.sys Arena.sold :=
  sold_upcoming_iff Arena.fresh.initial _

/-- On the 40th day, a request that names this day books a slot of the fifth. -/
theorem sold_in_the_past :
    let now := 40 * dayMs
    let dto : CreateBookingDto := ⟨1, 1, some now, none, none⟩
    let t := (service (Arena.cfg true)).run Arena.sys
      (.env (.tick 3456000000) :: Arena.first 0 (.create dto 7 now) 20)
    (∃ b ∈ t.world.db.bookings, b.slotId = 1 ∧ b.userId = 7) ∧
      ∃ slot, t.world.db.slot? 1 = some slot ∧ slot.start < now ∧ ¬ slot.Upcoming now dto := by
  refine ⟨by decide +kernel, ⟨1, 1, 5 * dayMs, ⟨18, 0⟩, ⟨19, 0⟩, true⟩, by decide +kernel,
    by decide, by decide⟩

end TurfSync
