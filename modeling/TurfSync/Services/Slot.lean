import TurfSync.Store.World

/-! `SlotService`, one call after the other: a call takes the world and leaves another.
Slots are generated hour by hour from the opening to the closing hour of a turf, past
midnight if it closes then; what clashes with an existing slot is skipped. -/

namespace TurfSync

open Txn

/-- The unique index on `slots`. -/
def Slot.key (s : Slot) : TurfId × Time × TimeOfDay := (s.turfId, s.date, s.startTime)

/-- The columns of one row of `slot.createMany`. -/
structure NewSlot where
  turfId : TurfId
  date : Time
  startTime : TimeOfDay
  endTime : TimeOfDay
  isBooked : Bool
  deriving DecidableEq, Repr

/-- The row as it is stored; a `DATE` column keeps the day. -/
def NewSlot.row (d : NewSlot) (id : SlotId) : Slot where
  id := id
  turfId := d.turfId
  date := startOfUTCDay d.date
  startTime := d.startTime
  endTime := d.endTime
  isBooked := d.isBooked

namespace Turf

/-- `parseInt(turf.openTime.split(':')[0])`. -/
def currentHour (turf : Turf) : ℕ := turf.openTime.hour

/-- The closing hour, counted on past midnight. -/
def endHour (turf : Turf) : ℕ :=
  if turf.closeTime.hour ≤ turf.currentHour then turf.closeTime.hour + 24 else turf.closeTime.hour

end Turf

/-- Run `f` on each element in turn, until it throws. -/
def forEachOf {ι : Type} (f : ι → World → Except Err Unit × World) :
    List ι → World → Except Err Unit × World
  | [], w => (.ok (), w)
  | i :: is, w => match f i w with
    | (.ok _, w') => forEachOf f is w'
    | (.error e, w') => (.error e, w')

namespace SlotService

/-- The slot of one hour; hours from 24 on fall on the next day. -/
def slotAt (turf : Turf) (date : Time) (hour : ℕ) : NewSlot where
  turfId := turf.id
  date := if 24 ≤ hour then date + dayMs else date
  startTime := ⟨hour % 24, 0⟩
  endTime := ⟨(hour + 1) % 24, 0⟩
  isBooked := false

def slotsToCreate (turf : Turf) (date : Time) : List NewSlot :=
  (List.range' turf.currentHour (turf.endHour - turf.currentHour)).map (slotAt turf date)

/-- `slot.createMany({ data, skipDuplicates: true })`. -/
def slotCreateMany (data : List NewSlot) (w : World) : Except Err Unit × World :=
  if ∃ d ∈ data, (w.db.turf? d.turfId).isNone then (.error .P2003, w)
  else
    let rows := data.mapIdx fun i d => d.row (w.out.uuid + i)
    (.ok (), { w with
      db := { w.db with slots := Rows.insertAll Slot.key w.db.slots rows }
      out := { w.out with uuid := w.out.uuid + data.length } })

def generateTurfSlots (turf : Turf) (date : Time) (w : World) : Except Err Unit × World :=
  slotCreateMany (slotsToCreate turf date) w

/-- The day `i` days after today. -/
def dayAfter (w : World) (i : ℕ) : Time := startOfUTCDay w.out.now + i * dayMs

def generateForTurf (turfId : TurfId) (days : ℕ) (w : World) : Except Err Unit × World :=
  match w.db.turf? turfId with
  | none => (.ok (), w)
  | some turf => forEachOf (fun i => generateTurfSlots turf (dayAfter w i)) (List.range days) w

def generateSlotsForDate (date : Time) (w : World) : Except Err Unit × World :=
  forEachOf (fun turf => generateTurfSlots turf date) (w.db.turfs.filter (·.isActive)) w

def generateDailySlots (w : World) : Except Err Unit × World :=
  generateSlotsForDate (startOfUTCDay (w.out.now + dayMs)) w

def generateSlotsForNextDays (days : ℕ) (w : World) : Except Err Unit × World :=
  let turfs := w.db.turfs.filter (·.isActive)
  forEachOf (fun i => forEachOf (fun turf => generateTurfSlots turf (dayAfter w i)) turfs)
    (List.range days) w

/-- What the filter of `cleanupOldSlots` selects. -/
def Old (now : Time) (s : Slot) : Prop :=
  s.date < startOfUTCDay (now - 30 * dayMs) ∧ s.isBooked = false

instance (now : Time) : DecidablePred (Old now) := fun _ => inferInstanceAs (Decidable (_ ∧ _))

/-- `bookings.slotId` restricts the deletion of slots, and the statement deletes all of
its rows or none. -/
def cleanupOldSlots (w : World) : Except Err Unit × World :=
  if ∃ s ∈ w.db.slots, Old w.out.now s ∧ ∃ b ∈ w.db.bookings, b.slotId = s.id then
    (.error .P2003, w)
  else
    (.ok (), { w with db := { w.db with slots := w.db.slots.filter (¬ Old w.out.now ·) } })

end SlotService

end TurfSync
