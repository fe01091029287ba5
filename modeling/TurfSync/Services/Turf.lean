import Mathlib.Data.List.Sort
import TurfSync.Services.Slot

/-! `TurfService.getAvailableSlots` and `update`, one call after the other. A listing is
kept under the key `slots:available:<turfId>:<date>` until it is deleted; that it expires
after a minute is left out, and so are the keys `turf:<id>` and `turf:list:*`, which
other calls read. -/

namespace TurfSync

open Txn

/-- The order of the strings `HH:mm`. -/
def TimeOfDay.NotAfter (t t' : TimeOfDay) : Prop :=
  t.hour < t'.hour ∨ t.hour = t'.hour ∧ t.minute ≤ t'.minute

instance : DecidableRel TimeOfDay.NotAfter := fun _ _ => inferInstanceAs (Decidable (_ ∨ _ ∧ _))

/-- The `date` of a request: none (or an empty string), no date, or an instant. -/
inductive DateParam where
  | absent
  | invalid
  | at_ (t : Time)
  deriving DecidableEq, Repr

/-- The day asked for. Without a parameter it is today where the server is, `utcOffset`
ahead of UTC. -/
def DateParam.searchDate (utcOffset : Time → Time) (now : Time) : DateParam → Option Time
  | absent => some (startOfUTCDay (now + utcOffset now))
  | invalid => none
  | at_ t => some (startOfUTCDay t)

/-- `Partial<CreateTurfDto>`. -/
structure UpdateTurfDto where
  name : Option String := none
  description : Option String := none
  address : Option String := none
  city : Option String := none
  sportType : Option SportType := none
  pricePerHour : Option ℚ := none
  openTime : Option TimeOfDay := none
  closeTime : Option TimeOfDay := none
  images : Option (List String) := none
  deriving DecidableEq, Repr

/-- The row after `turf.update({ data: dto })`. -/
def UpdateTurfDto.set (dto : UpdateTurfDto) (now : Time) (turf : Turf) : Turf :=
  { turf with
    name := dto.name.getD turf.name
    description := dto.description.getD turf.description
    address := dto.address.getD turf.address
    city := dto.city.getD turf.city
    sportType := dto.sportType.getD turf.sportType
    pricePerHour := (dto.pricePerHour.map decimal2).getD turf.pricePerHour
    openTime := dto.openTime.getD turf.openTime
    closeTime := dto.closeTime.getD turf.closeTime
    images := dto.images.getD turf.images
    updatedAt := now }

/-- `redis.get`. -/
def Outside.listing? (o : Outside) (turfId : TurfId) (date : Time) : Option Listing :=
  (o.slotCache.find? fun e => e.1 = turfId ∧ e.2.1 = date).map (·.2.2)

/-- `redis.set`. -/
def Outside.setListing (o : Outside) (turfId : TurfId) (date : Time) (listing : Listing) : Outside :=
  { o with slotCache :=
      o.slotCache.filter (fun e => ¬ (e.1 = turfId ∧ e.2.1 = date)) ++ [(turfId, date, listing)] }

/-- The slots of a turf on a date, by `startTime`. -/
def Db.slotsOn (db : Db) (turfId : TurfId) (date : Time) : List Slot :=
  (db.slots.filter fun s => s.turfId = turfId ∧ s.date = date).insertionSort
    fun s s' => s.startTime.NotAfter s'.startTime

namespace TurfService

/-- Why a turf is not found. -/
def notFound (id : TurfId) : Err :=
  .notFound ("Turf with id \"" ++ toString id ++ "\" not found.")

/-- The reply from the database, with the slots that it generates first if some are
missing. -/
def listSlots (turfId : TurfId) (turf : Turf) (searchDate : Time) (w : World) :
    Except Err Listing × World :=
  let expectedSlotsCount := turf.endHour - turf.currentHour
  let generated :=
    if (w.db.slotsOn turfId searchDate).length < expectedSlotsCount then
      SlotService.generateTurfSlots turf searchDate w
    else (.ok (), w)
  match generated with
  | (.error e, w') => (.error e, w')
  | (.ok _, w') =>
    let result : Listing := ⟨turf, w'.db.slotsOn turfId searchDate, searchDate⟩
    (.ok result, { w' with out := w'.out.setListing turfId searchDate result })

def getAvailableSlots (utcOffset : Time → Time) (turfId : TurfId) (date : DateParam) (w : World) :
    Except Err Listing × World :=
  match date.searchDate utcOffset w.out.now with
  | none => (.error (.badRequest "Invalid date format. Expected YYYY-MM-DD."), w)
  | some searchDate => match w.out.listing? turfId searchDate with
    | some cached => (.ok cached, w)
    | none => match w.db.turf? turfId with
      | none => (.error (notFound turfId), w)
      | some turf => listSlots turfId turf searchDate w

/-- The name of a turf is unique. -/
def NameTaken (db : Db) (id : TurfId) (dto : UpdateTurfDto) : Prop :=
  ∃ t ∈ db.turfs, t.id ≠ id ∧ some t.name = dto.name

instance (db : Db) (id : TurfId) (dto : UpdateTurfDto) : Decidable (NameTaken db id dto) :=
  inferInstanceAs (Decidable (∃ t ∈ db.turfs, _))

def update (id : TurfId) (dto : UpdateTurfDto) (w : World) : Except Err Turf × World :=
  match w.db.turf? id with
  | none => (.error (notFound id), w)
  | some existingTurf =>
    if NameTaken w.db id dto then (.error .P2002, w)
    else
      (.ok (dto.set w.out.now existingTurf), { w with
        db := { w.db with turfs := Rows.update (·.id) [id] (dto.set w.out.now) w.db.turfs } })

end TurfService

end TurfSync
