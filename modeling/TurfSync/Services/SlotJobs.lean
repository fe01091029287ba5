import TurfSync.Services.Slot
import TurfSync.Txn.Engine

/-! `SlotService` statement by statement, any number of its calls at a time: the jobs at
midnight and at the start of the server, the calls of administrators, and the weekly
clean-up. Turfs are edited, slots are booked and given back, and `getAvailableSlots`
generates slots of its own while a call runs. The turfs that there were are logged with
their time; no call reads the log. -/

namespace TurfSync.SlotJobs

open Txn

structure World where
  now : Time
  uuid : ℕ
  db : Db
  past : List (Time × List Turf)

inductive Write where
  | insert (rows : List Slot)
  | delete (before : Time)

/-- The filter of `slot.deleteMany` in `cleanupOldSlots`. -/
def Selected (before : Time) (s : Slot) : Prop := s.date < before ∧ s.isBooked = false

instance (before : Time) : DecidablePred (Selected before) :=
  fun _ => inferInstanceAs (Decidable (_ ∧ _))

namespace World

variable (w : World)

def apply : Write → World
  | .insert rows => { w with db := { w.db with slots := Rows.insertAll Slot.key w.db.slots rows } }
  | .delete before =>
    { w with db := { w.db with slots := w.db.slots.filter (¬ Selected before ·) } }

def logged : World := { w with past := w.past ++ [(w.now, w.db.turfs)] }

end World

inductive Stmt where
  | clock
  | turfFindUnique (id : TurfId)
  | turfFindManyActive
  | slotCreateMany (data : List NewSlot)
  | slotDeleteMany (before : Time)
  deriving DecidableEq, Repr

@[reducible] def Stmt.Reply : Stmt → Type
  | .clock => Time
  | .turfFindUnique _ => Option Turf
  | .turfFindManyActive => List Turf
  | .slotCreateMany _ => Unit
  | .slotDeleteMany _ => Unit

/-- `createMany` fails on a missing turf and skips the rows that clash; `deleteMany` fails if a
booking refers to one of its rows. -/
def Stmt.act : (m : Stmt) → World → World → Effect Err Empty Write World m.Reply
  | .clock, _, w => ⟨.ok w.now, [], [], w⟩
  | .turfFindUnique id, v, w => ⟨.ok (v.db.turf? id), [], [], w⟩
  | .turfFindManyActive, v, w => ⟨.ok (v.db.turfs.filter (·.isActive)), [], [], w⟩
  | .slotCreateMany data, v, w =>
    if ∃ d ∈ data, (v.db.turf? d.turfId).isNone then ⟨.error .P2003, [], [], w⟩
    else ⟨.ok (), [], [.insert (data.mapIdx fun i d => d.row (w.uuid + i))],
      { w with uuid := w.uuid + data.length }⟩
  | .slotDeleteMany before, v, w =>
    if ∃ s ∈ v.db.slots, Selected before s ∧ ∃ b ∈ v.db.bookings, b.slotId = s.id then
      ⟨.error .P2003, [], [], w⟩
    else ⟨.ok (), [], [.delete before], w⟩

inductive Request where
  | generateDailySlots
  | generateSlotsForNextDays (days : ℕ)
  | generateForTurf (turfId : TurfId) (days : ℕ)
  | cleanupOldSlots
  deriving DecidableEq, Repr

/-- What is called, and when. -/
structure Call where
  request : Request
  start : Time
  deriving DecidableEq, Repr

inductive Reply where
  | undefined
  | message (text : String)
  deriving DecidableEq, Repr

def engine : Engine Stmt Stmt.Reply Err Empty Write World Call where
  act := Stmt.act
  apply x w := w.apply x
  commit _ ws w := ws.foldl World.apply w
  fault := .infrastructure

abbrev Op (α : Type) := Script Stmt Stmt.Reply Err α

def stmt (m : Stmt) : Op m.Reply := Script.perform m

namespace SlotService

open TurfSync.SlotService (slotsToCreate)

def generateTurfSlots (turf : Turf) (date : Time) : Op Unit :=
  stmt (.slotCreateMany (slotsToCreate turf date))

def generateSlotsForDate (date : Time) : Op Unit := do
  let turfs : List Turf ← stmt .turfFindManyActive
  Script.forEach (fun turf => generateTurfSlots turf date) turfs

def generateDailySlots : Op Reply := do
  let now : Time ← stmt .clock
  generateSlotsForDate (startOfUTCDay (now + dayMs))
  pure .undefined

def generateSlotsForNextDays (days : ℕ) : Op Reply := do
  let turfs : List Turf ← stmt .turfFindManyActive
  if turfs = [] then pure .undefined
  else do
    let now : Time ← stmt .clock
    Script.forEach (fun i : ℕ =>
      Script.forEach (fun turf => generateTurfSlots turf (startOfUTCDay now + i * dayMs)) turfs)
      (List.range days)
    pure .undefined

def generateForTurf (turfId : TurfId) (days : ℕ) : Op Reply := do
  let turf : Option Turf ← stmt (.turfFindUnique turfId)
  match turf with
  | none => pure .undefined
  | some turf => do
    let now : Time ← stmt .clock
    Script.forEach (fun i : ℕ => generateTurfSlots turf (startOfUTCDay now + i * dayMs))
      (List.range days)
    pure (.message (toString days ++ " slots generated for turf " ++ toString turfId ++
      " successfully"))

def cleanupOldSlots : Op Reply := do
  let now : Time ← stmt .clock
  stmt (.slotDeleteMany (startOfUTCDay (now - 30 * dayMs)))
  pure .undefined

end SlotService

def Call.body (c : Call) : Op Reply :=
  match c.request with
  | .generateDailySlots => SlotService.generateDailySlots
  | .generateSlotsForNextDays days => SlotService.generateSlotsForNextDays days
  | .generateForTurf turfId days => SlotService.generateForTurf turfId days
  | .cleanupOldSlots => SlotService.cleanupOldSlots

/-- Time passes, turfs are edited, slots are booked or given back, bookings change, and a
listing generates the slots of a day. -/
inductive Event where
  | tick (ms : ℕ)
  | turfs (rows : List Turf)
  | isBooked (ids : List SlotId) (value : Bool)
  | bookings (rows : List Booking)
  | generate (turf : Turf) (date : Time)

def Event.evolve (w : World) : Event → World
  | .tick ms => { w with now := w.now + ms : World }.logged
  | .turfs rows => { w with db := { w.db with turfs := rows } : World }.logged
  | .isBooked ids value => { w with db := w.db.apply (.slotSet ids value) }
  | .bookings rows => { w with db := { w.db with bookings := rows } }
  | .generate turf date =>
    let data := SlotService.slotsToCreate turf date
    { w with uuid := w.uuid + data.length : World }.apply
      (.insert (data.mapIdx fun i d => d.row (w.uuid + i)))

/-- A call arrives when it says it does. -/
def service : Service Stmt Stmt.Reply Err Empty Write World Call Event Reply where
  toEngine := engine
  body := Call.body
  accepts c w := c.start = w.now
  evolve v w := v.evolve w

abbrev Sys := System Stmt Stmt.Reply Err Empty Write World Call Reply

abbrev Act := Action Call Event

end TurfSync.SlotJobs
