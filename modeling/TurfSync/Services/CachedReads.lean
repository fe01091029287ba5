import TurfSync.Services.Pages
import TurfSync.Services.Pagination
import TurfSync.Txn.Engine

/-! The cached reads of `TurfService`, any number of them at a time: `findAll`, `findOne` and
`getAvailableSlots` look into the cache, read the database statement by statement when the value
is not there, and cache what they found for five minutes or for one. Everybody else who writes
the database or deletes cached values belongs to the surroundings, and may do so at any moment.
The database that there was is logged with its time; no call reads the log. -/

namespace TurfSync.Reads

open Txn Pages

/-- `turf:list:...`, `turf:<id>` and `slots:available:<turfId>:<date>`. -/
inductive Key where
  | list (cacheKey : String)
  | turf (id : TurfId)
  | slots (turfId : TurfId) (date : Time)
  deriving DecidableEq, Repr

inductive Value where
  | page (page : Page)
  | turf (turf : Turf)
  | listing (listing : Listing)
  deriving DecidableEq, Repr

def Key.ttlSeconds : Key → ℕ
  | list _ => 300
  | turf _ => 300
  | slots _ _ => 60

structure Item where
  key : Key
  value : Value
  expiresAt : Time

structure World where
  now : Time
  uuid : ℕ
  db : Db
  items : List Item
  past : List (Time × Db)

inductive Write where
  | cache (key : Key) (value : Value) (expiresAt : Time)
  | slots (rows : List Slot)

namespace World

variable (w : World)

def get (key : Key) : Option Value :=
  (w.items.find? fun item => item.key = key ∧ w.now < item.expiresAt).map (·.value)

def apply : Write → World
  | .cache key value expiresAt =>
    { w with items := w.items.filter (·.key ≠ key) ++ [⟨key, value, expiresAt⟩] }
  | .slots rows => { w with db := { w.db with slots := Rows.insertAll Slot.key w.db.slots rows } }

def logged : World := { w with past := w.past ++ [(w.now, w.db)] }

end World

inductive Stmt where
  | get (key : Key)
  | set (key : Key) (value : Value) (ttlSeconds : ℕ)
  | turfFindUnique (id : TurfId)
  | turfFindMany (args : FindArgs)
  | turfCount (args : FindArgs)
  | slotFindMany (turfId : TurfId) (date : Time)
  | slotCreateMany (data : List NewSlot)

@[reducible] def Stmt.Reply : Stmt → Type
  | .get _ => Option Value
  | .set _ _ _ => Unit
  | .turfFindUnique _ => Option Turf
  | .turfFindMany _ => List TurfView
  | .turfCount _ => ℕ
  | .slotFindMany _ _ => List Slot
  | .slotCreateMany _ => Unit

/-- The rows of `createMany` skip those that clash; a missing turf fails it. -/
def Stmt.act (p : Platform) : (m : Stmt) → World → World → Effect Err Empty Write World m.Reply
  | .get key, _, w => ⟨.ok (w.get key), [], [], w⟩
  | .set key value ttlSeconds, _, w =>
    ⟨.ok (), [], [.cache key value (w.now + 1000 * ttlSeconds)], w⟩
  | .turfFindUnique id, v, w => ⟨.ok (v.db.turf? id), [], [], w⟩
  | .turfFindMany args, v, w => ⟨.ok (args.find p v.db).data, [], [], w⟩
  | .turfCount args, v, w => ⟨.ok (args.find p v.db).pageMeta.total, [], [], w⟩
  | .slotFindMany turfId date, v, w => ⟨.ok (v.db.slotsOn turfId date), [], [], w⟩
  | .slotCreateMany data, v, w =>
    if ∃ d ∈ data, (v.db.turf? d.turfId).isNone then ⟨.error .P2003, [], [], w⟩
    else ⟨.ok (), [], [.slots (data.mapIdx fun i d => d.row (w.uuid + i))],
      { w with uuid := w.uuid + data.length }⟩

/-- What is called, and when. Of the two statements of a page either may come first. -/
inductive Request where
  | findAll (query : QueryTurfDto) (countFirst : Bool)
  | findOne (id : TurfId)
  | getAvailableSlots (turfId : TurfId) (date : DateParam)
  deriving DecidableEq, Repr

structure Call where
  request : Request
  start : Time
  deriving DecidableEq, Repr

def engine (p : Platform) : Engine Stmt Stmt.Reply Err Empty Write World Call where
  act := Stmt.act p
  apply x w := w.apply x
  commit _ ws w := (ws.foldl World.apply w).logged
  fault := .infrastructure

abbrev Op (α : Type) := Script Stmt Stmt.Reply Err α

def stmt (m : Stmt) : Op m.Reply := Script.perform m

namespace RedisLockService

def get (key : Key) : Op (Option Value) :=
  (stmt (.get key) : Op (Option Value)).tryCatch fun _ => .ret none

def set (key : Key) (value : Value) (ttlSeconds : ℕ) : Op Unit :=
  (stmt (.set key value ttlSeconds) : Op Unit).tryCatch fun _ => .ret ()

end RedisLockService

/-- The value that is cached, or what is loaded, cached for its time to live. -/
def cacheAside (key : Key) (load : Op Value) : Op Value := do
  let cached : Option Value ← RedisLockService.get key
  match cached with
  | some value => pure value
  | none => do
    let value ← load
    RedisLockService.set key value key.ttlSeconds
    pure value

/-- `Promise.all` of the two statements. -/
def paginate (args : FindArgs) (countFirst : Bool) : Op Page :=
  if countFirst then do
    let total : ℕ ← stmt (.turfCount args)
    let data : List TurfView ← stmt (.turfFindMany args)
    pure (Pagination.createPaginatedResponse data total args.page args.limit)
  else do
    let data : List TurfView ← stmt (.turfFindMany args)
    let total : ℕ ← stmt (.turfCount args)
    pure (Pagination.createPaginatedResponse data total args.page args.limit)

namespace TurfService

open TurfSync.TurfService (notFound)

def findAll (p : Platform) (query : QueryTurfDto) (countFirst : Bool) : Op Value :=
  cacheAside (.list (query.cacheKey p)) (match query.args p with
    | none => .throw .validation
    | some args => do
      let page ← paginate args countFirst
      pure (.page page))

def findOne (id : TurfId) : Op Value :=
  cacheAside (.turf id) do
    let turf : Option Turf ← stmt (.turfFindUnique id)
    match turf with
    | none => .throw (notFound id)
    | some turf => pure (.turf turf)

/-- The slots of the day, generated first if some are missing. -/
def listSlots (turf : Turf) (turfId : TurfId) (searchDate : Time) : Op Value := do
  let slots : List Slot ← stmt (.slotFindMany turfId searchDate)
  if slots.length < turf.endHour - turf.currentHour then do
    let _ : Unit ← stmt (.slotCreateMany (SlotService.slotsToCreate turf searchDate))
    let slots : List Slot ← stmt (.slotFindMany turfId searchDate)
    pure (.listing ⟨turf, slots, searchDate⟩)
  else pure (.listing ⟨turf, slots, searchDate⟩)

def getAvailableSlots (p : Platform) (turfId : TurfId) (date : DateParam) (now : Time) : Op Value :=
  match date.searchDate p.utcOffset now with
  | none => .throw (.badRequest "Invalid date format. Expected YYYY-MM-DD.")
  | some searchDate => cacheAside (.slots turfId searchDate) do
    let turf : Option Turf ← stmt (.turfFindUnique turfId)
    match turf with
    | none => .throw (notFound turfId)
    | some turf => listSlots turf turfId searchDate

end TurfService

def Call.body (p : Platform) (c : Call) : Op Value :=
  match c.request with
  | .findAll query countFirst => TurfService.findAll p query countFirst
  | .findOne id => TurfService.findOne id
  | .getAvailableSlots turfId date => TurfService.getAvailableSlots p turfId date c.start

/-- Time passes, somebody writes the database, or deletes what is cached. -/
inductive Event where
  | tick (ms : ℕ)
  | write (db : Db)
  | forget (keys : List Key)

/-- A call arrives when it says it does. -/
def service (p : Platform) :
    Service Stmt Stmt.Reply Err Empty Write World Call Event Value where
  toEngine := engine p
  body := Call.body p
  accepts c w := c.start = w.now
  evolve
    | .tick ms, w => { w with now := w.now + ms : World }.logged
    | .write db, w => { w with db := db : World }.logged
    | .forget keys, w => { w with items := w.items.filter (·.key ∉ keys) }

abbrev Sys := System Stmt Stmt.Reply Err Empty Write World Call Value

abbrev Act := Action Call Event

/-- Nothing has been called or cached, and the log begins. -/
structure Sys.Initial (s : Sys) : Prop where
  threads : s.threads = []
  items : s.world.items = []
  past : s.world.past = [(s.world.now, s.world.db)]

end TurfSync.Reads
