import TurfSync.Services.Customer

/-! The turf pages: `TurfService.findAll` and `findOne` with the cache in front of them, and the
calls that change what they show, one call after the other. `TurfService.create`, `update` and
`remove` delete cached pages; the images, the ratings, the slots and the bookings are changed
elsewhere. A status 500 is one error, whatever its text. -/

namespace TurfSync.Pages

open Txn

/-! ### Queries -/

structure QueryTurfDto where
  city : Option String := none
  sportType : Option SportType := none
  search : Option String := none
  minPrice : Option ℚ := none
  maxPrice : Option ℚ := none
  availableDate : Option String := none
  page : Option ℤ := none
  limit : Option ℤ := none
  deriving DecidableEq, Repr

/-- The case-insensitive `contains` of the database (of a column and a text), `new Date(text)`,
which may be no date, the text of a number, and the offset of the server's clock. -/
structure Platform where
  contains : String → String → Bool
  newDate : String → Option Time
  numberToString : ℚ → String
  utcOffset : Time → Time

def sportName : SportType → String
  | .FOOTBALL => "FOOTBALL"
  | .CRICKET => "CRICKET"
  | .BOTH => "BOTH"

/-- The arguments of `paginate`. An empty text filters nothing. -/
structure FindArgs where
  city : String
  sportType : Option SportType
  search : String
  minPrice : Option ℚ
  maxPrice : Option ℚ
  date : Option Time
  page : ℕ
  limit : ℕ
  deriving DecidableEq, Repr

/-- `dto.page && dto.page > 0 ? Number(dto.page) : 1`, and the same for the limit. -/
def positiveOr (default : ℕ) : Option ℤ → ℕ
  | some n => if 0 < n then n.toNat else default
  | none => default

namespace QueryTurfDto

def keyFields (p : Platform) (q : QueryTurfDto) : List String :=
  [q.city.getD "", q.sportType.elim "" sportName, q.search.getD "", q.minPrice.elim "" p.numberToString,
    q.maxPrice.elim "" p.numberToString, q.availableDate.getD "", toString (q.page.getD 1),
    toString (q.limit.getD 10)]

def cacheKey (p : Platform) (q : QueryTurfDto) : String :=
  ":".intercalate ("turf:list" :: q.keyFields p)

/-- The date that is filtered by, if there is one; a `DATE` column is compared by the day. The
database rejects an invalid date. -/
def date (p : Platform) (q : QueryTurfDto) : Option (Option Time) :=
  if q.availableDate.getD "" = "" then some none
  else (p.newDate (q.availableDate.getD "")).map fun t => some (startOfUTCDay t)

def args (p : Platform) (q : QueryTurfDto) : Option FindArgs :=
  (q.date p).map fun date => {
    city := q.city.getD ""
    sportType := q.sportType
    search := q.search.getD ""
    minPrice := q.minPrice
    maxPrice := q.maxPrice
    date := date
    page := positiveOr 1 q.page
    limit := positiveOr 10 q.limit }

end QueryTurfDto

/-! ### Pages -/

structure PageMeta where
  total : ℕ
  page : ℕ
  limit : ℕ
  totalPages : ℕ
  deriving DecidableEq, Repr

structure PaginatedResult (T : Type) where
  data : List T
  pageMeta : PageMeta
  deriving DecidableEq, Repr

/-- `paginate`, of the rows in their order. -/
def paginate {T : Type} (rows : List T) (page limit : ℕ) : PaginatedResult T where
  data := (rows.drop ((page - 1) * limit)).take limit
  pageMeta := ⟨rows.length, page, limit, (rows.length + limit - 1) / limit⟩

/-- The columns of a slot that `findAll` selects. -/
structure OpenSlot where
  id : SlotId
  startTime : TimeOfDay
  endTime : TimeOfDay
  deriving DecidableEq, Repr

structure TurfView where
  turf : Turf
  slots : Option (List OpenSlot)
  deriving DecidableEq, Repr

abbrev Page := PaginatedResult TurfView

def openSlots (db : Db) (turfId : TurfId) (date : Time) : List OpenSlot :=
  (db.slots.filter fun s => s.turfId = turfId ∧ s.date = date ∧ s.isBooked = false).map
    fun s => ⟨s.id, s.startTime, s.endTime⟩

namespace FindArgs

/-- What the filters ask of the columns of a turf. -/
def Selects (p : Platform) (a : FindArgs) (turf : Turf) : Prop :=
  turf.isActive = true ∧ (a.city ≠ "" → p.contains turf.city a.city = true) ∧
    (∀ s ∈ a.sportType, turf.sportType = s) ∧ (a.search ≠ "" → p.contains turf.name a.search = true) ∧
    (∀ m ∈ a.minPrice, m ≤ turf.pricePerHour) ∧ ∀ m ∈ a.maxPrice, turf.pricePerHour ≤ m

instance (p : Platform) (a : FindArgs) : DecidablePred (a.Selects p) :=
  fun _ => inferInstanceAs (Decidable (_ ∧ _ ∧ _ ∧ _ ∧ _ ∧ _))

/-- The `where` of `findAll`. -/
def Matches (p : Platform) (a : FindArgs) (db : Db) (turf : Turf) : Prop :=
  a.Selects p turf ∧ ∀ d ∈ a.date, openSlots db turf.id d ≠ []

instance (p : Platform) (a : FindArgs) (db : Db) : DecidablePred (a.Matches p db) :=
  fun _ => inferInstanceAs (Decidable (_ ∧ _))

/-- The row of a turf, with its open slots if a date is asked for. -/
def view (a : FindArgs) (db : Db) (turf : Turf) : TurfView := ⟨turf, a.date.map (openSlots db turf.id)⟩

/-- What `paginate` reads from the database, the newest turf first. -/
def find (p : Platform) (a : FindArgs) (db : Db) : Page :=
  paginate ((((db.turfs.filter fun turf => a.Matches p db turf).insertionSort
    fun t t' => t'.createdAt ≤ t.createdAt)).map (a.view db)) a.page a.limit

end FindArgs

/-! ### The cache -/

/-- A page under its key. The arguments it was read with are kept beside it; no call reads
them. -/
structure Entry where
  key : String
  args : FindArgs
  page : Page
  deriving DecidableEq, Repr

/-- The database with the reviews, and the keys `turf:<id>` and `turf:list:*` of Redis. -/
structure World where
  shop : Customer.World
  turfCache : List (TurfId × Turf)
  listCache : List Entry

namespace World

abbrev db (w : World) : Db := w.shop.base.db

abbrev now (w : World) : Time := w.shop.base.out.now

def turf? (w : World) (id : TurfId) : Option Turf := (w.turfCache.find? (·.1 = id)).map (·.2)

def setTurf (w : World) (id : TurfId) (turf : Turf) : World :=
  { w with turfCache := w.turfCache.filter (·.1 ≠ id) ++ [(id, turf)] }

/-- `del('turf:<id>')`. -/
def delTurf (w : World) (id : TurfId) : World :=
  { w with turfCache := w.turfCache.filter (·.1 ≠ id) }

def list? (w : World) (key : String) : Option Page := (w.listCache.find? (·.key = key)).map (·.page)

def setList (w : World) (key : String) (args : FindArgs) (page : Page) : World :=
  { w with listCache := w.listCache.filter (·.key ≠ key) ++ [⟨key, args, page⟩] }

/-- `delByPattern('turf:list:*')`. -/
def delLists (w : World) : World := { w with listCache := [] }

/-- Nothing is in the cache. -/
def uncached (w : World) : World := { w with turfCache := [], listCache := [] }

def withBase (w : World) (base : TurfSync.World) : World := { w with shop := { w.shop with base := base } }

/-- `turf.update`, of a row that is there. -/
def setTurfRow (w : World) (id : TurfId) (f : Turf → Turf) : World :=
  w.withBase { w.shop.base with
    db := { w.db with turfs := Rows.update (·.id) [id] f w.db.turfs } }

end World

/-! ### `TurfService` -/

structure CreateTurfDto where
  name : String
  description : String
  address : String
  city : String
  sportType : SportType
  pricePerHour : ℚ
  openTime : TimeOfDay
  closeTime : TimeOfDay
  images : Option (List String)
  deriving DecidableEq, Repr

/-- The row that `turf.create` inserts. -/
def CreateTurfDto.row (dto : CreateTurfDto) (id : TurfId) (now : Time) : Turf where
  id := id
  name := dto.name
  description := dto.description
  address := dto.address
  city := dto.city
  sportType := dto.sportType
  pricePerHour := decimal2 dto.pricePerHour
  openTime := dto.openTime
  closeTime := dto.closeTime
  rating := 0
  isActive := true
  images := dto.images.getD []
  createdAt := now
  updatedAt := now

namespace TurfService

open TurfSync.TurfService (notFound)

def create (dto : CreateTurfDto) (w : World) : Except Err Turf × World :=
  if ∃ t ∈ w.db.turfs, t.name = dto.name ∧ t.city = dto.city then
    (.error (.conflict ("A turf with the name \"" ++ dto.name ++ "\" already exists in " ++ dto.city ++ ".")), w)
  else if ∃ t ∈ w.db.turfs, t.name = dto.name then (.error .P2002, w)
  else
    let base := w.shop.base
    let turf := dto.row base.out.uuid base.out.now
    let created := { base with
      db := { base.db with turfs := base.db.turfs ++ [turf] }
      out := { base.out with uuid := base.out.uuid + 1 } }
    match SlotService.generateForTurf turf.id 7 created with
    | (.error e, generated) => (.error e, w.withBase generated)
    | (.ok _, generated) => (.ok turf, (w.withBase generated).delLists)

def findAll (p : Platform) (query : QueryTurfDto) (w : World) : Except Err Page × World :=
  match w.list? (query.cacheKey p) with
  | some cached => (.ok cached, w)
  | none => match query.args p with
    | none => (.error .validation, w)
    | some args =>
      let result := args.find p w.db
      (.ok result, w.setList (query.cacheKey p) args result)

def findOne (id : TurfId) (w : World) : Except Err Turf × World :=
  match w.turf? id with
  | some cached => (.ok cached, w)
  | none => match w.db.turf? id with
    | none => (.error (notFound id), w)
    | some turf => (.ok turf, w.setTurf id turf)

def update (id : TurfId) (dto : UpdateTurfDto) (w : World) : Except Err Turf × World :=
  match TurfSync.TurfService.update id dto w.shop.base with
  | (.error e, base) => (.error e, w.withBase base)
  | (.ok turf, base) => (.ok turf, ((w.withBase base).delTurf id).delLists)

def remove (id : TurfId) (w : World) : Except Err String × World :=
  match w.db.turf? id with
  | none => (.error (notFound id), w)
  | some _ =>
    (.ok ("Turf with id \"" ++ toString id ++ "\" has been removed."),
      ((w.setTurfRow id fun t => { t with isActive := false, updatedAt := w.now }).delTurf id).delLists)

end TurfService

/-! ### Images -/

/-- The file of a request. -/
structure File where
  size : ℕ
  mimetype : String
  deriving DecidableEq, Repr

/-- What `upload_stream` calls back with. -/
inductive Uploaded where
  | error
  | result (secure_url : Option String)
  deriving DecidableEq, Repr

namespace UploadService

def uploadTurfImages (file : File) (uploaded : Uploaded) : Except Err String :=
  if 5 * 1024 * 1024 < file.size then .error (.badRequest "Image size must be less than 5MB")
  else if file.mimetype ∉ ["image/jpeg", "image/png", "image/webp"] then
    .error (.badRequest "Invalid file type. Only JPEG, PNG and WEBP images are allowed")
  else match uploaded with
    | .error => .error .infrastructure
    | .result secure_url =>
      if secure_url.getD "" = "" then
        .error (.badRequest "Upload failed: no secure URL returned from Cloudinary")
      else .ok (secure_url.getD "")

def deleteImage (destroyed : Bool) : Except Err Unit :=
  if destroyed then .ok () else .error .infrastructure

end UploadService

namespace UploadController

def uploadTurfImage (turfId : TurfId) (file : File) (uploaded : Uploaded) (w : World) :
    Except Err String × World :=
  match UploadService.uploadTurfImages file uploaded with
  | .error e => (.error e, w)
  | .ok imageUrl => match w.db.turf? turfId with
    | none => (.error .P2025, w)
    | some _ => (.ok imageUrl,
        w.setTurfRow turfId fun t => { t with images := t.images ++ [imageUrl], updatedAt := w.now })

def deleteTurfImage (turfId : TurfId) (imageUrl : String) (destroyed : Bool) (w : World) :
    Except Err Unit × World :=
  match w.db.turf? turfId with
  | none => (.error (.notFound "Turf not found"), w)
  | some turf =>
    if imageUrl ∉ turf.images then (.error (.badRequest "Image not found on this turf"), w)
    else match UploadService.deleteImage destroyed with
      | .error e => (.error e, w)
      | .ok _ => (.ok (), w.setTurfRow turfId fun t =>
          { t with images := turf.images.filter (· ≠ imageUrl), updatedAt := w.now })

end UploadController

end TurfSync.Pages
