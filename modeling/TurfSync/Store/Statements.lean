import TurfSync.Txn.Engine
import TurfSync.Store.Database

/-! The statements the services issue: Prisma reads, `SELECT ... FOR UPDATE`, Prisma
writes, and calls to Redis, Stripe, the queue and the clock. Unique indexes and
foreign keys are checked where a row is inserted, under the lock of the index entry.
A `FOR UPDATE` over several rows is a loop of single-row statements. Metrics and log
lines are left out. -/

namespace TurfSync

open Txn

/-- Rows and unique-index entries that a statement can lock. -/
inductive Key where
  | slot (id : SlotId)
  | booking (id : BookingId)
  | bookingSlot (id : SlotId)
  | payment (id : PaymentId)
  | event (id : EventId)
  | coupon (id : CouponId)
  | usageBooking (id : BookingId)
  deriving DecidableEq, Repr

inductive StripeEventType where
  | succeeded | payment_failed | processing | other
  deriving DecidableEq, Repr

/-- A Stripe event about a payment intent. -/
structure StripeEvent where
  type : StripeEventType
  intent : IntentId
  latestCharge : Option String
  lastPaymentError : Option String
  deriving DecidableEq, Repr

/-- What differs between deployments or is outside the repository: whether
`bookings.slotId` is unique (the schema says it is), the currency, upper-casing, and
the event Stripe created under each event id. -/
structure Config where
  slotIdUnique : Bool
  currency : String
  toUpperCase : String → String
  event : EventId → StripeEvent

/-- A `paymentIntents.create` request; its idempotency key is
`payment-intent-<bookingId>`. -/
structure IntentRequest where
  bookingId : BookingId
  amount : ℤ
  currency : String
  userId : UserId
  turfName : String
  slotTime : TimeOfDay × TimeOfDay
  deriving DecidableEq, Repr

/-- Jobs on the notification queue. -/
inductive Job where
  | bookingConfirmed (id : BookingId) (date : Option Time) (startTime : TimeOfDay) (userId : UserId)
      (turfId : TurfId)
  | bookingCancelled (booking : Booking)
  | paymentSuccess (id : PaymentId) (amount : ℚ) (booking : Booking)
  | paymentFailed (id : PaymentId) (reason : String) (booking : Booking)
  deriving DecidableEq, Repr

/-- The slots of a turf on a date, as clients see them. -/
structure Listing where
  turf : Turf
  slots : List Slot
  date : Time
  deriving DecidableEq, Repr

/-- Everything outside the database. `slotLocks` are the Redis keys `lock:slot:<id>`
with their values, `slotCache` the entries `slots:available:<turfId>:<date>`. -/
structure Outside where
  now : Time
  uuid : ℕ
  slotLocks : SlotId → Option ℕ
  slotCache : List (TurfId × Time × Listing)
  jobs : List Job
  intentRequests : List IntentRequest
  refunds : List IntentId

/-! ### Reads -/

inductive Query where
  | turfPrice (id : TurfId)
  | couponByCode (code : String) (userId : UserId)
  | bookingFindFirst (userId : UserId) (slotId : SlotId)
  | bookingFindUnique (id : BookingId)
  | bookingDetail (id : BookingId)
  | bookingFindStale (createdBefore : Time)
  | bookingFindActive (slotIds : List SlotId) (notIn : List BookingId)
  | bookingFindExpired (now : Time)
  | paymentDetail (bookingId : BookingId)
  | paymentByIntent (intent : IntentId)
  | couponUsageCount (couponId : CouponId) (userId : UserId)
  deriving DecidableEq, Repr

@[reducible] def Query.Reply : Query → Type
  | .turfPrice _ => Option ℚ
  | .couponByCode _ _ => Option (Coupon × List CouponUsage)
  | .bookingFindFirst _ _ => Option Booking
  | .bookingFindUnique _ => Option Booking
  | .bookingDetail _ => Option BookingDetail
  | .bookingFindStale _ => List Booking
  | .bookingFindActive _ _ => List Booking
  | .bookingFindExpired _ => List (Booking × Slot)
  | .paymentDetail _ => Option PaymentDetail
  | .paymentByIntent _ => Option (Payment × Booking)
  | .couponUsageCount _ _ => ℕ

def Query.eval (db : Db) : (q : Query) → q.Reply
  | .turfPrice id => (db.turf? id).map (·.pricePerHour)
  | .couponByCode code userId =>
    (db.couponByCode? code).map fun c => (c, db.usagesOf c.id userId)
  | .bookingFindFirst userId slotId =>
    db.bookings.find? fun b => b.userId = userId ∧ b.slotId = slotId ∧ b.status ≠ .CANCELLED
  | .bookingFindUnique id => db.booking? id
  | .bookingDetail id => db.bookingDetail? id
  | .bookingFindStale createdBefore =>
    db.bookings.filter fun b => b.status = .PENDING ∧ b.createdAt < createdBefore
  | .bookingFindActive slotIds notIn => db.activeOn slotIds notIn
  | .bookingFindExpired now =>
    (db.bookings.filterMap fun b => (db.slot? b.slotId).map (b, ·)).filter fun x =>
      x.1.status = .CONFIRMED ∧ x.2.date ≤ now
  | .paymentDetail id => db.paymentDetail? id
  | .paymentByIntent intent => do
    let payment ← db.paymentByIntent? intent
    let booking ← db.booking? payment.bookingId
    some (payment, booking)
  | .couponUsageCount couponId userId => (db.usagesOf couponId userId).length

/-! ### Row locks -/

/-- `SELECT ... FOR UPDATE`. -/
inductive RowLock where
  | slotWithTurf (slotId : SlotId) (turfId : TurfId)
  | booking (id : BookingId)
  | pendingBooking (id : BookingId)
  | slot (id : SlotId)
  | coupon (id : CouponId)
  deriving DecidableEq, Repr

@[reducible] def RowLock.Reply : RowLock → Type
  | .slotWithTurf _ _ => Option (Slot × Turf)
  | .booking _ => Option Booking
  | .pendingBooking _ => Option Booking
  | .slot _ => Unit
  | .coupon _ => Option Coupon

/-- The locked row in its latest version; a row that the filter rejects is neither
returned nor locked. -/
def RowLock.eval (db : Db) : (l : RowLock) → l.Reply × List Key
  | .slotWithTurf slotId turfId => match db.slotWithTurf? slotId turfId with
    | some row => (some row, [.slot slotId])
    | none => (none, [])
  | .booking id => match db.booking? id with
    | some b => (some b, [.booking id])
    | none => (none, [])
  | .pendingBooking id => match db.booking? id with
    | some b => if b.status = .PENDING then (some b, [.booking id]) else (none, [])
    | none => (none, [])
  | .slot id => ((), [.slot id])
  | .coupon id => match db.coupon? id with
    | some c => (some c, [.coupon id])
    | none => (none, [])

/-! ### Writes -/

/-- The columns of `booking.create`; an amount of `none` is `NaN`. -/
structure NewBooking where
  userId : UserId
  turfId : TurfId
  slotId : SlotId
  totalAmount : Option ℚ
  notes : Option String
  deriving DecidableEq, Repr

inductive Update where
  | slotUpdate (id : SlotId) (isBooked : Bool)
  | slotUpdateMany (ids : List SlotId) (isBooked : Bool)
  | bookingCreate (data : NewBooking)
  | bookingUpdate (id : BookingId) (status : BookingStatus)
  | bookingUpdateManyPending (ids : List BookingId) (status : BookingStatus)
  | paymentUpdate (id : PaymentId) (change : PaymentChange)
  | paymentUpdateMany (intent : IntentId) (change : PaymentChange)
  | paymentUpsert (bookingId : BookingId) (amount : ℚ) (currency : String) (intent : IntentId)
      (secret : ClientSecret)
  | webhookEventCreate (id : EventId)
  | couponUsageCreate (couponId : CouponId) (userId : UserId) (bookingId : BookingId)
      (discount : Option ℚ)
  | couponIncrement (id : CouponId)
  | auditLogCreate (a : AuditLog)
  deriving DecidableEq, Repr

@[reducible] def Update.Reply : Update → Type
  | .bookingCreate _ => Booking
  | .paymentUpsert _ _ _ _ _ => Payment
  | _ => Unit

/-- What a write statement answers, locks and writes; `used` is the number of fresh
ids it takes. -/
structure Planned (A : Type) where
  reply : Except Err A
  locks : List Key
  writes : List Write
  used : ℕ := 0

def Planned.fail {A : Type} (e : Err) (locks : List Key) : Planned A := ⟨.error e, locks, [], 0⟩

/-- The row that `booking.create` inserts. -/
def NewBooking.row (d : NewBooking) (amount : ℚ) (id : BookingId) (now : Time) : Booking where
  id := id
  userId := d.userId
  turfId := d.turfId
  slotId := d.slotId
  totalAmount := decimal2 amount
  status := .PENDING
  notes := d.notes
  createdAt := now

/-- The row that `payment.upsert` inserts. -/
def newPayment (id : PaymentId) (bookingId : BookingId) (amount : ℚ) (currency : String)
    (intent : IntentId) (secret : ClientSecret) : Payment where
  id := id
  bookingId := bookingId
  amount := amount
  currency := currency
  status := .INITIATED
  stripePaymentIntentId := intent
  stripeClientSecret := some secret
  stripeChargeId := none
  paidAt := none
  failureReason := none

def Update.plan (cfg : Config) (db : Db) (uuid : ℕ) (now : Time) : (u : Update) → Planned u.Reply
  | .slotUpdate id v => match db.slot? id with
    | some _ => { reply := .ok (), locks := [.slot id], writes := [.slotSet [id] v] }
    | none => .fail .P2025 []
  | .slotUpdateMany ids v =>
    { reply := .ok (), locks := ids.map .slot, writes := [.slotSet ids v] }
  | .bookingCreate d => match d.totalAmount with
    | none => .fail .validation []
    | some amount =>
      if (db.slot? d.slotId).isNone ∨ (db.turf? d.turfId).isNone then .fail .P2003 []
      else if cfg.slotIdUnique ∧ ∃ b ∈ db.bookings, b.slotId = d.slotId then
        .fail .P2002 [.bookingSlot d.slotId]
      else
        { reply := .ok (d.row amount uuid now)
          locks := [.booking uuid, .bookingSlot d.slotId]
          writes := [.bookingInsert (d.row amount uuid now)]
          used := 1 }
  | .bookingUpdate id st => match db.booking? id with
    | some _ => { reply := .ok (), locks := [.booking id], writes := [.bookingSet [id] st] }
    | none => .fail .P2025 []
  | .bookingUpdateManyPending ids st =>
    let rows := (db.bookings.filter fun b => b.id ∈ ids ∧ b.status = .PENDING).map (·.id)
    { reply := .ok (), locks := rows.map .booking, writes := [.bookingSet rows st] }
  | .paymentUpdate id ch => match db.payment? id with
    | some _ => { reply := .ok (), locks := [.payment id], writes := [.paymentSet [id] ch] }
    | none => .fail .P2025 []
  | .paymentUpdateMany intent ch =>
    let rows := (db.payments.filter fun p => p.stripePaymentIntentId = intent).map (·.id)
    { reply := .ok (), locks := rows.map .payment, writes := [.paymentSet rows ch] }
  | .paymentUpsert bookingId amount currency intent secret =>
    if ∃ p ∈ db.payments, p.stripePaymentIntentId = intent ∧ p.bookingId ≠ bookingId then
      .fail .P2002 []
    else match db.paymentOf? bookingId with
      | some p =>
        { reply := .ok ((PaymentChange.initiated intent secret).set p)
          locks := [.payment p.id]
          writes := [.paymentSet [p.id] (.initiated intent secret)] }
      | none =>
        if (db.booking? bookingId).isNone then .fail .P2003 []
        else
          { reply := .ok (newPayment uuid bookingId amount currency intent secret)
            locks := [.payment uuid]
            writes := [.paymentInsert (newPayment uuid bookingId amount currency intent secret)]
            used := 1 }
  | .webhookEventCreate id =>
    if id ∈ db.webhookEvents then .fail .P2002 [.event id]
    else { reply := .ok (), locks := [.event id], writes := [.eventInsert id] }
  | .couponUsageCreate couponId userId bookingId discount => match discount with
    | none => .fail .validation []
    | some amount =>
      if (db.coupon? couponId).isNone ∨ (db.booking? bookingId).isNone then .fail .P2003 []
      else if ∃ u ∈ db.couponUsages, u.bookingId = bookingId then
        .fail .P2002 [.usageBooking bookingId]
      else
        { reply := .ok ()
          locks := [.usageBooking bookingId]
          writes := [.usageInsert ⟨uuid, couponId, userId, bookingId, decimal2 amount⟩]
          used := 1 }
  | .couponIncrement id => match db.coupon? id with
    | some _ => { reply := .ok (), locks := [.coupon id], writes := [.couponIncrement id] }
    | none => .fail .P2025 []
  | .auditLogCreate a => { reply := .ok (), locks := [], writes := [.auditInsert a] }

/-! ### Calls outside the database -/

inductive External where
  | dateNow
  | acquireLock (slotId : SlotId)
  | releaseLock (slotId : SlotId) (value : ℕ)
  | delByPattern (turfId : TurfId)
  | queueAdd (job : Job)
  | createIntent (request : IntentRequest)
  | createRefund (intent : IntentId)
  deriving DecidableEq, Repr

@[reducible] def External.Reply : External → Type
  | .dateNow => Time
  | .acquireLock _ => Option ℕ
  | .releaseLock _ _ => Bool
  | .delByPattern _ => Unit
  | .queueAdd _ => Unit
  | .createIntent _ => IntentId
  | .createRefund _ => ℕ

/-- Redis, Stripe, the queue and the clock. `SET NX` takes a free key only, the
release script deletes its own value only. Stripe wants a positive amount, answers a
repeated idempotency key with the same intent if the parameters are the same and
rejects it otherwise, and refunds an intent once. -/
def External.eval (o : Outside) : (x : External) → Except Err x.Reply × Outside
  | .dateNow => (.ok o.now, o)
  | .acquireLock slotId =>
    if (o.slotLocks slotId).isNone then
      (.ok (some o.uuid), { o with
        slotLocks := Function.update o.slotLocks slotId (some o.uuid), uuid := o.uuid + 1 })
    else (.ok none, { o with uuid := o.uuid + 1 })
  | .releaseLock slotId value =>
    if o.slotLocks slotId = some value then
      (.ok true, { o with slotLocks := Function.update o.slotLocks slotId none })
    else (.ok false, o)
  | .delByPattern turfId => (.ok (), { o with slotCache := o.slotCache.filter (·.1 ≠ turfId) })
  | .queueAdd job => (.ok (), { o with jobs := o.jobs ++ [job] })
  | .createIntent r =>
    (if 0 < r.amount ∧ ∀ r' ∈ o.intentRequests, r'.bookingId = r.bookingId → r' = r
      then .ok ⟨r.bookingId⟩ else .error .stripe,
      { o with intentRequests := o.intentRequests ++ [r] })
  | .createRefund intent =>
    if intent ∈ o.refunds then (.error .stripe, o)
    else (.ok o.uuid, { o with refunds := o.refunds ++ [intent], uuid := o.uuid + 1 })

/-! ### Statements -/

inductive Stmt where
  | query (q : Query)
  | lock (l : RowLock)
  | update (u : Update)
  | external (x : External)
  deriving DecidableEq, Repr

@[reducible] def Stmt.Reply : Stmt → Type
  | .query q => q.Reply
  | .lock l => l.Reply
  | .update u => u.Reply
  | .external x => x.Reply

end TurfSync
