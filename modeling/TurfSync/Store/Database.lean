import TurfSync.Store.Schema
import TurfSync.Txn.Rows

/-! The database as lists of rows, the selections the services make of it, and the
row writes their statements come down to. -/

namespace TurfSync

open Txn

structure Db where
  turfs : List Turf
  slots : List Slot
  bookings : List Booking
  payments : List Payment
  webhookEvents : List EventId
  coupons : List Coupon
  couponUsages : List CouponUsage
  auditLogs : List AuditLog

/-- A booking with the rows it refers to. -/
structure BookingDetail where
  booking : Booking
  turf : Turf
  slot : Slot
  payment : Option Payment

/-- A payment with its booking and slot. -/
structure PaymentDetail where
  payment : Payment
  booking : Booking
  slot : Slot

namespace Db

variable (db : Db)

def turf? (id : TurfId) : Option Turf := Rows.lookup (·.id) id db.turfs

def slot? (id : SlotId) : Option Slot := Rows.lookup (·.id) id db.slots

def booking? (id : BookingId) : Option Booking := Rows.lookup (·.id) id db.bookings

def payment? (id : PaymentId) : Option Payment := Rows.lookup (·.id) id db.payments

def paymentOf? (id : BookingId) : Option Payment := Rows.lookup (·.bookingId) id db.payments

def paymentByIntent? (intent : IntentId) : Option Payment :=
  Rows.lookup (·.stripePaymentIntentId) intent db.payments

def coupon? (id : CouponId) : Option Coupon := Rows.lookup (·.id) id db.coupons

def couponByCode? (code : String) : Option Coupon := Rows.lookup (·.code) code db.coupons

/-- The usages of a coupon by a user. -/
def usagesOf (couponId : CouponId) (userId : UserId) : List CouponUsage :=
  db.couponUsages.filter fun u => u.couponId = couponId ∧ u.userId = userId

/-- The slot and its turf, as `FROM slots s JOIN turfs t` selects them. -/
def slotWithTurf? (slotId : SlotId) (turfId : TurfId) : Option (Slot × Turf) := do
  let slot ← db.slot? slotId
  if slot.turfId = turfId then
    let turf ← db.turf? slot.turfId
    some (slot, turf)
  else none

def bookingDetail? (id : BookingId) : Option BookingDetail := do
  let booking ← db.booking? id
  let turf ← db.turf? booking.turfId
  let slot ← db.slot? booking.slotId
  some ⟨booking, turf, slot, db.paymentOf? id⟩

def paymentDetail? (id : BookingId) : Option PaymentDetail := do
  let payment ← db.paymentOf? id
  let booking ← db.booking? payment.bookingId
  let slot ← db.slot? booking.slotId
  some ⟨payment, booking, slot⟩

/-- PENDING or CONFIRMED bookings on some slots, without some bookings. -/
def activeOn (slotIds : List SlotId) (notIn : List BookingId) : List Booking :=
  db.bookings.filter fun b => b.slotId ∈ slotIds ∧ b.Active ∧ b.id ∉ notIn

end Db

/-- The columns an `UPDATE payments` sets. -/
inductive PaymentChange where
  | initiated (intent : IntentId) (secret : ClientSecret)
  | processing
  | paid (chargeId : Option String) (at_ : Time)
  | failed (reason : String)
  | refunded
  deriving DecidableEq, Repr

def PaymentChange.status : PaymentChange → PaymentStatus
  | .initiated _ _ => .INITIATED
  | .processing => .PROCESSING
  | .paid _ _ => .PAID
  | .failed _ => .FAILED
  | .refunded => .REFUNDED

def PaymentChange.set (p : Payment) : PaymentChange → Payment
  | .initiated intent secret => { p with
      stripePaymentIntentId := intent, stripeClientSecret := some secret, status := .INITIATED }
  | .processing => { p with status := .PROCESSING }
  | .paid chargeId time => { p with status := .PAID, stripeChargeId := chargeId, paidAt := some time }
  | .failed reason => { p with status := .FAILED, failureReason := some reason }
  | .refunded => { p with status := .REFUNDED }

/-- One write of rows. -/
inductive Write where
  | slotSet (ids : List SlotId) (isBooked : Bool)
  | bookingInsert (b : Booking)
  | bookingSet (ids : List BookingId) (status : BookingStatus)
  | paymentInsert (p : Payment)
  | paymentSet (ids : List PaymentId) (change : PaymentChange)
  | eventInsert (id : EventId)
  | usageInsert (u : CouponUsage)
  | couponIncrement (id : CouponId)
  | auditInsert (a : AuditLog)
  deriving DecidableEq, Repr

namespace Db

def setSlots (ids : List SlotId) (isBooked : Bool) : List Slot → List Slot :=
  Rows.update (·.id) ids fun s => { s with isBooked }

def setBookings (ids : List BookingId) (status : BookingStatus) : List Booking → List Booking :=
  Rows.update (·.id) ids fun b => { b with status }

def setPayments (ids : List PaymentId) (change : PaymentChange) : List Payment → List Payment :=
  Rows.update (·.id) ids fun p => change.set p

def incrementCoupon (id : CouponId) : List Coupon → List Coupon :=
  Rows.update (·.id) [id] fun c => { c with usedCount := c.usedCount + 1 }

def apply (db : Db) : Write → Db
  | .slotSet ids v => { db with slots := setSlots ids v db.slots }
  | .bookingInsert b => { db with bookings := db.bookings ++ [b] }
  | .bookingSet ids st => { db with bookings := setBookings ids st db.bookings }
  | .paymentInsert p => { db with payments := db.payments ++ [p] }
  | .paymentSet ids ch => { db with payments := setPayments ids ch db.payments }
  | .eventInsert id => { db with webhookEvents := db.webhookEvents ++ [id] }
  | .usageInsert u => { db with couponUsages := db.couponUsages ++ [u] }
  | .couponIncrement id => { db with coupons := incrementCoupon id db.coupons }
  | .auditInsert a => { db with auditLogs := db.auditLogs ++ [a] }

def applyAll (db : Db) (ws : List Write) : Db := ws.foldl apply db

@[simp] theorem applyAll_nil (db : Db) : db.applyAll [] = db := rfl

@[simp] theorem applyAll_cons (db : Db) (x : Write) (ws : List Write) :
    db.applyAll (x :: ws) = (db.apply x).applyAll ws := rfl

end Db

end TurfSync
