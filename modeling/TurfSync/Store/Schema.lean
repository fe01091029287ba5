import Mathlib.Data.Rat.Floor

/-! The tables of the booking side of the database, as far as the modelled services
read and write them. Ids are numbers, `uuid()` being a counter that never repeats;
instants are milliseconds since the epoch; decimal columns hold rationals. -/

namespace TurfSync

abbrev UserId := ℕ
abbrev TurfId := ℕ
abbrev SlotId := ℕ
abbrev BookingId := ℕ
abbrev PaymentId := ℕ
abbrev CouponId := ℕ
abbrev EventId := ℕ

/-- Milliseconds since the epoch. -/
abbrev Time := ℤ

def hourMs : Time := 3600000

def dayMs : Time := 24 * hourMs

/-- `setUTCHours(0, 0, 0, 0)`. -/
def startOfUTCDay (t : Time) : Time := t - t % dayMs

/-- The strings `HH:mm` of turfs and slots. -/
structure TimeOfDay where
  hour : ℕ
  minute : ℕ
  deriving DecidableEq, Repr

/-- `setUTCHours(h, m, 0, 0)`. -/
def setUTCHours (t : Time) (h m : ℕ) : Time := startOfUTCDay t + h * hourMs + m * 60000

inductive PaymentStatus where
  | INITIATED | PROCESSING | PAID | FAILED | REFUNDED
  deriving DecidableEq, Repr

inductive BookingStatus where
  | PENDING | CONFIRMED | CANCELLED | COMPLETED
  deriving DecidableEq, Repr

inductive DiscountType where
  | PERCENTAGE | FIXED
  deriving DecidableEq, Repr

inductive SportType where
  | FOOTBALL | CRICKET | BOTH
  deriving DecidableEq, Repr

structure Turf where
  id : TurfId
  name : String
  description : String
  address : String
  city : String
  sportType : SportType
  pricePerHour : ℚ
  openTime : TimeOfDay
  closeTime : TimeOfDay
  rating : ℚ
  isActive : Bool
  images : List String
  createdAt : Time
  updatedAt : Time
  deriving DecidableEq, Repr

structure Slot where
  id : SlotId
  turfId : TurfId
  date : Time
  startTime : TimeOfDay
  endTime : TimeOfDay
  isBooked : Bool
  deriving DecidableEq, Repr

structure Booking where
  id : BookingId
  userId : UserId
  turfId : TurfId
  slotId : SlotId
  totalAmount : ℚ
  status : BookingStatus
  notes : Option String
  createdAt : Time
  deriving DecidableEq, Repr

/-- A payment intent. Stripe answers one idempotency key with one intent, and the
service derives the key from the booking, so the booking identifies the intent. -/
structure IntentId where
  bookingId : BookingId
  deriving DecidableEq, Repr

structure ClientSecret where
  intent : IntentId
  deriving DecidableEq, Repr

structure Payment where
  id : PaymentId
  bookingId : BookingId
  amount : ℚ
  currency : String
  status : PaymentStatus
  stripePaymentIntentId : IntentId
  stripeClientSecret : Option ClientSecret
  stripeChargeId : Option String
  paidAt : Option Time
  failureReason : Option String
  deriving DecidableEq, Repr

structure Coupon where
  id : CouponId
  code : String
  discountType : DiscountType
  discountValue : ℚ
  minOrderAmount : ℚ
  maxDiscountAmount : ℚ
  usageLimit : Option ℕ
  usedCount : ℕ
  userUsageLimit : ℕ
  validFrom : Time
  validUntil : Time
  isActive : Bool
  deriving DecidableEq, Repr

structure CouponUsage where
  id : ℕ
  couponId : CouponId
  userId : UserId
  bookingId : BookingId
  discount : ℚ
  deriving DecidableEq, Repr

structure AuditLog where
  adminId : UserId
  action : String
  targetId : ℕ
  targetType : String
  previousStatus : BookingStatus
  deriving DecidableEq, Repr

namespace Booking

/-- `status in (PENDING, CONFIRMED)`. -/
def Active (b : Booking) : Prop := b.status = .PENDING ∨ b.status = .CONFIRMED

instance (b : Booking) : Decidable b.Active := inferInstanceAs (Decidable (_ ∨ _))

end Booking

/-- `Math.round`: to the nearest integer, halves up. -/
def mathRound (x : ℚ) : ℤ := ⌊x + 1 / 2⌋

/-- A value stored in a `DECIMAL(10,2)` column: to the nearest cent, halves away
from zero. -/
def decimal2 (x : ℚ) : ℚ :=
  if 0 ≤ x then (⌊x * 100 + 1 / 2⌋ : ℚ) / 100 else -((⌊-x * 100 + 1 / 2⌋ : ℚ) / 100)

/-- `Decimal.toString` of a non-negative amount with at most two decimals. -/
def decimalToString (x : ℚ) : String :=
  let cents := (mathRound (x * 100)).toNat
  let whole := toString (cents / 100)
  if cents % 100 = 0 then whole
  else if cents % 10 = 0 then whole ++ "." ++ toString (cents % 100 / 10)
  else whole ++ "." ++ (if cents % 100 < 10 then "0" else "") ++ toString (cents % 100)

/-- What a service call throws: an HTTP exception with its message, a Prisma error
by its code, a rejection by Stripe, or a failure of the infrastructure. -/
inductive Err where
  | badRequest (message : String)
  | unauthorized (message : String)
  | notFound (message : String)
  | forbidden (message : String)
  | conflict (message : String)
  | P2002
  | P2003
  | P2025
  | validation
  | stripe
  | infrastructure
  deriving DecidableEq, Repr

end TurfSync
