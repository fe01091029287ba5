import TurfSync.Services.Payment

/-! The booking services as one system: any calls by any users, interleaved statement
by statement, while the clock advances and Redis locks expire. -/

namespace TurfSync

open Txn

namespace Call

def body (cfg : Config) : Call → Op Reply
  | create dto userId now => BookingService.create cfg dto userId now
  | cancel id userId => BookingService.cancel id userId
  | cleanupStalePendingBookings now => BookingService.cleanupStalePendingBookings now
  | createPaymentIntent bookingId userId =>
    PaymentService.createPaymentIntent cfg bookingId userId
  | handleWebhook event => PaymentService.handleWebhook cfg event
  | refund bookingId userId => PaymentService.refund bookingId userId
  | completeBooking bookingId adminId => AdminService.completeBooking bookingId adminId
  | autoCompleteBookings now => BookingCompleteJob.autoCompleteBookings now

/-- The instant a call that starts by reading the clock was made at. -/
def madeAt : Call → Option Time
  | create _ _ now => some now
  | cleanupStalePendingBookings now => some now
  | autoCompleteBookings now => some now
  | _ => none

end Call

/-- What happens without the services: time passes, or the Redis lock of a slot
expires. -/
inductive Env where
  | tick (ms : ℕ)
  | expireLock (slotId : SlotId)
  deriving DecidableEq, Repr

def Env.evolve : Env → Outside → Outside
  | .tick ms, o => { o with now := o.now + ms }
  | .expireLock slotId, o => { o with slotLocks := Function.update o.slotLocks slotId none }

def service (cfg : Config) : Service Stmt Stmt.Reply Err Key Write World Call Env Reply where
  toEngine := engine cfg
  body := Call.body cfg
  accepts call w := call.madeAt.all (· = w.out.now)
  evolve v w := { w with out := v.evolve w.out }

/-- The world with every call made so far. -/
abbrev Sys := System Stmt Stmt.Reply Err Key Write World Call Reply

/-- A step of the system. -/
abbrev Act := Action Call Env

/-- A database before the first booking: every slot is free, no coupon has been used,
and a limit on the uses of a coupon is at least one, as `CreateCouponDto` has it. -/
structure Db.Fresh (db : Db) : Prop where
  slots : (db.slots.map (·.id)).Nodup
  free : ∀ s ∈ db.slots, s.isBooked = false
  bookings : db.bookings = []
  payments : db.payments = []
  webhookEvents : db.webhookEvents = []
  couponUsages : db.couponUsages = []
  coupons : (db.coupons.map (·.id)).Nodup
  codes : (db.coupons.map (·.code)).Nodup
  unused : ∀ c ∈ db.coupons, c.usedCount = 0
  limits : ∀ c ∈ db.coupons, c.usageLimit ≠ some 0

/-- A system in which nothing has been called. -/
structure Sys.Fresh (s : Sys) : Prop where
  threads : s.threads = []
  history : s.world.history = []
  db : s.world.db.Fresh

end TurfSync
