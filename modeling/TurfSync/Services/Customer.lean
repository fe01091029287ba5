import TurfSync.Services.Review
import TurfSync.Store.Accounts
import TurfSync.System

/-! What a user can call, one call after the other: `BookingService.create`, `cancel` and
`findOne`, `PaymentService.createPaymentIntent`, `getPaymentStatus` and `refund`, and
`ReviewService.createReview`. The columns of the user that `findOne` shows as well are left
out; they are the user's own. -/

namespace TurfSync

open Txn

/-- The columns of a payment that `findOne` selects. -/
structure PaymentSummary where
  id : PaymentId
  status : PaymentStatus
  amount : ℚ
  paidAt : Option Time
  deriving DecidableEq, Repr

structure BookingView where
  booking : Booking
  turf : Turf
  slot : Slot
  payment : Option PaymentSummary
  deriving DecidableEq, Repr

/-- What `getPaymentStatus` returns. -/
structure PaymentView where
  status : PaymentStatus
  amount : ℚ
  paidAt : Option Time
  failureReason : Option String
  deriving DecidableEq, Repr

def Payment.summary (p : Payment) : PaymentSummary := ⟨p.id, p.status, p.amount, p.paidAt⟩

def Payment.view (p : Payment) : PaymentView := ⟨p.status, p.amount, p.paidAt, p.failureReason⟩

def BookingService.findOne (id : BookingId) (userId : UserId) (userRole : Accounts.Role) (db : Db) :
    Except Err BookingView :=
  match db.bookingDetail? id with
  | none => .error (.notFound "No booking found")
  | some d =>
    if userRole ≠ .ADMIN ∧ d.booking.userId ≠ userId then
      .error (.forbidden "You are not authorized to view this booking")
    else .ok ⟨d.booking, d.turf, d.slot, d.payment.map Payment.summary⟩

def PaymentService.getPaymentStatus (bookingId : BookingId) (userId : UserId) (db : Db) :
    Except Err PaymentView :=
  match db.paymentOf? bookingId with
  | none => .error (.notFound "Payment not found")
  | some payment =>
    if (db.booking? payment.bookingId).map (·.userId) ≠ some userId then
      .error (.forbidden "You are not authorized to access this payment")
    else .ok payment.view

namespace Customer

/-- The bookings with all that belongs to them, and the reviews. -/
structure World where
  base : TurfSync.World
  reviews : List Review

namespace World

/-- The tables that `createReview` uses. -/
def reviewing (w : World) : Reviews.World :=
  ⟨⟨w.base.db.bookings, w.base.db.turfs, w.reviews⟩, w.base.out.now, w.base.out.uuid, []⟩

/-- What `createReview` leaves. -/
def reviewed (w : World) (r : Reviews.World) : World where
  base := { w.base with
    db := { w.base.db with bookings := r.db.bookings, turfs := r.db.turfs }
    out := { w.base.out with uuid := r.uuid } }
  reviews := r.db.reviews

end World

inductive Call where
  | create (dto : CreateBookingDto)
  | cancel (id : BookingId)
  | createPaymentIntent (bookingId : BookingId)
  | getPaymentStatus (bookingId : BookingId)
  | refund (bookingId : BookingId)
  | createReview (dto : CreateReviewDto)
  | findOne (id : BookingId)
  deriving DecidableEq, Repr

inductive Reply where
  | done (r : TurfSync.Reply)
  | status (payment : PaymentView)
  | review (r : Review)
  | found (b : BookingView)
  deriving DecidableEq, Repr

/-- A call of the booking side that runs alone. -/
def serve (cfg : Config) (c : TurfSync.Call) (w : World) : Except Err Reply × World :=
  let r := (engine cfg).solo ⟨w.base.history.length, c⟩ (c.body cfg) .idle w.base
  (r.1.map .done, { w with base := r.2.2 })

/-- A call of user `u`, whose role is USER. -/
def Call.exec (cfg : Config) (u : UserId) (w : World) : Call → Except Err Reply × World
  | create dto => serve cfg (.create dto u w.base.out.now) w
  | cancel id => serve cfg (.cancel id u) w
  | createPaymentIntent bookingId => serve cfg (.createPaymentIntent bookingId u) w
  | getPaymentStatus bookingId =>
    ((PaymentService.getPaymentStatus bookingId u w.base.db).map .status, w)
  | refund bookingId => serve cfg (.refund bookingId u) w
  | createReview dto =>
    let r := Reviews.engine.solo ⟨w.base.history.length, ⟨dto, u⟩⟩ (ReviewService.createReview dto u)
      .idle w.reviewing
    (r.1.map .review, w.reviewed r.2.2)
  | findOne id => ((BookingService.findOne id u .USER w.base.db).map .found, w)

/-- A call, or time passes or a Redis lock expires. -/
inductive Step where
  | call (c : Call)
  | env (v : Env)
  deriving DecidableEq, Repr

def Step.exec (cfg : Config) (u : UserId) (w : World) : Step → World
  | call c => (c.exec cfg u w).2
  | env v => { w with base := { w.base with out := v.evolve w.base.out } }

def run (cfg : Config) (u : UserId) (w : World) (steps : List Step) : World :=
  steps.foldl (Step.exec cfg u) w

end Customer

end TurfSync
