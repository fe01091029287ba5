import TurfSync.Store.Statements

/-! The world the services run in and the meaning of their statements as an engine.
The history lists the commits with the database each of them found; no statement
reads it. -/

namespace TurfSync

open Txn

/-- `date` is what `new Date` makes of the text: nothing for a text that passes the
validator and is no date to `Date`, such as a week date. -/
structure CreateBookingDto where
  turfId : TurfId
  slotId : SlotId
  date : Option Time
  notes : Option String
  couponCode : Option String
  deriving DecidableEq, Repr

/-- The calls of the services. `now` is the instant the call starts at, for those
that read the clock before anything else; a webhook carries the id of a Stripe event,
or nothing when its signature does not verify. -/
inductive Call where
  | create (dto : CreateBookingDto) (userId : UserId) (now : Time)
  | cancel (id : BookingId) (userId : UserId)
  | cleanupStalePendingBookings (now : Time)
  | createPaymentIntent (bookingId : BookingId) (userId : UserId)
  | handleWebhook (event : Option EventId)
  | refund (bookingId : BookingId) (userId : UserId)
  | completeBooking (bookingId : BookingId) (adminId : UserId)
  | autoCompleteBookings (now : Time)
  deriving DecidableEq, Repr

/-- What a call returns. -/
inductive Reply where
  | booking (b : Booking)
  | intent (secret : ClientSecret) (paymentId : PaymentId) (amount : ℚ)
  | success
  | message (text : String)
  | refunded (refundId : ℕ) (amount : ℚ) (bookingId : BookingId)
  | done
  deriving DecidableEq, Repr

structure Entry where
  session : Session Call
  writes : List Write
  before : Db

structure World where
  db : Db
  out : Outside
  history : List Entry

def Stmt.act (cfg : Config) : (s : Stmt) → World → World → Effect Err Key Write World s.Reply
  | .query q, view, w => ⟨.ok (q.eval view.db), [], [], w⟩
  | .lock l, view, w => ⟨.ok (l.eval view.db).1, (l.eval view.db).2, [], w⟩
  | .update u, view, w =>
    let p := u.plan cfg view.db w.out.uuid w.out.now
    ⟨p.reply, p.locks, p.writes, { w with out := { w.out with uuid := w.out.uuid + p.used } }⟩
  | .external x, _, w => ⟨(x.eval w.out).1, [], [], { w with out := (x.eval w.out).2 }⟩

/-- The engine of the booking services. -/
def engine (cfg : Config) : Engine Stmt Stmt.Reply Err Key Write World Call where
  act := Stmt.act cfg
  apply x w := { w with db := w.db.apply x }
  commit c ws w := { w with db := w.db.applyAll ws, history := w.history ++ [⟨c, ws, w.db⟩] }
  fault := .infrastructure

/-- Programs of the services. -/
abbrev Op (α : Type) := Script Stmt Stmt.Reply Err α

def query (q : Query) : Op q.Reply := Script.perform (S := Stmt) (.query q)

def lockRow (l : RowLock) : Op l.Reply := Script.perform (S := Stmt) (.lock l)

def update (u : Update) : Op u.Reply := Script.perform (S := Stmt) (.update u)

def external (x : External) : Op x.Reply := Script.perform (S := Stmt) (.external x)

theorem view_db (cfg : Config) (ws : List Write) (w : World) :
    (engine cfg).view ws w = { w with db := w.db.applyAll ws } := by
  induction ws generalizing w with
  | nil => rfl
  | cons x ws ih => exact ih _

end TurfSync
