import Mathlib.Algebra.BigOperators.Group.List.Basic
import TurfSync.Services.Turf
import TurfSync.Txn.Automaton

/-! `ReviewService.createReview`. The rating of a turf is a column that is computed again
after every review, from an average over the table. The statements run outside any
transaction, so each commits by itself; the history has an entry for every statement that
writes and for every average that is read, and no statement reads it. The name of the
reviewer, which the reply shows as well, is left out. -/

namespace TurfSync

structure Review where
  id : ℕ
  userId : UserId
  turfId : TurfId
  bookingId : BookingId
  rating : ℕ
  comment : Option String
  createdAt : Time
  deriving DecidableEq, Repr

structure CreateReviewDto where
  bookingId : BookingId
  rating : ℕ
  comment : Option String
  deriving DecidableEq, Repr

namespace Reviews

open Txn

/-- The reviews of a turf. -/
def ofTurf (turfId : TurfId) (reviews : List Review) : List Review :=
  reviews.filter (·.turfId = turfId)

/-- `_avg: { rating: true }`. -/
def average (turfId : TurfId) (reviews : List Review) : Option ℚ :=
  let rows := ofTurf turfId reviews
  if rows = [] then none
  else some ((rows.map fun r => (r.rating : ℚ)).sum / rows.length)

inductive Query where
  | bookingFindUnique (id : BookingId)
  | reviewFindUnique (bookingId : BookingId)
  deriving DecidableEq, Repr

/-- The columns of `review.create`. -/
structure NewReview where
  userId : UserId
  turfId : TurfId
  bookingId : BookingId
  rating : ℕ
  comment : Option String
  deriving DecidableEq, Repr

inductive Stmt where
  | query (q : Query)
  | reviewCreate (data : NewReview)
  | reviewAverage (turfId : TurfId)
  | turfUpdate (id : TurfId) (rating : ℚ)
  deriving DecidableEq, Repr

@[reducible] def Stmt.Reply : Stmt → Type
  | .query (.bookingFindUnique _) => Option Booking
  | .query (.reviewFindUnique _) => Option Review
  | .reviewCreate _ => Review
  | .reviewAverage _ => Option ℚ
  | .turfUpdate _ _ => Unit

/-- What a statement does to the tables; `averaged` is the trace of a read, and does
nothing. -/
inductive Write where
  | reviewInsert (r : Review)
  | averaged (turfId : TurfId)
  | turfRating (id : TurfId) (rating : ℚ) (now : Time)
  deriving DecidableEq, Repr

structure Db where
  bookings : List Booking
  turfs : List Turf
  reviews : List Review

namespace Db

def booking? (db : Db) (id : BookingId) : Option Booking := Rows.lookup (·.id) id db.bookings

def turf? (db : Db) (id : TurfId) : Option Turf := Rows.lookup (·.id) id db.turfs

def review? (db : Db) (bookingId : BookingId) : Option Review :=
  Rows.lookup (·.bookingId) bookingId db.reviews

def apply (db : Db) : Write → Db
  | .reviewInsert r => { db with reviews := db.reviews ++ [r] }
  | .averaged _ => db
  | .turfRating id rating now => { db with
      turfs := Rows.update (·.id) [id] (fun t => { t with rating := rating, updatedAt := now })
        db.turfs }

end Db

/-- The row that `review.create` inserts. -/
def NewReview.row (d : NewReview) (id : ℕ) (now : Time) : Review where
  id := id
  userId := d.userId
  turfId := d.turfId
  bookingId := d.bookingId
  rating := d.rating
  comment := d.comment
  createdAt := now

structure Call where
  dto : CreateReviewDto
  userId : UserId
  deriving DecidableEq, Repr

structure Entry where
  session : Session Call
  writes : List Write

structure World where
  db : Db
  now : Time
  uuid : ℕ
  history : List Entry

/-- A review is the only one of its booking; its booking and its turf exist. -/
def Stmt.act : (s : Stmt) → World → World → Effect Err Empty Write World s.Reply
  | .query (.bookingFindUnique id), view, w => ⟨.ok (view.db.booking? id), [], [], w⟩
  | .query (.reviewFindUnique bookingId), view, w => ⟨.ok (view.db.review? bookingId), [], [], w⟩
  | .reviewCreate d, view, w =>
    if (view.db.booking? d.bookingId).isNone ∨ (view.db.turf? d.turfId).isNone then
      ⟨.error .P2003, [], [], w⟩
    else if ∃ r ∈ view.db.reviews, r.bookingId = d.bookingId then ⟨.error .P2002, [], [], w⟩
    else ⟨.ok (d.row w.uuid w.now), [], [.reviewInsert (d.row w.uuid w.now)],
      { w with uuid := w.uuid + 1 }⟩
  | .reviewAverage turfId, view, w =>
    ⟨.ok (average turfId view.db.reviews), [], [.averaged turfId], w⟩
  | .turfUpdate id rating, view, w =>
    if (view.db.turf? id).isNone then ⟨.error .P2025, [], [], w⟩
    else ⟨.ok (), [], [.turfRating id rating w.now], w⟩

def engine : Engine Stmt Stmt.Reply Err Empty Write World Call where
  act := Stmt.act
  apply x w := { w with db := w.db.apply x }
  commit c ws w := { w with db := ws.foldl Db.apply w.db, history := w.history ++ [⟨c, ws⟩] }
  fault := .infrastructure

abbrev Op (α : Type) := Script Stmt Stmt.Reply Err α

def query (q : Query) : Op (Stmt.query q).Reply := Script.perform (S := Stmt) (.query q)

end Reviews

namespace ReviewService

open Reviews Txn

def updateTurfRating (turfId : TurfId) : Reviews.Op Unit := do
  let avg : Option ℚ ← Script.perform (S := Reviews.Stmt) (.reviewAverage turfId)
  Script.perform (S := Reviews.Stmt) (.turfUpdate turfId (avg.getD 0))

def createReview (dto : CreateReviewDto) (userId : UserId) : Reviews.Op Review := do
  let found : Option Booking ← Reviews.query (.bookingFindUnique dto.bookingId)
  match found with
  | none => .throw (.notFound "Booking not found")
  | some booking =>
    if booking.userId ≠ userId then
      .throw (.forbidden "You are not authorized to review this booking")
    else if booking.status ≠ .COMPLETED then
      .throw (.badRequest "Only completed bookings can be reviewed")
    else do
      let existingReview : Option Review ← Reviews.query (.reviewFindUnique dto.bookingId)
      match existingReview with
      | some _ => .throw (.badRequest "You have already reviewed this booking")
      | none => do
        let review : Review ← Script.perform (S := Reviews.Stmt) (.reviewCreate {
          userId := userId
          turfId := booking.turfId
          bookingId := booking.id
          rating := dto.rating
          comment := dto.comment })
        updateTurfRating booking.turfId
        pure review

end ReviewService

namespace Reviews

open Txn

/-- Time passes. -/
structure Tick where
  ms : ℕ
  deriving DecidableEq, Repr

def service : Service Stmt Stmt.Reply Err Empty Write World Call Tick Review where
  toEngine := engine
  body c := ReviewService.createReview c.dto c.userId
  accepts _ _ := true
  evolve v w := { w with now := w.now + v.ms }

abbrev Sys := System Stmt Stmt.Reply Err Empty Write World Call Review

abbrev Act := Action Call Tick

end Reviews

end TurfSync
