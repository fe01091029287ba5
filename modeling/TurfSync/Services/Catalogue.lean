import TurfSync.Services.CouponAdmin
import TurfSync.Services.Turf

/-! The booking services while administrators edit turfs and coupons: `TurfService.update`
and `remove` and the coupon calls of `CouponService` run interleaved with the calls of the
booking side. The caches that the edits empty are left out. -/

namespace TurfSync.Catalogue

open Txn

/-- The data of a `turf.update`. -/
inductive TurfChange where
  | edit (dto : UpdateTurfDto)
  | remove
  deriving DecidableEq, Repr

namespace TurfChange

def set (now : Time) : TurfChange → Turf → Turf
  | edit dto, turf => dto.set now turf
  | remove, turf => { turf with isActive := false, updatedAt := now }

/-- The new name, if there is one. -/
def name? : TurfChange → Option String
  | edit dto => dto.name
  | remove => none

theorem set_id (now : Time) (ch : TurfChange) (turf : Turf) : (ch.set now turf).id = turf.id := by
  cases ch <;> rfl

theorem set_name (now : Time) (ch : TurfChange) (turf : Turf) :
    (ch.set now turf).name = ch.name?.getD turf.name := by
  cases ch <;> rfl

end TurfChange

/-- Another turf has the new name. -/
def NameTaken (db : Db) (id : TurfId) (ch : TurfChange) : Prop :=
  ∃ t ∈ db.turfs, t.id ≠ id ∧ some t.name = ch.name?

instance (db : Db) (id : TurfId) (ch : TurfChange) : Decidable (NameTaken db id ch) :=
  inferInstanceAs (Decidable (∃ t ∈ db.turfs, _))

inductive Write where
  | coupon (x : CouponAdmin.Write)
  | turfSet (id : TurfId) (now : Time) (change : TurfChange)
  deriving DecidableEq, Repr

def apply (db : Db) : Write → Db
  | .coupon x => CouponAdmin.apply db x
  | .turfSet id now change =>
    { db with turfs := Rows.update (·.id) [id] (change.set now) db.turfs }

/-! ### Statements -/

inductive TurfStmt where
  | turfFindUnique (id : TurfId)
  | turfUpdate (id : TurfId) (change : TurfChange)
  deriving DecidableEq, Repr

@[reducible] def TurfStmt.Reply : TurfStmt → Type
  | .turfFindUnique _ => Option Turf
  | .turfUpdate _ _ => Turf

/-- The statements of bookings and coupons, and those of the turfs. -/
abbrev Stmt := CouponAdmin.Stmt ⊕ TurfStmt

abbrev Stmt.Reply : Stmt → Type := Sum.elim CouponAdmin.Stmt.Reply TurfStmt.Reply

structure World where
  db : Db
  out : Outside

/-- A statement of bookings and coupons acts as it does there. -/
def act (cfg : Config) : (s : Stmt) → World → World → Effect Err Key Write World (Stmt.Reply s)
  | .inl s, view, w =>
    let e := CouponAdmin.act cfg s ⟨view.db, view.out, []⟩ ⟨w.db, w.out, []⟩
    ⟨e.reply, e.locks, e.writes.map .coupon, { w with out := e.world.out }⟩
  | .inr (.turfFindUnique id), view, w => ⟨.ok (view.db.turf? id), [], [], w⟩
  | .inr (.turfUpdate id change), view, w => match view.db.turf? id with
    | none => ⟨.error .P2025, [], [], w⟩
    | some turf =>
      if NameTaken view.db id change then ⟨.error .P2002, [], [], w⟩
      else ⟨.ok (change.set w.out.now turf), [], [.turfSet id w.out.now change], w⟩

/-! ### The calls -/

inductive Call where
  | booking (c : TurfSync.Call)
  | createCoupon (dto : CouponAdmin.CreateCouponDto)
  | updateCoupon (id : CouponId) (dto : CouponAdmin.UpdateCouponDto)
  | toggleActive (id : CouponId)
  | deleteCoupon (id : CouponId)
  | updateTurf (id : TurfId) (dto : UpdateTurfDto)
  | removeTurf (id : TurfId)
  deriving DecidableEq, Repr

inductive Reply where
  | booking (r : TurfSync.Reply)
  | coupon (r : CouponAdmin.Reply)
  | turf (turf : Turf)
  | message (text : String)
  deriving DecidableEq, Repr

def engine (cfg : Config) : Engine Stmt Stmt.Reply Err Key Write World Call where
  act := act cfg
  apply x w := { w with db := apply w.db x }
  commit _ ws w := { w with db := ws.foldl apply w.db }
  fault := .infrastructure

abbrev Op (α : Type) := Script Stmt Stmt.Reply Err α

def turfFindUnique (id : TurfId) : Op (Option Turf) :=
  Script.perform (S := Stmt) (R := Stmt.Reply) (.inr (.turfFindUnique id))

def turfUpdate (id : TurfId) (change : TurfChange) : Op Turf :=
  Script.perform (S := Stmt) (R := Stmt.Reply) (.inr (.turfUpdate id change))

namespace TurfService

def update (id : TurfId) (dto : UpdateTurfDto) : Op Reply := do
  let existingTurf : Option Turf ← turfFindUnique id
  match existingTurf with
  | none => .throw (TurfSync.TurfService.notFound id)
  | some _ => do
    let turf ← turfUpdate id (.edit dto)
    pure (.turf turf)

def remove (id : TurfId) : Op Reply := do
  let existingTurf : Option Turf ← turfFindUnique id
  match existingTurf with
  | none => .throw (TurfSync.TurfService.notFound id)
  | some _ => do
    let _ ← turfUpdate id .remove
    pure (.message ("Turf with id \"" ++ toString id ++ "\" has been removed."))

end TurfService

/-- A call of the booking side. -/
def booking (p : TurfSync.Op TurfSync.Reply) : Op Reply :=
  (Script.embed (Script.embed p : CouponAdmin.Op TurfSync.Reply)).bind fun r => .ret (.booking r)

/-- A call of the coupon administration. -/
def coupon (p : CouponAdmin.Op CouponAdmin.Reply) : Op Reply :=
  (Script.embed p).bind fun r => .ret (.coupon r)

def Call.body (cfg : Config) : Call → Op Reply
  | booking c => Catalogue.booking (c.body cfg)
  | createCoupon dto => coupon (CouponAdmin.CouponService.create cfg dto)
  | updateCoupon id dto => coupon (CouponAdmin.CouponService.update cfg id dto)
  | toggleActive id => coupon (CouponAdmin.CouponService.toggleActive id)
  | deleteCoupon id => coupon (CouponAdmin.CouponService.delete id)
  | updateTurf id dto => TurfService.update id dto
  | removeTurf id => TurfService.remove id

def Call.accepts (w : World) : Call → Bool
  | booking c => c.madeAt.all (· = w.out.now)
  | _ => true

def service (cfg : Config) : Service Stmt Stmt.Reply Err Key Write World Call Env Reply where
  toEngine := engine cfg
  body := Call.body cfg
  accepts call w := call.accepts w
  evolve v w := { w with out := v.evolve w.out }

abbrev Sys := System Stmt Stmt.Reply Err Key Write World Call Reply

abbrev Act := Action Call Env

/-- Nothing has been called, booked or asked of Stripe. -/
structure Sys.Fresh (s : Sys) : Prop where
  threads : s.threads = []
  db : s.world.db.Fresh
  intentRequests : s.world.out.intentRequests = []

end TurfSync.Catalogue
