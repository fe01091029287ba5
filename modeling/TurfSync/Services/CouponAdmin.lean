import Mathlib.Data.PNat.Defs
import TurfSync.Services.Coupon
import TurfSync.Txn.Embed
import TurfSync.Txn.Journal
import TurfSync.System

/-! The administration of coupons by `CouponService`, together with `applyCoupon`, as one
system. The admin calls read first and write later, outside any transaction. -/

namespace TurfSync.CouponAdmin

open Txn

/-- A field of a request body. -/
inductive Field (α : Type) where
  | absent
  | null
  | value (a : α)
  deriving DecidableEq, Repr

namespace Field

variable {α : Type}

/-- The data for a required column: Prisma rejects a null. -/
def required : Field α → Option (Option α)
  | absent => some none
  | null => none
  | value a => some (some a)

/-- The data for a column that may be null. -/
def nullable : Field α → Option (Option α)
  | absent => none
  | null => some none
  | value a => some (some a)

end Field

/-- `CreateCouponDto`: the limits are at least 1. -/
structure CreateCouponDto where
  code : String
  discountType : DiscountType
  discountValue : ℚ
  minOrderAmount : ℚ
  maxDiscountAmount : ℚ
  usageLimit : Field ℕ+
  userUsageLimit : Field ℕ+
  validFrom : Time
  validUntil : Time
  isActive : Field Bool
  deriving DecidableEq, Repr

/-- `UpdateCouponDto`: the same fields, none of them required. -/
structure UpdateCouponDto where
  code : Field String
  discountType : Field DiscountType
  discountValue : Field ℚ
  minOrderAmount : Field ℚ
  maxDiscountAmount : Field ℚ
  usageLimit : Field ℕ+
  userUsageLimit : Field ℕ+
  validFrom : Field Time
  validUntil : Field Time
  isActive : Field Bool
  deriving DecidableEq, Repr

/-- The columns an `UPDATE coupons` sets. -/
structure CouponChange where
  code : Option String := none
  discountType : Option DiscountType := none
  discountValue : Option ℚ := none
  minOrderAmount : Option ℚ := none
  maxDiscountAmount : Option ℚ := none
  usageLimit : Option (Option ℕ+) := none
  userUsageLimit : Option ℕ+ := none
  validFrom : Option Time := none
  validUntil : Option Time := none
  isActive : Option Bool := none
  deriving DecidableEq, Repr

def CouponChange.set (ch : CouponChange) (c : Coupon) : Coupon :=
  { c with
    code := ch.code.getD c.code
    discountType := ch.discountType.getD c.discountType
    discountValue := (ch.discountValue.map decimal2).getD c.discountValue
    minOrderAmount := (ch.minOrderAmount.map decimal2).getD c.minOrderAmount
    maxDiscountAmount := (ch.maxDiscountAmount.map decimal2).getD c.maxDiscountAmount
    usageLimit := (ch.usageLimit.map (Option.map PNat.val)).getD c.usageLimit
    userUsageLimit := (ch.userUsageLimit.map PNat.val).getD c.userUsageLimit
    validFrom := ch.validFrom.getD c.validFrom
    validUntil := ch.validUntil.getD c.validUntil
    isActive := ch.isActive.getD c.isActive }

/-- The row of a new coupon, unless a required column is null. -/
def CreateCouponDto.row (dto : CreateCouponDto) (id : CouponId) : Option Coupon := do
  let userUsageLimit ← dto.userUsageLimit.required
  let isActive ← dto.isActive.required
  some {
    id := id
    code := dto.code
    discountType := dto.discountType
    discountValue := decimal2 dto.discountValue
    minOrderAmount := decimal2 dto.minOrderAmount
    maxDiscountAmount := decimal2 dto.maxDiscountAmount
    usageLimit := (dto.usageLimit.nullable.getD none).map PNat.val
    usedCount := 0
    userUsageLimit := (userUsageLimit.map PNat.val).getD 1
    validFrom := dto.validFrom
    validUntil := dto.validUntil
    isActive := isActive.getD true }

def UpdateCouponDto.change (dto : UpdateCouponDto) : Option CouponChange := do
  let code ← dto.code.required
  let discountType ← dto.discountType.required
  let discountValue ← dto.discountValue.required
  let minOrderAmount ← dto.minOrderAmount.required
  let maxDiscountAmount ← dto.maxDiscountAmount.required
  let userUsageLimit ← dto.userUsageLimit.required
  let validFrom ← dto.validFrom.required
  let validUntil ← dto.validUntil.required
  let isActive ← dto.isActive.required
  some {
    code := code
    discountType := discountType
    discountValue := discountValue
    minOrderAmount := minOrderAmount
    maxDiscountAmount := maxDiscountAmount
    usageLimit := dto.usageLimit.nullable
    userUsageLimit := userUsageLimit
    validFrom := validFrom
    validUntil := validUntil
    isActive := isActive }

/-! ### Statements -/

inductive Find where
  | byId (id : CouponId)
  | byCode (code : String)
  | byCodeNot (code : String) (id : CouponId)
  | withCount (id : CouponId)
  deriving DecidableEq, Repr

@[reducible] def Find.Reply : Find → Type
  | .byId _ => Option Coupon
  | .byCode _ => Option Coupon
  | .byCodeNot _ _ => Option Coupon
  | .withCount _ => Option (Coupon × ℕ)

def usesOf (db : Db) (id : CouponId) : List CouponUsage :=
  db.couponUsages.filter (·.couponId = id)

def Find.eval (db : Db) : (q : Find) → q.Reply
  | .byId id => db.coupon? id
  | .byCode code => db.couponByCode? code
  | .byCodeNot code id => db.coupons.find? fun c => c.code = code ∧ c.id ≠ id
  | .withCount id => (db.coupon? id).map fun c => (c, (usesOf db id).length)

inductive Change where
  | couponCreate (dto : CreateCouponDto)
  | couponUpdate (id : CouponId) (change : Option CouponChange)
  | couponDelete (id : CouponId)
  deriving DecidableEq, Repr

inductive Write where
  | base (x : TurfSync.Write)
  | couponInsert (row : Coupon)
  | couponSet (id : CouponId) (change : CouponChange)
  | couponDelete (id : CouponId)
  deriving DecidableEq, Repr

def apply (db : Db) : Write → Db
  | .base x => db.apply x
  | .couponInsert row => { db with coupons := db.coupons ++ [row] }
  | .couponSet id change =>
    { db with coupons := Rows.update (·.id) [id] change.set db.coupons }
  | .couponDelete id => { db with coupons := db.coupons.filter (·.id ≠ id) }

/-- What a write answers, locks and writes. The code is unique, and a coupon with usages
cannot be deleted. -/
def Change.plan (db : Db) (uuid : ℕ) : Change → Except Err Coupon × List Key × List Write
  | .couponCreate dto => match dto.row uuid with
    | none => (.error .validation, [], [])
    | some row =>
      if (db.couponByCode? row.code).isSome then (.error .P2002, [], [])
      else (.ok row, [.coupon uuid], [.couponInsert row])
  | .couponUpdate id change => match change with
    | none => (.error .validation, [], [])
    | some change => match db.coupon? id with
      | none => (.error .P2025, [], [])
      | some c =>
        if ∃ c' ∈ db.coupons, c'.id ≠ id ∧ some c'.code = change.code then
          (.error .P2002, [.coupon id], [])
        else (.ok (change.set c), [.coupon id], [.couponSet id change])
  | .couponDelete id => match db.coupon? id with
    | none => (.error .P2025, [], [])
    | some c =>
      if usesOf db id ≠ [] then (.error .P2003, [.coupon id], [])
      else (.ok c, [.coupon id], [.couponDelete id])

inductive AdminStmt where
  | find (q : Find)
  | change (u : Change)
  deriving DecidableEq, Repr

@[reducible] def AdminStmt.Reply : AdminStmt → Type
  | .find q => q.Reply
  | .change _ => Coupon

/-- The calls of `CouponService`. -/
inductive Call where
  | applyCoupon (couponId : CouponId) (userId : UserId) (bookingId : BookingId)
      (discount : Option ℚ)
  | create (dto : CreateCouponDto)
  | update (id : CouponId) (dto : UpdateCouponDto)
  | toggleActive (id : CouponId)
  | delete (id : CouponId)
  deriving DecidableEq, Repr

inductive Reply where
  | coupon (c : Coupon)
  | done
  deriving DecidableEq, Repr

abbrev Entry := Journal.Entry Call Write Db

structure World where
  db : Db
  out : Outside
  history : List Entry

/-- The statements of the booking side, and those of the coupon administration. -/
abbrev Stmt := TurfSync.Stmt ⊕ AdminStmt

abbrev Stmt.Reply : Stmt → Type := Sum.elim TurfSync.Stmt.Reply AdminStmt.Reply

/-- A statement of the booking side acts as it does there. -/
def act (cfg : Config) : (s : Stmt) → World → World → Effect Err Key Write World (Stmt.Reply s)
  | .inl s, view, w =>
    let e := TurfSync.Stmt.act cfg s ⟨view.db, view.out, []⟩ ⟨w.db, w.out, []⟩
    ⟨e.reply, e.locks, e.writes.map .base, { w with out := e.world.out }⟩
  | .inr (.find q), view, w => ⟨.ok (q.eval view.db), [], [], w⟩
  | .inr (.change u), view, w =>
    let p := u.plan view.db w.out.uuid
    ⟨p.1, p.2.1, p.2.2, { w with out := { w.out with uuid := w.out.uuid + 1 } }⟩

def engine (cfg : Config) : Engine Stmt Stmt.Reply Err Key Write World Call where
  act := act cfg
  apply x w := { w with db := apply w.db x }
  commit c ws w :=
    { w with db := ws.foldl apply w.db, history := w.history ++ [⟨c, ws, w.db⟩] }
  fault := .infrastructure

abbrev Op (α : Type) := Script Stmt Stmt.Reply Err α

def find (q : Find) : Op q.Reply :=
  Script.perform (S := Stmt) (R := Stmt.Reply) (.inr (.find q))

def change (u : Change) : Op Coupon :=
  Script.perform (S := Stmt) (R := Stmt.Reply) (.inr (.change u))

/-! ### The service -/

namespace CouponService

def create (cfg : Config) (dto : CreateCouponDto) : Op Reply := do
  let exists_ : Option Coupon ← find (.byCode (cfg.toUpperCase dto.code))
  if exists_.isSome then .throw (.badRequest "Coupon code already exists")
  else do
    let coupon ← change (.couponCreate { dto with code := cfg.toUpperCase dto.code })
    pure (.coupon coupon)

/-- The last statement of `update`. -/
def save (id : CouponId) (dto : UpdateCouponDto) : Op Reply := do
  let coupon ← change (.couponUpdate id dto.change)
  pure (.coupon coupon)

def update (cfg : Config) (id : CouponId) (dto : UpdateCouponDto) : Op Reply := do
  let coupon : Option Coupon ← find (.byId id)
  match coupon with
  | none => .throw (.notFound "Coupon not found")
  | some _ => match dto.code with
    | .value code =>
      -- an empty code is not looked up
      if code = "" then save id dto
      else do
        let codeUpper := cfg.toUpperCase code
        let exists_ : Option Coupon ← find (.byCodeNot codeUpper id)
        if exists_.isSome then .throw (.badRequest "Coupon code already exists")
        else save id { dto with code := .value codeUpper }
    | _ => save id dto

def toggleActive (id : CouponId) : Op Reply := do
  let coupon : Option Coupon ← find (.byId id)
  match coupon with
  | none => .throw (.notFound "Coupon not found")
  | some coupon => do
    let coupon ← change (.couponUpdate id (some { isActive := some (!coupon.isActive) }))
    pure (.coupon coupon)

def delete (id : CouponId) : Op Reply := do
  let coupon : Option (Coupon × ℕ) ← find (.withCount id)
  match coupon with
  | none => .throw (.notFound "Coupon not found")
  | some (_, couponUsages) =>
    if 0 < couponUsages then
      .throw (.badRequest ("Cannot delete coupon as it has already been used in bookings. " ++
        "Consider toggling it to inactive instead."))
    else do
      let coupon ← change (.couponDelete id)
      pure (.coupon coupon)

end CouponService

def Call.body (cfg : Config) : Call → Op Reply
  | applyCoupon couponId userId bookingId discount =>
    (Script.embed (TurfSync.CouponService.applyCoupon couponId userId bookingId discount)).bind
      fun _ => .ret .done
  | create dto => CouponService.create cfg dto
  | update id dto => CouponService.update cfg id dto
  | toggleActive id => CouponService.toggleActive id
  | delete id => CouponService.delete id

def service (cfg : Config) : Service Stmt Stmt.Reply Err Key Write World Call Env Reply where
  toEngine := engine cfg
  body := Call.body cfg
  accepts _ _ := true
  evolve v w := { w with out := v.evolve w.out }

abbrev Sys := System Stmt Stmt.Reply Err Key Write World Call Reply

abbrev Act := Action Call Env

/-- Coupons without usages, before any call. -/
structure Sys.Fresh (s : Sys) : Prop where
  threads : s.threads = []
  history : s.world.history = []
  couponUsages : s.world.db.couponUsages = []
  coupons : (s.world.db.coupons.map (·.id)).Nodup
  drawn : ∀ c ∈ s.world.db.coupons, c.id < s.world.out.uuid
  unused : ∀ c ∈ s.world.db.coupons, c.usedCount = 0
  limits : ∀ c ∈ s.world.db.coupons, c.usageLimit ≠ some 0

end TurfSync.CouponAdmin
