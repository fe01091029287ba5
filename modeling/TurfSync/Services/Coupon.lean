import TurfSync.Store.World

/-! `CouponService.validateAndCalculate` and `applyCoupon`. Amounts are exact
rationals; an amount of `none` is `NaN`, which no comparison rejects. -/

namespace TurfSync

open Txn

/-- The quote `validateAndCalculate` returns. -/
structure ValidatedCoupon where
  couponId : CouponId
  code : String
  originalAmount : Option ℚ
  discount : Option ℚ
  finalAmount : Option ℚ
  deriving DecidableEq, Repr

namespace Coupon

/-- `coupon.usageLimit && coupon.usedCount >= coupon.usageLimit`: a limit of zero
does not count as one. -/
def LimitReached (c : Coupon) : Prop := ∃ n ∈ c.usageLimit, n ≠ 0 ∧ n ≤ c.usedCount

instance (c : Coupon) : Decidable c.LimitReached :=
  inferInstanceAs (Decidable (∃ n ∈ c.usageLimit, n ≠ 0 ∧ n ≤ c.usedCount))

/-- The unrounded discount on an amount. -/
def discountOn (c : Coupon) (amount : ℚ) : ℚ :=
  match c.discountType with
  | .PERCENTAGE =>
    let discount := amount * c.discountValue / 100
    if 0 < c.maxDiscountAmount then min discount c.maxDiscountAmount else discount
  | .FIXED => min c.discountValue amount

/-- The quote for an amount. -/
def quote (c : Coupon) (amount : Option ℚ) : ValidatedCoupon where
  couponId := c.id
  code := c.code
  originalAmount := amount
  discount := amount.map fun a => (mathRound (c.discountOn a * 100) : ℚ) / 100
  finalAmount := amount.map fun a => max (a - c.discountOn a) 0

/-- `minOrder > 0 && bookingAmount < minOrder`. -/
def BelowMinimum (c : Coupon) (amount : Option ℚ) : Prop :=
  0 < c.minOrderAmount ∧ ∃ a ∈ amount, a < c.minOrderAmount

instance (c : Coupon) (amount : Option ℚ) : Decidable (c.BelowMinimum amount) :=
  inferInstanceAs (Decidable (_ ∧ ∃ a ∈ amount, a < c.minOrderAmount))

end Coupon

namespace CouponService

def validateAndCalculate (cfg : Config) (code : String) (userId : UserId)
    (bookingAmount : Option ℚ) : Op ValidatedCoupon := do
  let found ← query (.couponByCode (cfg.toUpperCase code) userId)
  match found with
  | none => .throw (.badRequest "Coupon is invalid or expired")
  | some (coupon, couponUsages) =>
    if coupon.isActive = false then .throw (.badRequest "Coupon is invalid or expired")
    else do
      let now : Time ← external .dateNow
      if now < coupon.validFrom ∨ coupon.validUntil < now then
        .throw (.badRequest "Coupon has expired")
      else if coupon.LimitReached then
        .throw (.badRequest "Coupon usage limit has been reached")
      else if coupon.userUsageLimit ≤ couponUsages.length then
        .throw (.badRequest "You have already used this coupon")
      else if coupon.BelowMinimum bookingAmount then
        .throw (.badRequest ("A minimum booking amount of " ++
          decimalToString coupon.minOrderAmount ++ " is required to use this coupon"))
      else pure (coupon.quote bookingAmount)

/-- The body of the transaction of `applyCoupon`. -/
def applyCouponTx (couponId : CouponId) (userId : UserId) (bookingId : BookingId)
    (discount : Option ℚ) : Op Unit := do
  -- lock the coupon row, so that the limits are checked and used up under one lock
  let row ← lockRow (.coupon couponId)
  match row with
  | none => .throw (.notFound "Coupon not found")
  | some coupon =>
    if coupon.isActive = false then .throw (.badRequest "Coupon is inactive")
    else if coupon.LimitReached then .throw (.badRequest "Coupon usage limit has been reached")
    else do
      let userUsageCount : ℕ ← query (.couponUsageCount couponId userId)
      if coupon.userUsageLimit ≤ userUsageCount then
        .throw (.badRequest "You have already used this coupon")
      else do
        let _ ← update (.couponUsageCreate couponId userId bookingId discount)
        update (.couponIncrement couponId)

def applyCoupon (couponId : CouponId) (userId : UserId) (bookingId : BookingId)
    (discount : Option ℚ) : Op Unit :=
  .transaction (applyCouponTx couponId userId bookingId discount)

end CouponService

end TurfSync
