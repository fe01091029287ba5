import TurfSync.Services.CouponAdmin
import TurfSync.Protocol.Solo
import TurfSync.Guarantees.Charges

/-! The bounds of a coupon quote. The discount is rounded to the cent and the total is not,
while the total is kept from falling below zero and the discount is not kept from rising
above the amount; so the bounds hold as long as the discount before rounding is less than
half a cent above the amount. -/

namespace TurfSync

open Txn

/-! ### Rounding -/

theorem mathRound_le_iff {x : ℚ} {n : ℤ} : mathRound x ≤ n ↔ x < n + 1 / 2 := by
  rw [mathRound, ← Int.lt_add_one_iff, Int.floor_lt]
  push_cast
  constructor <;> intro h <;> linarith

theorem le_mathRound_iff {x : ℚ} {n : ℤ} : n ≤ mathRound x ↔ n - 1 / 2 ≤ x := by
  rw [mathRound, Int.le_floor]
  constructor <;> intro h <;> linarith

/-- `Math.round(x * 100) / 100`. -/
def roundCents (x : ℚ) : ℚ := (mathRound (x * 100) : ℚ) / 100

/-- Rounding stays below an amount in cents up to half a cent above it. -/
theorem roundCents_le_iff {x amount : ℚ} (h : InCents amount) :
    roundCents x ≤ amount ↔ x < amount + 1 / 200 := by
  have hcast : roundCents x ≤ amount ↔ mathRound (x * 100) ≤ mathRound (amount * 100) := by
    rw [← Int.cast_le (R := ℚ), h, roundCents, div_le_iff₀ (by norm_num)]
  rw [hcast, mathRound_le_iff, h]
  constructor <;> intro h <;> linarith

theorem roundCents_nonneg {x : ℚ} (h : 0 ≤ x) : 0 ≤ roundCents x := by
  have hround : (0 : ℤ) ≤ mathRound (x * 100) := le_mathRound_iff.mpr (by push_cast; linarith)
  exact div_nonneg (Int.cast_nonneg hround) (by norm_num)

theorem abs_roundCents_sub_le (x : ℚ) : |roundCents x - x| ≤ 1 / 200 := by
  have hlow : (mathRound (x * 100) : ℚ) - 1 / 2 ≤ x * 100 := le_mathRound_iff.mp le_rfl
  have hhigh : x * 100 < (mathRound (x * 100) : ℚ) + 1 / 2 := mathRound_le_iff.mp le_rfl
  have hround : roundCents x * 100 = mathRound (x * 100) := by
    rw [roundCents]
    ring
  rw [abs_le]
  constructor <;> linarith

theorem inCents_roundCents (x : ℚ) : InCents (roundCents x) := by
  rw [InCents, roundCents, div_mul_cancel₀ _ (by norm_num), mathRound_intCast]

theorem roundCents_of_inCents {amount : ℚ} (h : InCents amount) : roundCents amount = amount := by
  rw [roundCents, h]
  ring

/-- In cents, less than half a cent above is not above. -/
theorem InCents.lt_add_iff {x y : ℚ} (hx : InCents x) (hy : InCents y) :
    x < y + 1 / 200 ↔ x ≤ y := by
  rw [← roundCents_le_iff hy, roundCents_of_inCents hx]

theorem decimal2_nonneg {x : ℚ} (h : 0 ≤ x) : 0 ≤ decimal2 x := by
  have hfloor : 0 ≤ ⌊x * 100 + 1 / 2⌋ := Int.floor_nonneg.mpr (by linarith)
  rw [decimal2, if_pos h]
  exact div_nonneg (Int.cast_nonneg hfloor) (by norm_num)

namespace Coupon

/-! ### Coupons -/

/-- The amounts of a coupon are in cents and none is negative. -/
structure Priced (c : Coupon) : Prop where
  value : 0 ≤ c.discountValue
  valueCents : InCents c.discountValue
  max : 0 ≤ c.maxDiscountAmount
  maxCents : InCents c.maxDiscountAmount

instance : DecidablePred Priced := fun c =>
  decidable_of_iff (0 ≤ c.discountValue ∧ InCents c.discountValue ∧ 0 ≤ c.maxDiscountAmount ∧
    InCents c.maxDiscountAmount)
    ⟨fun ⟨h, h', h'', h'''⟩ => ⟨h, h', h'', h'''⟩, fun h => ⟨h.1, h.2, h.3, h.4⟩⟩

variable {c : Coupon} {amount : ℚ}

theorem discountOn_nonneg (h : c.Priced) (hamount : 0 ≤ amount) : 0 ≤ c.discountOn amount := by
  have hvalue := h.value
  unfold discountOn
  split
  · have hdiscount : 0 ≤ amount * c.discountValue / 100 := by positivity
    dsimp only
    split_ifs with hmax
    · exact le_min hdiscount hmax.le
    · exact hdiscount
  · exact le_min hvalue hamount

/-- A fixed discount, a cap of at most the amount, or a percentage that exceeds the amount
by less than half a cent. -/
def Moderate (c : Coupon) (amount : ℚ) : Prop :=
  c.discountType = .FIXED ∨ 0 < c.maxDiscountAmount ∧ c.maxDiscountAmount ≤ amount ∨
    amount * (c.discountValue - 100) < 1 / 2

instance (c : Coupon) (amount : ℚ) : Decidable (c.Moderate amount) :=
  inferInstanceAs (Decidable (_ ∨ _ ∧ _ ∨ _))

theorem discountOn_lt_iff (h : c.Priced) (hamount : InCents amount) :
    c.discountOn amount < amount + 1 / 200 ↔ c.Moderate amount := by
  have hpercent : amount * c.discountValue / 100 < amount + 1 / 200 ↔
      amount * (c.discountValue - 100) < 1 / 2 := by
    constructor <;> intro hlt <;> linarith
  unfold discountOn Moderate
  cases htype : c.discountType with
  | FIXED =>
    have hle : min c.discountValue amount ≤ amount := min_le_right _ _
    simp only [true_or, iff_true]
    linarith
  | PERCENTAGE =>
    simp only [reduceCtorEq, false_or]
    split_ifs with hmax
    · rw [min_lt_iff, hpercent, InCents.lt_add_iff h.maxCents hamount]
      simp only [hmax, true_and, or_comm]
    · simp only [hmax, false_and, false_or]
      exact hpercent

/-! ### Quotes -/

/-- A discount and a total for an amount are within bounds. -/
structure InBounds (c : Coupon) (amount discount total : ℚ) : Prop where
  nonneg : 0 ≤ discount
  le : discount ≤ amount
  capped : c.discountType = .PERCENTAGE → 0 < c.maxDiscountAmount →
    discount ≤ c.maxDiscountAmount
  totalNonneg : 0 ≤ total
  totalLe : total ≤ amount
  near : |total - (amount - discount)| ≤ 1 / 200

theorem discountOn_capped (htype : c.discountType = .PERCENTAGE) (hmax : 0 < c.maxDiscountAmount) :
    c.discountOn amount ≤ c.maxDiscountAmount := by
  simp only [discountOn, htype, hmax, if_true]
  exact min_le_right _ _

/-- The total is near the difference: it is the unrounded one, or the discount is the
whole amount. -/
theorem near_of_lt (hamount : InCents amount) (hlt : c.discountOn amount < amount + 1 / 200) :
    |max (amount - c.discountOn amount) 0 - (amount - roundCents (c.discountOn amount))| ≤
      1 / 200 := by
  by_cases hle : c.discountOn amount ≤ amount
  · rw [max_eq_left (by linarith)]
    have hnear := abs_roundCents_sub_le (c.discountOn amount)
    rwa [show amount - c.discountOn amount - (amount - roundCents (c.discountOn amount)) =
      roundCents (c.discountOn amount) - c.discountOn amount by ring]
  · have hround : roundCents (c.discountOn amount) = amount := by
      refine le_antisymm ((roundCents_le_iff hamount).mpr hlt) ?_
      have hnear := abs_roundCents_sub_le (c.discountOn amount)
      by_contra hbelow
      have hgap := mt (InCents.lt_add_iff hamount (inCents_roundCents _)).mp hbelow
      rw [abs_le] at hnear
      linarith [hnear.1]
    rw [hround, max_eq_right (by linarith)]
    norm_num

theorem inBounds_quote_iff (h : c.Priced) (hamount : 0 ≤ amount) (hcents : InCents amount) :
    c.InBounds amount (roundCents (c.discountOn amount)) (max (amount - c.discountOn amount) 0) ↔
      c.Moderate amount := by
  rw [← discountOn_lt_iff h hcents]
  have hnonneg := discountOn_nonneg h hamount
  constructor
  · intro hbounds
    exact (roundCents_le_iff hcents).mp hbounds.le
  · intro hlt
    refine ⟨roundCents_nonneg hnonneg, (roundCents_le_iff hcents).mpr hlt, fun htype hmax => ?_,
      le_max_right _ _, max_le (by linarith) hamount, near_of_lt hcents hlt⟩
    rw [roundCents_le_iff h.maxCents]
    linarith [@discountOn_capped c amount htype hmax]

theorem priced_row {dto : CouponAdmin.CreateCouponDto} {id : CouponId}
    (hvalue : 0 ≤ dto.discountValue) (hmax : 0 ≤ dto.maxDiscountAmount)
    (hrow : dto.row id = some c) : c.Priced := by
  obtain ⟨limit, -, hrow⟩ := Option.bind_eq_some_iff.mp hrow
  obtain ⟨active, -, hrow⟩ := Option.bind_eq_some_iff.mp hrow
  obtain rfl := Option.some.inj hrow
  exact ⟨decimal2_nonneg hvalue, inCents_decimal2 _, decimal2_nonneg hmax, inCents_decimal2 _⟩

/-- An update that sets no negative amount. -/
theorem Priced.set (h : c.Priced) {ch : CouponAdmin.CouponChange}
    (hvalue : ∀ x ∈ ch.discountValue, 0 ≤ x) (hmax : ∀ x ∈ ch.maxDiscountAmount, 0 ≤ x) :
    (ch.set c).Priced := by
  have hfield : ∀ (o : Option ℚ) (old : ℚ), (∀ x ∈ o, 0 ≤ x) → 0 ≤ old → InCents old →
      0 ≤ (o.map decimal2).getD old ∧ InCents ((o.map decimal2).getD old) := by
    intro o old ho hold hcents
    cases o with
    | none => exact ⟨hold, hcents⟩
    | some x => exact ⟨decimal2_nonneg (ho x rfl), inCents_decimal2 x⟩
  obtain ⟨hv, hvc⟩ := hfield _ _ hvalue h.value h.valueCents
  obtain ⟨hm, hmc⟩ := hfield _ _ hmax h.max h.maxCents
  exact ⟨hv, hvc, hm, hmc⟩

end Coupon

/-- The amounts of a quote are within the bounds. -/
def ValidatedCoupon.InBounds (q : ValidatedCoupon) (c : Coupon) : Prop :=
  ∃ amount discount total, q.originalAmount = some amount ∧ q.discount = some discount ∧
    q.finalAmount = some total ∧ c.InBounds amount discount total

theorem Coupon.quote_inBounds {c : Coupon} {amount : ℚ} :
    (c.quote (some amount)).InBounds c ↔
      c.InBounds amount (roundCents (c.discountOn amount)) (max (amount - c.discountOn amount) 0) := by
  constructor
  · rintro ⟨a, discount, total, ha, hd, ht, hbounds⟩
    obtain rfl := Option.some.inj ha
    obtain rfl := Option.some.inj hd
    obtain rfl := Option.some.inj ht
    exact hbounds
  · exact fun hbounds => ⟨_, _, _, rfl, rfl, rfl, hbounds⟩

namespace CouponService

variable {cfg : Config} {s : Session Call} {w : World} {code : String} {userId : UserId}
  {q : ValidatedCoupon}

/-- An accepted coupon is one of the table, and its quote is returned. -/
theorem quote_of_accepted {amount : Option ℚ}
    (h : ((engine cfg).solo s (validateAndCalculate cfg code userId amount) .idle w).1 = .ok q) :
    ∃ c, w.db.couponByCode? (cfg.toUpperCase code) = some c ∧ q = c.quote amount := by
  unfold validateAndCalculate at h
  simp only [Prog.bind_eq, Engine.solo_bind, solo_query (.couponByCode _ _), Query.eval,
    Engine.andThen_ok] at h
  cases hfound : w.db.couponByCode? (cfg.toUpperCase code) with
  | none => simp [hfound] at h
  | some c =>
    refine ⟨c, rfl, ?_⟩
    simp only [hfound, Option.map_some] at h
    split at h
    · cases h
    · simp only [Engine.solo_bind, solo_external .dateNow, External.eval, Engine.andThen_ok] at h
      split_ifs at h <;> cases h
      rfl

/-- A quote is within its bounds exactly where the discount is moderate. -/
theorem quotes_bounded_iff {amount : ℚ} (hpriced : ∀ c ∈ w.db.coupons, c.Priced)
    (hamount : 0 ≤ amount) (hcents : InCents amount)
    (h : ((engine cfg).solo s (validateAndCalculate cfg code userId (some amount)) .idle w).1 =
      .ok q) :
    ∃ c ∈ w.db.coupons, c.id = q.couponId ∧ (q.InBounds c ↔ c.Moderate amount) := by
  obtain ⟨c, hc, rfl⟩ := quote_of_accepted h
  have hmem : c ∈ w.db.coupons := List.mem_of_find?_eq_some hc
  refine ⟨c, hmem, rfl, ?_⟩
  rw [Coupon.quote_inBounds, Coupon.inBounds_quote_iff (hpriced c hmem) hamount hcents]

/-- Ten per cent of 1000. -/
theorem quotes_bounded_ten :
    ∃ c ∈ Arena.db.coupons, c.id = 1 ∧
      ((Arena.coupon.quote (some 1000)).InBounds c ↔ c.Moderate 1000) :=
  @quotes_bounded_iff (Arena.cfg true) ⟨0, .cancel 1 7⟩ Arena.sys.world "TEN" 7
    (Arena.coupon.quote (some 1000)) 1000 (by decide +kernel) (by decide) (by decide +kernel)
    (by decide +kernel)

/-- With a percentage of 150, the discount on 1000 is 1500. -/
theorem quotes_above_amount :
    let coupon := { Arena.coupon with discountValue := 150 }
    let w : World := { Arena.sys.world with db := { Arena.db with coupons := [coupon] } }
    let q : ValidatedCoupon := ⟨1, "TEN", some 1000, some 1500, some 0⟩
    coupon.Priced ∧
      ((engine (Arena.cfg true)).solo ⟨0, .cancel 1 7⟩
        (validateAndCalculate (Arena.cfg true) "TEN" 7 (some 1000)) .idle w).1 = .ok q ∧
      ¬ q.InBounds coupon := by
  intro coupon w q
  refine ⟨by decide +kernel, by decide +kernel, ?_⟩
  rintro ⟨amount, discount, total, hamount, hdiscount, -, hbounds⟩
  obtain rfl := Option.some.inj hamount
  obtain rfl := Option.some.inj hdiscount
  exact absurd hbounds.le (by decide)

end CouponService

end TurfSync
