import TurfSync.Guarantees.Slots
import TurfSync.Protocol.CouponAdmin

/-! The uses of a coupon, while admins create, change, toggle and delete coupons. An
admin reads first and writes later, but the write sets single columns, none of them
`usedCount`, and the deletion of a coupon with usages is refused by the database. -/

namespace TurfSync.CouponAdmin

open Txn Journal

/-- Each coupon counts its usages, and a use that failed has changed nothing. -/
structure Accounted (t : Sys) : Prop where
  counted : ∀ c ∈ t.world.db.coupons, c.usedCount = (usesOf t.world.db c.id).length
  throws : ∀ i couponId userId bookingId discount e,
    t.Ended i (.applyCoupon couponId userId bookingId discount) (.error e) →
      own i t.world.history = []

/-- The limits of a coupon, as they are now, hold for the coupon and for one user. -/
def Within (db : Db) (couponId : CouponId) (userId : UserId) : Prop :=
  ∃ coupon, db.coupon? couponId = some coupon ∧ (∀ n ∈ coupon.usageLimit, coupon.usedCount ≤ n) ∧
    (db.usagesOf couponId userId).length ≤ coupon.userUsageLimit

/-- A use that commits leaves the limits kept, and a coupon with usages stays. -/
structure Uses (cfg : Config) (s : Sys) (a : Act) : Prop where
  within : ∀ cm ∈ (service cfg).committed s a, ∀ couponId userId bookingId discount,
    cm.session.call = .applyCoupon couponId userId bookingId discount →
      Within ((service cfg).step s a).world.db couponId userId
  stays : ∀ c ∈ s.world.db.coupons, usesOf s.world.db c.id ≠ [] →
    ∃ c' ∈ ((service cfg).step s a).world.db.coupons, c'.id = c.id

variable {cfg : Config} {db : Db} {call : Call} {ws : List Write}

/-- A use within the limits leaves them kept. -/
theorem Commits.within {couponId : CouponId} {userId : UserId} {bookingId : BookingId}
    {discount : Option ℚ} (hc : Commits db (.applyCoupon couponId userId bookingId discount) ws)
    (h : Counted db) : Within (ws.foldl apply db) couponId userId := by
  cases hc with
  | @applied u coupon _ hcoupon hlimit huser =>
    have hrow : Db.coupon? ([Write.base (.usageInsert u),
        .base (.couponIncrement u.couponId)].foldl apply db) u.couponId =
        some { coupon with usedCount := coupon.usedCount + 1 } := by
      rw [Db.coupon?_increment (show _ = Db.incrementCoupon u.couponId db.coupons from rfl),
        if_pos (by simp), hcoupon]
      rfl
    refine ⟨_, hrow, fun n hn => ?_, ?_⟩
    · have hpos : n ≠ 0 := by
        rintro rfl
        exact h.positive coupon (Db.mem_of_coupon? hcoupon).1 hn
      by_contra hlt
      exact hlimit ⟨n, hn, hpos, Nat.le_of_lt_succ (Nat.lt_of_not_le hlt)⟩
    · rw [usagesOf_eq, usesOf_use, if_pos rfl, List.filter_append, List.length_append,
        ← usagesOf_eq]
      have hone : ([u].filter (·.userId = u.userId)).length = 1 := by simp
      rw [hone]
      exact huser
  | altered hcall => exact absurd rfl (hcall _ _ _ _)

/-- Only a coupon without usages is deleted. -/
theorem Commits.stays (hc : Commits db call ws) {c : Coupon} (hmem : c ∈ db.coupons)
    (huses : usesOf db c.id ≠ []) : ∃ c' ∈ (ws.foldl apply db).coupons, c'.id = c.id := by
  -- an update of rows keeps their ids
  have hupdate : ∀ id (f : Coupon → Coupon), (∀ x, (f x).id = x.id) →
      ∃ c' ∈ Rows.update (·.id) [id] f db.coupons, c'.id = c.id := by
    intro id f hf
    refine ⟨_, Rows.mem_update.mpr ⟨c, hmem, rfl⟩, ?_⟩
    split_ifs
    · exact hf c
    · rfl
  cases hc with
  | applied => exact hupdate _ _ fun _ => rfl
  | altered _ hx =>
    cases hx with
    | insert => exact ⟨c, List.mem_append_left _ hmem, rfl⟩
    | set => exact hupdate _ _ fun _ => rfl
    | @delete id hunused =>
      have hne : c.id ≠ id := by
        rintro rfl
        exact huses hunused
      exact ⟨c, List.mem_filter.mpr ⟨hmem, by simpa using hne⟩, rfl⟩

/-! ### Runs -/

/-- A system whose calls keep to the rules of the coupons. -/
abbrev Sys.Sound (cfg : Config) (s : Sys) : Prop := Txn.Sound (service cfg) rules Settled s

variable {s : Sys} {as : List Act}

theorem Sys.Fresh.counted (h : s.Fresh) : Counted s.world.db where
  ids := h.coupons
  count c hc := by simp [h.unused c hc, usesOf, h.couponUsages]
  positive := h.limits
  coupon u hu := by simp [h.couponUsages] at hu

theorem Sys.Fresh.sound (h : s.Fresh) : s.Sound cfg where
  inv := ⟨h.counted, h.drawn⟩
  starts n _ := by simp [rules, h.history]
  ids i t ht := by simp [h.threads] at ht
  excl i t ht := by simp [h.threads] at ht
  wps i t ht := by simp [h.threads] at ht

theorem Sys.Sound.balances (h : s.Sound cfg) : Accounted s where
  counted := h.inv.counted.count
  throws i couponId userId bookingId discount e he := by
    obtain ⟨l, hl⟩ := h.post lawful he
    exact hl

theorem Sys.Sound.uses (h : s.Sound cfg) (a : Act) : Uses cfg s a := by
  rcases (service cfg).step_frame World.db (fun st v w => (act_rest st v w).1) (fun _ _ => rfl) s a
    with ⟨hnone, hdb⟩ | ⟨cm, hc, hdb, hw⟩
  · refine ⟨fun cm hcm => ?_, fun c hc _ => ⟨c, hdb ▸ hc, rfl⟩⟩
    rw [hnone] at hcm
    cases hcm
  · obtain ⟨hinv, -, ⟨held, hcommits, -⟩, -⟩ := h.commit_post lawful (permits_any s a) hc
    have hafter : ((service cfg).step s a).world.db = cm.writes.foldl apply cm.base.db := by
      rw [hw]
      rfl
    refine ⟨fun cm' hcm' couponId userId bookingId discount hcall => ?_, fun c hmem huses => ?_⟩
    · rw [hc] at hcm'
      obtain rfl := Option.some.inj hcm'
      rw [hafter]
      exact (hcall ▸ hcommits).within hinv.counted
    · rw [hafter]
      rw [← hdb] at hmem huses
      exact hcommits.stays hmem huses

/-- Along every run that starts without usages, the uses of coupons are counted, failed
ones change nothing, the limits are kept, and coupons in use stay. -/
theorem accounted (hs : s.Fresh) :
    (service cfg).Always Accounted s as ∧ (service cfg).Each (Uses cfg) s as := by
  have hsound : (service cfg).Always (Sys.Sound cfg) s as :=
    Service.always_sound lawful starts hs.sound (Service.each_of_forall permits_any s as)
  exact ⟨hsound.mono fun _ h => h.balances, hsound.each fun _ a h => h.uses a⟩

namespace Shop

/-- Two bookings for which one use of the coupon is left. -/
def sys : Sys where
  world := {
    db := { Arena.db with bookings := [booking 1 7, booking 2 8] }
    out := Arena.sys.world.out
    history := [] }
  threads := []
where
  booking (id : BookingId) (userId : UserId) : Booking :=
    ⟨id, userId, 1, id, 900, .PENDING, none, 0⟩

def use (bookingId : BookingId) (userId : UserId) : Call :=
  .applyCoupon Arena.coupon.id userId bookingId (some 100)

/-- Call `i` is made and executes its first `n` statements. -/
def first (i : ℕ) (c : Call) (n : ℕ) : List Act := .spawn c :: List.replicate n (.run i)

theorem fresh : sys.Fresh where
  threads := rfl
  history := rfl
  couponUsages := rfl
  coupons := by decide
  drawn := by decide
  unused := by decide
  limits := by decide

end Shop

/-- An admin reads the coupon before its last use and cannot delete it afterwards; the
second user is turned down. -/
theorem accounted_shop :
    let as := Shop.first 0 (.delete 1) 1 ++ Shop.first 1 (Shop.use 1 7) 3 ++
      Shop.first 2 (Shop.use 2 8) 2 ++ List.replicate 3 (.run 1) ++
      List.replicate 3 (.run 2) ++ [.run 0]
    let t := (service (Arena.cfg true)).run Shop.sys as
    t.Ended 0 (.delete 1) (.error .P2003) ∧ t.Ended 1 (Shop.use 1 7) (.ok .done) ∧
      t.Ended 2 (Shop.use 2 8) (.error (.badRequest "Coupon usage limit has been reached")) ∧
      (service (Arena.cfg true)).Always Accounted Shop.sys as ∧
      (service (Arena.cfg true)).Each (Uses (Arena.cfg true)) Shop.sys as :=
  ⟨by decide +kernel, by decide +kernel, by decide +kernel, accounted Shop.fresh⟩

end TurfSync.CouponAdmin
