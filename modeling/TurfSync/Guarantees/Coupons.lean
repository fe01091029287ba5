import TurfSync.Guarantees.Slots

/-! The limits of a coupon. `create` books at the discounted price first and counts the
use of the coupon in a second transaction; if that one fails, the discounted booking
stays and nothing counts it. As long as it does not fail, the usages account for every
discounted booking, and the lock on the coupon row keeps them within the limits. -/

namespace TurfSync

open Txn

/-- The code a call looks its coupon up by. -/
def Call.couponCode (cfg : Config) : Call → Option String
  | .create dto _ _ => (dto.couponCode.filter (· ≠ "")).map cfg.toUpperCase
  | _ => none

def Call.buyer : Call → Option UserId
  | .create _ userId _ => some userId
  | _ => none

def Write.inserted : Write → Option Booking
  | .bookingInsert b => some b
  | _ => none

theorem World.booked_iff {w : World} {n : ℕ} {id : BookingId} :
    (∃ e ∈ w.history, e.session.id = n ∧ ∃ x ∈ e.writes, ∃ b ∈ x.inserted, b.id = id) ↔
      w.Booked n id := by
  constructor
  · rintro ⟨e, he, hn, x, hx, b, hb, hid⟩
    cases x with
    | bookingInsert b' =>
      obtain rfl := Option.some.inj hb
      exact ⟨e, he, hn, b', hx, hid⟩
    | _ => cases hb
  · rintro ⟨e, he, hn, b, hb, hid⟩
    exact ⟨e, he, hn, _, hb, b, rfl, hid⟩

instance (w : World) (n : ℕ) (id : BookingId) : Decidable (w.Booked n id) :=
  decidable_of_iff _ World.booked_iff

instance (w : World) (n : ℕ) : Decidable (w.Unbooked n) :=
  inferInstanceAs (Decidable (∀ e ∈ w.history, _))

/-- The bookings that are not CANCELLED and were made, by calls that have ended, with the
code of the coupon. Their `totalAmount` is the quote of the coupon. -/
def discounted (cfg : Config) (t : Sys) (coupon : Coupon) : List Booking :=
  t.world.db.bookings.filter fun b => b.status ≠ .CANCELLED ∧ ∃ th ∈ t.threads,
    th.prog.result?.isSome ∧ th.session.call.couponCode cfg = some coupon.code ∧
      t.world.Booked th.session.id b.id

/-- The discounted bookings stay within the limits of their coupons. -/
def Capped (cfg : Config) (t : Sys) : Prop :=
  ∀ coupon ∈ t.world.db.coupons,
    (∀ n ∈ coupon.usageLimit, (discounted cfg t coupon).length ≤ n) ∧
    ∀ userId, ((discounted cfg t coupon).filter (·.userId = userId)).length ≤ coupon.userUsageLimit

/-! ### The coupon transaction goes through -/

/-- The coupon row that a statement locks. -/
def couponLock : Cmd Stmt → Option CouponId
  | .stmt (.lock (.coupon id)) => some id
  | _ => none

def inDatabase : Cmd Stmt → Bool
  | .stmt (.external _) => false
  | _ => true

/-- A coupon row that is locked does not turn the user down, and no database statement of
a call with a coupon code fails once its booking is committed. -/
def Redeem (cfg : Config) (c : Session Call) (_ : Local Key Write) (w : World) (m : Cmd Stmt) :
    Bool → Prop
  | true => inDatabase m → (c.call.couponCode cfg).isSome → w.Unbooked c.id
  | false => ∀ id ∈ couponLock m, ∀ coupon ∈ w.db.coupon? id, ∀ userId ∈ c.call.buyer,
    ¬ coupon.Rejects userId w.db

instance (cfg : Config) (c : Session Call) (l : Local Key Write) (w : World) (m : Cmd Stmt) :
    (fails : Bool) → Decidable (Redeem cfg c l w m fails)
  | true => inferInstanceAs (Decidable (_ = true → _ = true → w.Unbooked c.id))
  | false => inferInstanceAs (Decidable (∀ id ∈ couponLock m, ∀ coupon ∈ w.db.coupon? id,
      ∀ userId ∈ c.call.buyer, ¬ coupon.Rejects userId w.db))

/-! ### The usages stay within the limits -/

/-- The usages are counted, and the counts are within the limits. -/
structure Db.Counted (db : Db) : Prop where
  used : ∀ c ∈ db.coupons, (db.couponUsages.filter (·.couponId = c.id)).length ≤ c.usedCount
  limit : ∀ c ∈ db.coupons, ∀ n ∈ c.usageLimit, c.usedCount ≤ n
  positive : ∀ c ∈ db.coupons, c.usageLimit ≠ some 0
  user : ∀ c ∈ db.coupons, ∀ userId, (db.usagesOf c.id userId).length ≤ c.userUsageLimit

variable {cfg : Config} {c : Session Call} {w w' : World} {ws : List Write} {db : Db}
  {s : Sys} {as : List Act}

theorem Db.Fresh.counted (h : db.Fresh) : db.Counted where
  used c hc := by simp [h.couponUsages]
  limit c hc n hn := by
    rw [h.unused c hc]
    exact Nat.zero_le n
  positive := h.limits
  user c hc userId := by simp [Db.usagesOf, h.couponUsages]

/-- Only a coupon transaction writes coupons and their usages. -/
theorem Commits.coupons_cases (hc : Commits cfg c w ws) :
    (∃ u coupon, w.db.coupon? u.couponId = some coupon ∧ ¬ coupon.LimitReached ∧
      (w.db.usagesOf u.couponId u.userId).length < coupon.userUsageLimit ∧
      ws = [.usageInsert u, .couponIncrement u.couponId]) ∨
    ((w.db.applyAll ws).coupons = w.db.coupons ∧
      (w.db.applyAll ws).couponUsages = w.db.couponUsages) := by
  cases hc with
  | applyCoupon _ _ _ hcoupon hlimit huser => exact .inl ⟨_, _, hcoupon, hlimit, huser, rfl⟩
  | cancel | cleanup | refund =>
    right
    unfold release
    split_ifs <;> exact ⟨rfl, rfl⟩
  | succeeded =>
    right
    split_ifs <;> exact ⟨rfl, rfl⟩
  | _ => exact .inr ⟨rfl, rfl⟩

/-- One more usage counts for its own coupon and user. -/
theorem Db.usagesOf_insert (db : Db) (u : CouponUsage) (id : CouponId) (userId : UserId) :
    ((db.applyAll [.usageInsert u, .couponIncrement u.couponId]).usagesOf id userId).length =
      (db.usagesOf id userId).length + if u.couponId = id ∧ u.userId = userId then 1 else 0 := by
  unfold Db.usagesOf
  simp only [Db.applyAll, List.foldl, Db.apply, List.filter_append, List.length_append]
  by_cases h : u.couponId = id ∧ u.userId = userId
  · simp [h]
  · simp [h]

theorem Db.uses_insert (db : Db) (u : CouponUsage) (id : CouponId) :
    ((db.applyAll [.usageInsert u, .couponIncrement u.couponId]).couponUsages.filter
      (·.couponId = id)).length =
      (db.couponUsages.filter (·.couponId = id)).length + if u.couponId = id then 1 else 0 := by
  simp only [Db.applyAll, List.foldl, Db.apply, List.filter_append, List.length_append]
  by_cases h : u.couponId = id
  · simp [h]
  · simp [h]

/-- The usage of a coupon that is not exhausted. -/
theorem Db.Counted.use (h : db.Counted) (hv : db.Valid cfg) {u : CouponUsage} {coupon : Coupon}
    (hcoupon : db.coupon? u.couponId = some coupon) (hlimit : ¬ coupon.LimitReached)
    (huser : (db.usagesOf u.couponId u.userId).length < coupon.userUsageLimit) :
    (db.applyAll [.usageInsert u, .couponIncrement u.couponId]).Counted := by
  obtain ⟨hmem, hid⟩ := Db.mem_of_coupon? hcoupon
  -- a coupon afterwards is the one used or was there before
  have hrow : ∀ c' ∈ (db.applyAll [.usageInsert u, .couponIncrement u.couponId]).coupons,
      c' = { coupon with usedCount := coupon.usedCount + 1 } ∨
      (c' ∈ db.coupons ∧ u.couponId ≠ c'.id) := by
    intro c' hc'
    obtain ⟨c₀, hc₀, rfl⟩ := Rows.mem_update.mp hc'
    by_cases he : c₀.id = u.couponId
    · obtain rfl := Rows.eq_of_key hv.coupons hc₀ hmem (he.trans hid.symm)
      exact .inl (if_pos (by simp [he]))
    · rw [if_neg (by simp [he])]
      exact .inr ⟨hc₀, Ne.symm he⟩
  refine ⟨fun c' hc' => ?_, fun c' hc' n hn => ?_, fun c' hc' => ?_, fun c' hc' userId => ?_⟩
  · rw [Db.uses_insert]
    rcases hrow c' hc' with rfl | ⟨hc', he⟩
    · rw [if_pos hid.symm]
      exact Nat.succ_le_succ (h.used coupon hmem)
    · rw [if_neg he]
      exact h.used c' hc'
  · rcases hrow c' hc' with rfl | ⟨hc', he⟩
    · have hpos : n ≠ 0 := by
        rintro rfl
        exact h.positive coupon hmem hn
      by_contra hlt
      exact hlimit ⟨n, hn, hpos, Nat.le_of_lt_succ (Nat.lt_of_not_le hlt)⟩
    · exact h.limit c' hc' n hn
  · rcases hrow c' hc' with rfl | ⟨hc', he⟩
    · exact h.positive coupon hmem
    · exact h.positive c' hc'
  · rw [Db.usagesOf_insert]
    rcases hrow c' hc' with rfl | ⟨hc', he⟩
    · have hold := h.user coupon hmem userId
      show (db.usagesOf coupon.id userId).length +
        (if u.couponId = coupon.id ∧ u.userId = userId then 1 else 0) ≤ coupon.userUsageLimit
      split_ifs with hu
      · rw [hu.1, hu.2] at huser
        exact huser
      · exact hold
    · rw [if_neg (fun hu => he hu.1)]
      exact h.user c' hc' userId

theorem stable_counted : Stable cfg fun w => w.db.Counted where
  out _ _ h := h
  commit {_ w ws} hw h hc := by
    rcases hc.coupons_cases with ⟨u, coupon, hcoupon, hlimit, huser, rfl⟩ | ⟨hcoupons, husages⟩
    · exact h.use hw.valid hcoupon hlimit huser
    · have hcounted : (w.db.applyAll ws).Counted := by
        have hof : ∀ id userId, (w.db.applyAll ws).usagesOf id userId = w.db.usagesOf id userId :=
          fun id userId => congrArg (List.filter _) husages
        constructor
        · rw [hcoupons, husages]
          exact h.used
        · rw [hcoupons]
          exact h.limit
        · rw [hcoupons]
          exact h.positive
        · simp only [hcoupons, hof]
          exact h.user
      exact hcounted

/-! ### A session leaves its booking redeemed -/

/-- A usage of the coupon with this code stands for booking `id`, under the user who
booked. -/
structure World.Redeemed (w : World) (code : String) (id : BookingId) (u : CouponUsage) :
    Prop where
  mem : u ∈ w.db.couponUsages
  bookingId : u.bookingId = id
  coupon : ∃ coupon, w.db.coupon? u.couponId = some coupon ∧ coupon.code = code
  booking : ∃ b, w.db.booking? id = some b ∧ b.userId = u.userId

/-- What a session with a coupon code has booked is redeemed. -/
def Redeems (cfg : Config) (c : Session Call) (w : World) : Prop :=
  ∀ code ∈ c.call.couponCode cfg, ∀ id, w.Booked c.id id → ∃ u, w.Redeemed code id u

theorem Redeems.found {J : World → Prop} {ks : List Key} (h : Redeems cfg c w)
    (hf : Found cfg J c ks w w') : Redeems cfg c w' := by
  intro code hcode id hb
  obtain ⟨u, hmem, hid, ⟨coupon, hcoupon, hc⟩, b, hbook, huser⟩ :=
    h code hcode id (hb.of_own hf.rely)
  obtain ⟨n, hn⟩ := hf.rely.db.coupon u.couponId coupon hcoupon
  obtain ⟨b', hb', ha⟩ := hf.rely.db.booking id b hbook
  exact ⟨u, hf.rely.db.usages u hmem, hid, ⟨_, hn, hc⟩, b', hb', ha.userId.trans huser⟩

theorem couponCode_hasCode {dto : CreateBookingDto} {userId : UserId} {now : Time} {code : String}
    (h : dto.HasCode code) :
    (Call.create dto userId now).couponCode cfg = some (cfg.toUpperCase code) := by
  simp [Call.couponCode, h.1, h.2]

/-- After the coupon transaction of a session its booking is redeemed. -/
theorem redeems_result {dto : CreateBookingDto} {userId : UserId} {now : Time}
    {quote : ValidatedCoupon} {id : BookingId} {u : CouponUsage}
    (call : c.call = .create dto userId now) (hv : w.db.Valid cfg)
    (hquote : Quoted cfg dto quote w) (hsold : Sold c dto id w) (hcoupon : u.couponId = quote.couponId)
    (huser : u.userId = userId) (hid : u.bookingId = id) :
    Redeems cfg c (Commits.result c [.usageInsert u, .couponIncrement u.couponId] w) := by
  intro code hcode id' hb
  obtain ⟨code', hhas, coupon, hmem, hcid, hup⟩ := hquote.coupon
  rw [call, couponCode_hasCode hhas] at hcode
  obtain rfl := Option.some.inj hcode
  have hold : w.Booked c.id id' := by
    obtain ⟨e, he, hn, b, hb, rfl⟩ := hb
    rcases List.mem_append.mp he with he | he
    · exact ⟨e, he, hn, b, hb, rfl⟩
    · rw [List.mem_singleton.mp he] at hb
      simp at hb
  obtain rfl := hsold.only id' hold
  obtain ⟨b, hbook, dto', now', call'⟩ := hsold.buyer
  have hbuyer : b.userId = userId := by
    rw [call] at call'
    exact (Call.create.inj call').2.1.symm
  have hfound : (w.db.apply (.usageInsert u)).coupon? u.couponId = some coupon := by
    rw [hcoupon, ← hcid]
    exact hv.coupon?_of_mem hmem
  have hafter : Db.coupon? (Commits.result c [.usageInsert u, .couponIncrement u.couponId] w).db
      u.couponId = _ := Db.coupon?_increment rfl _
  rw [if_pos (by simp), hfound] at hafter
  exact ⟨u, List.mem_append_right _ (List.mem_singleton.mpr rfl), hid, ⟨_, hafter, hup⟩, b, hbook,
    hbuyer.trans huser.symm⟩

/-- A call whose coupon transaction goes through leaves its booking redeemed. -/
theorem body_redeems {n : ℕ} {call : Call} (hu : w.Unbooked n) :
    wp (engine cfg) (rules cfg (fun w => w.db.Counted) (Redeem cfg)) ⟨n, call⟩ (call.body cfg)
      (fun _ _ w => Redeems cfg ⟨n, call⟩ w) .idle w := by
  by_cases hcode : call.couponCode cfg = none
  · refine wp_mono (body_keeps stable_counted hu) fun _ _ w' _ _ code hc => ?_
    rw [show Session.call ⟨n, call⟩ = call from rfl, hcode] at hc
    cases hc
  cases call with
  | create dto userId now =>
    have hunbooked : ∀ w', w'.Unbooked n → Redeems cfg ⟨n, .create dto userId now⟩ w' := by
      rintro w' hu code - id ⟨e, he, hn, -⟩
      exact absurd hn (hu e he)
    refine create_wp stable_counted rfl (fun _ _ hf h => h.found hf) hunbooked
      (fun w' hplain => ?_) (fun quote id w' hw hj hquote hsold => ?_) hu
    · intro code hc
      exfalso
      obtain ⟨code', hdto, -⟩ := Option.map_eq_some_iff.mp hc
      obtain ⟨hdto, hne⟩ := Option.filter_eq_some_iff.mp hdto
      exact hplain code' ⟨hdto, by simpa using hne⟩
    · have hsome : ((Call.create dto userId now).couponCode cfg).isSome :=
        Option.isSome_iff_ne_none.mpr hcode
      refine applyCoupon_wp stable_counted rfl hw hquote hsold ?_ ?_ ?_
      · -- a failure after the booking is excluded
        intro l w₁ m hext hf hallow
        obtain ⟨e, he, hn, -⟩ := (hsold.found hf).booked
        have hdb : inDatabase m = true := by
          unfold inDatabase
          split
          · rename_i x
            exact absurd rfl (hext x)
          · rfl
        exact absurd hn (hallow hdb hsome e he)
      · -- and so is a coupon that turns the user down
        intro l w₁ coupon _ hallow hcoupon hrejects
        exact absurd hrejects (hallow _ rfl coupon hcoupon userId rfl)
      · intro u w₁ w₂ hf hcoupon huser hid hf'
        have hredeems := redeems_result rfl hf.valid (hquote.found hw.valid hf) (hsold.found hf)
          hcoupon huser hid
        exact ⟨rfl, hredeems.found hf'⟩
  | _ => exact absurd rfl hcode

/-! ### The limits -/

/-- A system in which no coupon transaction failed after its booking. -/
abbrev Sys.Redeemed (cfg : Config) (t : Sys) : Prop :=
  Sound (service cfg) (rules cfg (fun w => w.db.Counted) (Redeem cfg))
    (fun c _ _ w => Redeems cfg c w) t

namespace Sys.Redeemed

variable {t : Sys} {coupon : Coupon} {b : Booking}

/-- Every discounted booking has a usage of its coupon, under its user. -/
theorem usage (h : t.Redeemed cfg) (hc : coupon ∈ t.world.db.coupons)
    (hb : b ∈ discounted cfg t coupon) :
    ∃ u ∈ t.world.db.couponUsages, u.couponId = coupon.id ∧ u.userId = b.userId ∧
      u.bookingId = b.id := by
  have hv : t.world.db.Valid cfg := h.inv.1.valid
  obtain ⟨hmem, hd⟩ := List.mem_filter.mp hb
  obtain ⟨-, th, hth, hended, hcode, hbooked⟩ := of_decide_eq_true hd
  obtain ⟨i, hi⟩ := List.getElem?_of_mem hth
  obtain ⟨r, hr⟩ := Option.isSome_iff_exists.mp hended
  obtain ⟨-, hredeems⟩ := h.post (rules_lawful stable_counted) ⟨th, hi, rfl, hr⟩
  obtain ⟨u, hu, hid, ⟨coupon', hcoupon, hup⟩, b', hb', huser⟩ :=
    hredeems coupon.code hcode b.id (h.ids i th hi ▸ hbooked)
  obtain ⟨hmem', hcid⟩ := Db.mem_of_coupon? hcoupon
  obtain rfl := Rows.eq_of_key hv.codes hmem' hc hup
  obtain rfl := Option.some.inj (hb'.symm.trans (hv.booking?_of_mem hmem))
  exact ⟨u, hu, hcid.symm, huser.symm, hid⟩

theorem capped (h : t.Redeemed cfg) : Capped cfg t := by
  intro coupon hc
  have hcounted : t.world.db.Counted := h.inv.2
  have hids : ((discounted cfg t coupon).map (·.id)).Nodup :=
    h.inv.1.valid.bookings.sublist (List.filter_sublist.map _)
  constructor
  · intro n hn
    have huses : (discounted cfg t coupon).length ≤
        (t.world.db.couponUsages.filter (·.couponId = coupon.id)).length := by
      refine Rows.length_le (·.bookingId) hids fun b hb => ?_
      obtain ⟨u, hu, hcid, -, hid⟩ := h.usage hc hb
      exact ⟨u, List.mem_filter.mpr ⟨hu, decide_eq_true hcid⟩, hid⟩
    exact huses.trans ((hcounted.used coupon hc).trans (hcounted.limit coupon hc n hn))
  · intro userId
    have huses : ((discounted cfg t coupon).filter (·.userId = userId)).length ≤
        (t.world.db.usagesOf coupon.id userId).length := by
      refine Rows.length_le (·.bookingId) (hids.sublist (List.filter_sublist.map _)) fun b hb => ?_
      obtain ⟨hb, huser⟩ := List.mem_filter.mp hb
      obtain ⟨u, hu, hcid, hbuyer, hid⟩ := h.usage hc hb
      have hboth : u.couponId = coupon.id ∧ u.userId = userId :=
        ⟨hcid, hbuyer.trans (of_decide_eq_true huser)⟩
      exact ⟨u, List.mem_filter.mpr ⟨hu, decide_eq_true hboth⟩, hid⟩
    exact huses.trans (hcounted.user coupon hc userId)

end Sys.Redeemed

/-- In every run in which no coupon transaction fails after its booking, the discounted
bookings stay within the limits of their coupons. -/
theorem capped_of_redeem (hs : s.Fresh)
    (hM : (service cfg).Each (Permits (service cfg) (Redeem cfg)) s as) :
    (service cfg).Always (Capped cfg) s as := by
  have hstarts : Starts (service cfg) (rules cfg (fun w => w.db.Counted) (Redeem cfg))
      (fun c _ _ w => Redeems cfg c w) :=
    starts_of_body stable_counted fun _ _ _ _ _ hu => body_redeems hu
  have hsound := Service.always_sound (rules_lawful stable_counted) hstarts
    (hs.initial.sound hs.db.counted) hM
  exact hsound.mono fun _ h => Sys.Redeemed.capped h

/-- User 7 books slot 1 with a coupon. -/
theorem capped_one : (service (Arena.cfg true)).Always (Capped (Arena.cfg true)) Arena.sys
    (Arena.first 0 (.create (Arena.dto 1 (some "TEN")) 7 0) 25) :=
  capped_of_redeem Arena.fresh (by decide +kernel)

/-- User 8 uses up the coupon between the quote and the booking of user 7, whose call
throws, but whose booking keeps the discounted price. -/
theorem capped_fails :
    let t := (service (Arena.cfg true)).run Arena.sys
      (Arena.first 0 (.create (Arena.dto 1 (some "TEN")) 7 0) 3 ++
        Arena.first 1 (.create (Arena.dto 2 (some "TEN")) 8 0) 25 ++
          List.replicate 25 (.run 0))
    t.Ended 0 (.create (Arena.dto 1 (some "TEN")) 7 0)
        (.error (.badRequest "Coupon usage limit has been reached")) ∧
      (discounted (Arena.cfg true) t Arena.coupon).map (·.totalAmount) = [900, 900] ∧
      ¬ Capped (Arena.cfg true) t := by
  intro t
  refine ⟨by decide +kernel, by decide +kernel, fun h => ?_⟩
  have hrow := h { Arena.coupon with usedCount := 1 } (by decide +kernel)
  exact absurd (hrow.1 1 rfl) (by decide +kernel)

end TurfSync
