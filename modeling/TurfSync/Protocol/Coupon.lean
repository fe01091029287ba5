import TurfSync.Protocol.Create

/-! `applyCoupon` keeps to the protocol. After the booking of a call with a coupon code
it can only fail if a statement is struck by a failure, or if the coupon row, when it
is locked, is inactive or used up. -/

namespace TurfSync

open Txn

variable {cfg : Config} {J : World → Prop}
  {allow : Session Call → Local Key Write → World → Cmd Stmt → Bool → Prop} {c : Session Call}
  {w : World}

/-- Why `applyCoupon` turns a user down. -/
def Coupon.Rejects (coupon : Coupon) (userId : UserId) (db : Db) : Prop :=
  coupon.isActive = false ∨ coupon.LimitReached ∨
    coupon.userUsageLimit ≤ (db.usagesOf coupon.id userId).length

instance (coupon : Coupon) (userId : UserId) (db : Db) : Decidable (coupon.Rejects userId db) :=
  inferInstanceAs (Decidable (_ ∨ _ ∨ _))

/-- The usages of a locked coupon stay. -/
theorem Found.usagesOf {ks : List Key} {w' : World} (h : Found cfg J c ks w w') {id : CouponId}
    (hk : .coupon id ∈ ks) (userId : UserId) :
    w'.db.usagesOf id userId = w.db.usagesOf id userId := by
  have hsplit : ∀ db : Db, db.usagesOf id userId =
      (db.couponUsages.filter (·.couponId = id)).filter (·.userId = userId) := by
    intro db
    rw [List.filter_filter]
    unfold Db.usagesOf
    congr 1
    funext u
    simp [Bool.and_comm]
  rw [hsplit, hsplit, h.rely.db.usageLock id hk]

/-- The booking of a session that has one. -/
theorem World.Booked.mem {n : ℕ} {id : BookingId} (h : w.Booked n id) (hw : w.WellFormed cfg) :
    ∃ b ∈ w.db.bookings, b.id = id := by
  obtain ⟨e, he, -, b, hb, rfl⟩ := h
  obtain ⟨b', hb', ha⟩ := hw.recorded e he b hb
  exact ⟨b', hb', ha.id_eq⟩

theorem plan_couponUsageCreate {db : Db} {uuid : ℕ} {now : Time} {couponId : CouponId}
    {userId : UserId} {id : BookingId} {discount : Option ℚ} {amount : ℚ} {coupon : Coupon}
    {b : Booking} (hd : discount = some amount) (hc : db.coupon? couponId = some coupon)
    (hb : db.booking? id = some b) (hu : ∀ u ∈ db.couponUsages, u.bookingId ≠ id) :
    (Update.couponUsageCreate couponId userId id discount).plan cfg db uuid now =
      ⟨.ok (), [.usageBooking id],
        [.usageInsert ⟨uuid, couponId, userId, id, decimal2 amount⟩], 1⟩ := by
  have hnone : ¬ ∃ u ∈ db.couponUsages, u.bookingId = id := by
    rintro ⟨u, hm, he⟩
    exact hu u hm he
  subst hd
  simp only [Update.plan, hc, hb, Option.isNone_some, Bool.false_eq_true, or_self, if_false,
    if_neg hnone]

theorem applyCoupon_wp (hJ : Stable cfg J) {dto : CreateBookingDto} {userId : UserId} {now : Time}
    {quote : ValidatedCoupon} {id : BookingId} {Q : Post Err Key Write World Unit}
    (call : c.call = .create dto userId now) (hw : w.WellFormed cfg)
    (hquote : Quoted cfg dto quote w) (hsold : Sold c dto id w)
    (hfault : ∀ l w' m, (∀ x, m ≠ .stmt (.external x)) → Found cfg J c [] w w' →
      allow c l w' m true → ∀ e w'', Q (.error e) .idle w'')
    (hreject : ∀ l w' coupon, Found cfg J c [] w w' →
      allow c l w' (.stmt (.lock (.coupon quote.couponId))) false →
      w'.db.coupon? quote.couponId = some coupon → coupon.Rejects userId w'.db →
      ∀ e w'', Q (.error e) .idle w'')
    (hok : ∀ u w₁ w', Found cfg J c [] w w₁ → u.couponId = quote.couponId → u.userId = userId →
      u.bookingId = id →
      Found cfg J c [] (Commits.result c [.usageInsert u, .couponIncrement u.couponId] w₁) w' →
      Q (.ok ()) .idle w') :
    wp (engine cfg) (rules cfg J allow) c
      (CouponService.applyCoupon quote.couponId userId id quote.discount) Q .idle w := by
  unfold CouponService.applyCoupon
  refine wp_tx (fun w₀ h₀ => ?_) fun w' h ha w'' _ _ => hfault _ _ _ (by simp) h ha _ _
  unfold CouponService.applyCouponTx
  simp only [Prog.bind_eq]
  refine wp_lock_tx (fun w₁ h₁ hallow => ?_) fun w' h ha => wp_throw_tx fun w'' _ =>
    hfault _ _ _ (by simp) (h₀.trans h) ha _ _
  have h₁ := h₀.trans h₁
  obtain ⟨code, -, coupon₀, hmem, hid, -⟩ := (hquote.found hw.valid h₁).coupon
  obtain ⟨coupon, hc⟩ : ∃ coupon, w₁.db.coupon? quote.couponId = some coupon :=
    ⟨coupon₀, hid ▸ h₁.valid.coupon?_of_mem hmem⟩
  have hcid : coupon.id = quote.couponId := (Db.mem_of_coupon? hc).2
  have hthrow : coupon.Rejects userId w₁.db → ∀ (e : Err) ws ks w',
      wp (engine cfg) (rules cfg J allow) c (.throw e : Op Unit)
        (TxPost (engine cfg) (rules cfg J allow) c Q) ⟨some ws, ks⟩ w' := fun hr e _ _ _ =>
    wp_throw_tx fun w'' _ => hreject _ _ coupon h₁ hallow hc hr e w''
  simp only [RowLock.eval, Db.applyAll_nil, hc]
  split_ifs with hactive hlimit
  · exact hthrow (.inl hactive) _ _ _ _
  · exact hthrow (.inr (.inl hlimit)) _ _ _ _
  refine wp_query_tx (fun w₂ h₂ => ?_) fun w' h ha => wp_throw_tx fun w'' _ =>
    hfault _ _ _ (by simp) (h₁.trans h.forget) ha _ _
  have husages : w₂.db.usagesOf quote.couponId userId = w₁.db.usagesOf quote.couponId userId :=
    h₂.usagesOf (by simp) userId
  simp only [Query.eval, Db.applyAll_nil, husages]
  split_ifs with huser
  · exact hthrow (.inr (.inr (hcid ▸ huser))) _ _ _ _
  obtain ⟨amount, hamount⟩ := Option.isSome_iff_exists.mp (hquote.discount hsold.turf)
  refine wp_update_tx (fun w₃ h₃ => ?_) fun w' h ha => wp_throw_tx fun w'' _ =>
    hfault _ _ _ (by simp) (h₁.trans (h₂.trans h).forget) ha _ _
  have h₃ := h₂.trans h₃
  have hc₃ : w₃.db.coupon? quote.couponId = some coupon :=
    (h₃.rely.db.couponLock _ (by simp)).trans hc
  have hsold₃ := hsold.found (h₁.trans h₃.forget)
  obtain ⟨b, hb, rfl⟩ := hsold₃.booked.mem h₃.wellFormed
  rw [Db.applyAll_nil, plan_couponUsageCreate hamount hc₃ (h₃.valid.booking?_of_mem hb)
    hsold₃.unused]
  generalize hu : (⟨w₃.out.uuid, quote.couponId, userId, b.id, decimal2 amount⟩ : CouponUsage) = u
  have hu' : u.couponId = quote.couponId ∧ u.userId = userId ∧ u.bookingId = b.id := by
    subst hu
    exact ⟨rfl, rfl, rfl⟩
  clear hu
  obtain ⟨hucoupon, huuser, hubooking⟩ := hu'
  have htook : Found cfg J c [.coupon quote.couponId] w₁ (w₃.took 1) :=
    h₃.out hJ (Nat.le_succ _)
  simp only [resume_ok, List.nil_append]
  rw [← Prog.bind_ret (update _)]
  refine wp_update_tx (fun w₄ h₄ => ?_) fun w' h ha => wp_throw_tx (Q := Q) fun w'' _ =>
    hfault _ _ _ (by simp) (h₁.trans (htook.trans (h.weaken (by simp))).forget) ha _ _
  have h₄' : Found cfg J c [.coupon quote.couponId] w₁ w₄ := htook.trans (h₄.weaken (by simp))
  have hc₄ : (w₄.db.applyAll [.usageInsert u]).coupon? quote.couponId = some coupon :=
    (h₄'.rely.db.couponLock _ (by simp)).trans hc
  simp only [Update.plan, hc₄]
  refine wp_ret_tx (Q := Q) (fun w₅ h₅ => ⟨⟨?_, ?_⟩, fun w' h' => ?_⟩)
    fun w₅ w' h₅ ha _ => ?_
  · have h₅' : Found cfg J c [.coupon quote.couponId] w₁ w₅ := h₄'.trans (h₅.weaken (by simp))
    have hsold₅ := hsold.found (h₁.trans h₅'.forget)
    rw [← hucoupon]
    refine .applyCoupon call huuser (hubooking ▸ hsold₅.booked)
      (hucoupon ▸ (h₅'.rely.db.couponLock _ (by simp)).trans hc) hlimit ?_
      ⟨hubooking ▸ hsold₅.unused, hubooking ▸ hsold₅.booked.mem h₅.wellFormed⟩
    rw [hucoupon, huuser, h₅'.usagesOf (by simp)]
    exact Nat.lt_of_not_le huser
  · simp [Write.keys, hucoupon, hubooking]
  · have h₅' : Found cfg J c [.coupon quote.couponId] w₁ w₅ := h₄'.trans (h₅.weaken (by simp))
    rw [← hucoupon] at h'
    exact hok u w₅ w' (h₁.trans h₅'.forget) hucoupon huuser hubooking h'
  · exact hfault _ w₅ .commit (by simp) (h₁.trans (h₄'.trans (h₅.weaken (by simp))).forget) ha _ _

end TurfSync
