import TurfSync.Protocol.Booking

/-! `create` keeps to the protocol, with a postcondition `Good` on its outcome and the
world it leaves: what has to be shown of the coupon transaction that follows the booking
is a hypothesis, so that the same walk through `create` serves with and without
assumptions on that transaction. -/

namespace TurfSync

open Txn

variable {cfg : Config} {J : World → Prop}
  {allow : Session Call → Local Key Write → World → Cmd Stmt → Bool → Prop} {c : Session Call}
  {w : World}

/-- Session `n` has committed nothing yet. -/
def World.Unbooked (w : World) (n : ℕ) : Prop := ∀ e ∈ w.history, e.session.id ≠ n

theorem Found.unbooked {ks : List Key} {w' : World} (h : Found cfg J c ks w w')
    (hu : w.Unbooked c.id) : w'.Unbooked c.id :=
  fun e he hid => hu e (h.rely.own e he hid) hid

/-- A coupon that was there still is, with another count. -/
theorem Found.coupon {ks : List Key} {w' : World} (h : Found cfg J c ks w w')
    (hv : w.db.Valid cfg) {coupon : Coupon} (hc : coupon ∈ w.db.coupons) :
    ∃ n, { coupon with usedCount := n } ∈ w'.db.coupons := by
  obtain ⟨n, hn⟩ := h.rely.db.coupon coupon.id coupon (hv.coupon?_of_mem hc)
  exact ⟨n, (Db.mem_of_coupon? hn).1⟩

/-- A call of `create` that carries a coupon code. -/
def CreateBookingDto.HasCode (dto : CreateBookingDto) (code : String) : Prop :=
  dto.couponCode = some code ∧ code ≠ ""

/-- A quote belongs to the coupon of the call's code, and has an amount when the turf
exists. -/
structure Quoted (cfg : Config) (dto : CreateBookingDto) (quote : ValidatedCoupon)
    (w : World) : Prop where
  coupon : ∃ code, dto.HasCode code ∧
    ∃ coupon ∈ w.db.coupons, coupon.id = quote.couponId ∧ coupon.code = cfg.toUpperCase code
  discount : (w.db.turf? dto.turfId).isSome → quote.discount.isSome

theorem Quoted.found {dto : CreateBookingDto} {quote : ValidatedCoupon} {ks : List Key}
    {w' : World} (h : Quoted cfg dto quote w) (hv : w.db.Valid cfg)
    (hf : Found cfg J c ks w w') : Quoted cfg dto quote w' where
  coupon := by
    obtain ⟨code, hcode, coupon, hc, hid, hup⟩ := h.coupon
    obtain ⟨n, hn⟩ := hf.coupon hv hc
    exact ⟨code, hcode, _, hn, hid, hup⟩
  discount ht := h.discount (by rwa [Db.turf?, ← hf.rely.db.turfs])

/-- What `couponData` answers: nothing when the call carries no code. -/
def QuoteOf (cfg : Config) (dto : CreateBookingDto) : Option ValidatedCoupon → World → Prop
  | none, _ => ∀ code, ¬ dto.HasCode code
  | some quote, w => Quoted cfg dto quote w

theorem QuoteOf.found {dto : CreateBookingDto} {coupon : Option ValidatedCoupon} {ks : List Key}
    {w' : World} (h : QuoteOf cfg dto coupon w) (hv : w.db.Valid cfg)
    (hf : Found cfg J c ks w w') : QuoteOf cfg dto coupon w' := by
  cases coupon with
  | none => exact h
  | some quote => exact Quoted.found h hv hf

/-- What `create` knows once its booking is committed: it is the only one of the
session, is the caller's, and has no coupon usage yet. -/
structure Sold (c : Session Call) (dto : CreateBookingDto) (id : BookingId) (w : World) :
    Prop where
  booked : w.Booked c.id id
  only : ∀ id', w.Booked c.id id' → id' = id
  buyer : ∃ b, w.db.booking? id = some b ∧ ∃ dto now, c.call = .create dto b.userId now
  unused : ∀ u ∈ w.db.couponUsages, u.bookingId ≠ id
  turf : (w.db.turf? dto.turfId).isSome

theorem Sold.found {dto : CreateBookingDto} {id : BookingId} {ks : List Key}
    {w' : World} (h : Sold c dto id w) (hf : Found cfg J c ks w w') :
    Sold c dto id w' where
  booked := by
    obtain ⟨e, he, hn, hb⟩ := h.booked
    exact ⟨e, hf.rely.history e he, hn, hb⟩
  only id' hb := h.only id' (hb.of_own hf.rely)
  buyer := by
    obtain ⟨b, hb, dto', now, call⟩ := h.buyer
    obtain ⟨b', hb', ha⟩ := hf.rely.db.booking id b hb
    exact ⟨b', hb', dto', now, ha.userId.symm ▸ call⟩
  unused u hu he := by
    obtain ⟨e, hm, hn, hb⟩ := h.booked
    have hbook : w'.Booked c.id u.bookingId := ⟨e, hf.rely.history e hm, hn, he ▸ hb⟩
    exact h.unused u (hf.rely.usages u hu hbook) he
  turf := by
    rw [Db.turf?, hf.rely.db.turfs]
    exact h.turf

/-- The commit of the booking. -/
theorem sold_result {dto : CreateBookingDto} {b : Booking} {w' : World}
    (hv : w.db.Valid cfg) (hu : w.Unbooked c.id) (ht : (w.db.turf? dto.turfId).isSome)
    (hc : Commits cfg c w [.slotSet [b.slotId] true, .bookingInsert b])
    (hf : Found cfg J c []
      (Commits.result c [.slotSet [b.slotId] true, .bookingInsert b] w) w') :
    Sold c dto b.id w' := by
  have hsold : Sold c dto b.id
      (Commits.result c [.slotSet [b.slotId] true, .bookingInsert b] w) := by
    have hinserted : Db.booking? (Commits.result c [.slotSet [b.slotId] true, .bookingInsert b] w).db
        b.id = (w.db.booking? b.id).or (if b.id = b.id then some b else none) :=
      Db.booking?_insert rfl _
    have hnew : w.db.booking? b.id = none :=
      Rows.lookup_none.mpr (hc.insert_booking (by simp)).2.2
    refine ⟨⟨_, List.mem_append_right _ (List.mem_singleton.mpr rfl), rfl, b,
      List.mem_cons_of_mem _ (List.mem_singleton.mpr rfl), rfl⟩, ?_,
      ⟨b, by rw [hinserted, hnew]; simp, hc.insert_booking_call (by simp)⟩, fun u hm he => ?_, ht⟩
    · rintro id' ⟨e, he, hid, b', hb', rfl⟩
      rcases List.mem_append.mp he with he | he
      · exact absurd hid (hu e he)
      · rw [List.mem_singleton.mp he] at hb'
        simp only [List.mem_cons, reduceCtorEq, Write.bookingInsert.injEq, List.not_mem_nil,
          or_false, false_or] at hb'
        rw [hb']
    · obtain ⟨b', hb', hid⟩ := hv.usageBooking u hm
      exact (hc.insert_booking (by simp)).2.2 b' hb' (hid.trans he)
  exact hsold.found hf

/-! ### The quote -/

theorem validateAndCalculate_wp {code : String} {userId : UserId}
    {amount : Option ℚ} :
    wp (engine cfg) (rules cfg J allow) c
      (CouponService.validateAndCalculate cfg code userId amount)
      (fun r l w' => l = .idle ∧ Found cfg J c [] w w' ∧ ∀ quote, r = .ok quote →
        (∃ coupon ∈ w'.db.coupons, coupon.id = quote.couponId ∧
          coupon.code = cfg.toUpperCase code) ∧
        (amount.isSome → quote.discount.isSome)) .idle w := by
  have hthrow : ∀ e w', Found cfg J c [] w w' → wp (engine cfg) (rules cfg J allow) c
      (.throw e : Op ValidatedCoupon) (fun r l w' => l = .idle ∧ Found cfg J c [] w w' ∧
        ∀ quote, r = .ok quote → (∃ coupon ∈ w'.db.coupons, coupon.id = quote.couponId ∧
          coupon.code = cfg.toUpperCase code) ∧
        (amount.isSome → quote.discount.isSome)) .idle w' :=
    fun e w' h w'' hr hi => ⟨rfl, h.trans ⟨hr, hi.1, hi.2⟩, fun _ he => by cases he⟩
  unfold CouponService.validateAndCalculate
  simp only [Prog.bind_eq, Prog.pure_eq]
  refine wp_query (fun w₁ h₁ => ?_) fun w' h _ => hthrow _ w' h
  cases hfound : (Query.couponByCode (cfg.toUpperCase code) userId).eval w₁.db with
  | none => exact hthrow _ w₁ h₁
  | some row =>
    obtain ⟨coupon, usages⟩ := row
    obtain ⟨hc, hup⟩ : coupon ∈ w₁.db.coupons ∧ coupon.code = cfg.toUpperCase code := by
      simp only [Query.eval, Option.map_eq_some_iff, Prod.mk.injEq] at hfound
      obtain ⟨c', hc', rfl, -⟩ := hfound
      exact Rows.lookup_some hc'
    by_cases hactive : coupon.isActive = false
    · simp only [hactive, if_true]
      exact hthrow _ w₁ h₁
    simp only [hactive]
    refine wp_external (fun w₂ h₂ => ?_) fun w' h _ => hthrow _ w' (h₁.trans h)
    simp only [External.eval, resume_ok]
    have h₂' := h₁.trans h₂
    split_ifs
    · exact hthrow _ w₂ h₂'
    · exact hthrow _ w₂ h₂'
    · exact hthrow _ w₂ h₂'
    · exact hthrow _ w₂ h₂'
    · intro w₃ hr hi
      have h₃ : Found cfg J c [] w₁ w₃ := h₂.trans ⟨hr, hi.1, hi.2⟩
      obtain ⟨n, hn⟩ := h₃.coupon h₁.valid hc
      refine ⟨rfl, h₁.trans h₃, fun quote hq => ?_⟩
      obtain rfl := Except.ok.inj hq
      exact ⟨⟨_, hn, rfl, hup⟩, fun ha => by simpa [Coupon.quote] using ha⟩

/-- The quote is taken from the coupon row that the call's code names. -/
theorem couponData_wp (hJ : Stable cfg J) {dto : CreateBookingDto} {userId : UserId} :
    wp (engine cfg) (rules cfg J allow) c (BookingService.couponData cfg dto userId)
      (fun r l w' => l = .idle ∧ Found cfg J c [] w w' ∧
        ∀ coupon, r = .ok coupon → QuoteOf cfg dto coupon w') .idle w := by
  unfold BookingService.couponData
  simp only [Prog.bind_eq, Prog.pure_eq]
  split
  · rename_i hnone
    intro w' hr hi
    refine ⟨rfl, ⟨hr, hi.1, hi.2⟩, fun coupon he => ?_⟩
    obtain rfl := Except.ok.inj he
    exact fun code h => by simp [h.1] at hnone
  rename_i code hcode
  split_ifs with hempty
  · intro w' hr hi
    refine ⟨rfl, ⟨hr, hi.1, hi.2⟩, fun coupon he => ?_⟩
    obtain rfl := Except.ok.inj he
    intro code' h
    exact h.2 ((Option.some.inj (h.1.symm.trans hcode)).trans hempty)
  refine wp_query (fun w₁ h₁ => ?_) fun w' h _ w'' hr hi =>
    ⟨rfl, h.trans ⟨hr, hi.1, hi.2⟩, fun _ he => by cases he⟩
  refine wp_bind (rules_lawful hJ) (wp_mono validateAndCalculate_wp ?_)
  rintro (e | quote) l w₂ hi ⟨rfl, h₂, hq⟩
  · exact ⟨rfl, h₁.trans h₂, fun _ he => by cases he⟩
  intro w₃ hr hi'
  have h₃ : Found cfg J c [] w₂ w₃ := ⟨hr, hi'.1, hi'.2⟩
  obtain ⟨hcoupon, hdiscount⟩ := hq quote rfl
  refine ⟨rfl, (h₁.trans h₂).trans h₃, fun coupon he => ?_⟩
  obtain rfl := Except.ok.inj he
  refine Quoted.found ⟨⟨code, ⟨hcode, hempty⟩, hcoupon⟩, fun ht => ?_⟩ hi.1.valid h₃
  refine hdiscount ?_
  rw [Db.turf?, h₂.rely.db.turfs] at ht
  simpa [Query.eval, Db.turf?] using ht

/-! ### The call -/

section

variable {dto : CreateBookingDto} {userId : UserId} {now : Time}

section

-- nobody spoils a good world, an error of an unbooked session and the success of a call
-- without a code leave one, and the coupon transaction after the booking does
variable {Good : Except Err Reply → World → Prop} (hJ : Stable cfg J)
  (call : c.call = .create dto userId now)
  (hstable : ∀ r w w', Found cfg J c [] w w' → Good r w → Good r w')
  (hunbooked : ∀ e w, w.Unbooked c.id → Good (.error e) w)
  (hplain : ∀ reply w, (∀ code, ¬ dto.HasCode code) → Good (.ok reply) w)
  (hcoupon : ∀ quote id w, w.WellFormed cfg → J w → Quoted cfg dto quote w → Sold c dto id w →
    wp (engine cfg) (rules cfg J allow) c
      (CouponService.applyCoupon quote.couponId userId id quote.discount)
      (fun r l w => l = .idle ∧ ∀ reply, Good (r.map fun _ => reply) w) .idle w)
include hJ call hstable hunbooked hplain hcoupon

/-- What `create` does under the Redis lock. -/
theorem createLocked_post {coupon : Option ValidatedCoupon} (hv : w.db.Valid cfg)
    (hu : w.Unbooked c.id) (hquote : QuoteOf cfg dto coupon w) :
    wp (engine cfg) (rules cfg J allow) c (BookingService.createLocked dto userId coupon)
      (fun r l w => l = .idle ∧ Good r w) .idle w := by
  have hP : (rules cfg J allow).Lawful (engine cfg) := rules_lawful hJ
  unfold BookingService.createLocked
  simp only [Prog.bind_eq, Prog.pure_eq]
  refine wp_bind hP (BookingService.createTx_wp hJ call ?_ ?_)
  · intro b slot w₁ w₂ h₁ ht hc h₂
    have hsold := sold_result h₁.valid (h₁.unbooked hu) ht hc h₂
    refine wp_delByPattern hJ fun w₃ h₃ => ?_
    have hsold₃ := hsold.found h₃
    -- the last two steps only put a job on the queue
    have hrest : ∀ w', (∀ reply, Good (.ok reply) w') → wp (engine cfg) (rules cfg J allow) c
        ((quietly (external (.queueAdd (.bookingConfirmed b.id dto.date slot.startTime userId
          dto.turfId)))).bind fun _ => .ret (Reply.booking b))
        (fun r l w => l = .idle ∧ Good r w) .idle w' := fun w' hgood =>
      wp_quietly hJ (external_found hJ) fun w'' h w₃ hr hi =>
        ⟨rfl, hstable _ _ _ (h.trans ⟨hr, hi.1, hi.2⟩) (hgood _)⟩
    cases coupon with
    | none => exact hrest w₃ fun reply => hplain reply w₃ hquote
    | some quote =>
      -- the booking changes neither turfs nor coupons
      have hquote₁ := Quoted.found hquote hv h₁
      have hquote₂ : Quoted cfg dto quote
          (Commits.result c [.slotSet [b.slotId] true, .bookingInsert b] w₁) :=
        ⟨hquote₁.coupon, hquote₁.discount⟩
      have hquote₃ := (hquote₂.found (hc.wellFormed h₁.wellFormed).valid h₂).found h₂.valid h₃
      refine wp_bind hP (wp_mono (hcoupon quote b.id w₃ h₃.wellFormed h₃.extra hquote₃ hsold₃) ?_)
      rintro (e | _) l w₄ hi₄ ⟨rfl, hgood⟩
      · exact ⟨rfl, hgood (.booking b)⟩
      · exact hrest w₄ hgood
  · intro e w' h
    exact ⟨rfl, hunbooked e _ (h.unbooked hu)⟩

/-- `create` leaves a good world behind its outcome, if the release of the Redis lock does. -/
theorem create_post
    (hrelease : ∀ r w value, Good r w →
      allow c .idle w (.stmt (.external (.releaseLock dto.slotId value))) true →
      Good (.error .infrastructure) w)
    (hu : w.Unbooked c.id) :
    wp (engine cfg) (rules cfg J allow) c (BookingService.create cfg dto userId now)
      (fun r _ w => Good r w) .idle w := by
  have hP : (rules cfg J allow).Lawful (engine cfg) := rules_lawful hJ
  have hthrow : ∀ (e : Err) w', w'.Unbooked c.id → wp (engine cfg) (rules cfg J allow) c
      (.throw e : Op Reply) (fun r _ w => Good r w) .idle w' :=
    fun e w' h w'' hr hi => hunbooked e _ (Found.unbooked ⟨hr, hi.1, hi.2⟩ h)
  unfold BookingService.create
  simp only [Prog.bind_eq]
  split_ifs
  · exact hthrow _ w hu
  · exact hthrow _ w hu
  refine wp_bind hP (wp_mono (couponData_wp hJ) ?_)
  rintro (e | coupon) l w₁ hi₁ ⟨rfl, h₁, hquote⟩
  · exact hunbooked e _ (h₁.unbooked hu)
  have hu₁ := h₁.unbooked hu
  refine wp_external (fun w₂ h₂ => ?_) fun w' h _ => hthrow _ w' (h.unbooked hu₁)
  have h₃ := h₂.out hJ ((External.acquireLock dto.slotId).uuid_le w₂.out)
  have hv₃ := h₃.valid
  have hu₃ := h₃.unbooked hu₁
  have hquote₃ := (hquote coupon rfl).found hi₁.1.valid h₃
  obtain ⟨lock, hlock⟩ := External.acquireLock_ok w₂.out dto.slotId
  rw [hlock, resume_ok]
  cases lock with
  | none => exact hthrow _ _ hu₃
  | some value =>
    refine wp_tryFinally hP (wp_mono
      (createLocked_post hJ call hstable hunbooked hplain hcoupon hv₃ hu₃ hquote₃) ?_)
    rintro r l w₄ hi₄ ⟨rfl, hgood⟩
    refine wp_external (fun w₅ h₅ => ?_) fun w₅ h₅ ha w' hr hi => ?_
    · have hout := h₅.out hJ ((External.releaseLock dto.slotId value).uuid_le w₅.out)
      obtain ⟨released, hreleased⟩ := External.releaseLock_ok w₅.out dto.slotId value
      rw [hreleased, resume_ok]
      exact fun w' hr hi => hstable _ _ _ (hout.trans ⟨hr, hi.1, hi.2⟩) hgood
    · have hfailed := hrelease r w₅ value (hstable _ _ _ h₅ hgood) ha
      exact hstable _ _ _ ⟨hr, hi.1, hi.2⟩ hfailed

end

/-- `create` leaves a good world, if an unbooked session and a call without a code do,
nobody spoils it, and the coupon transaction after the booking sees to it. -/
theorem create_wp {Good : World → Prop} (hJ : Stable cfg J)
    (call : c.call = .create dto userId now)
    (hstable : ∀ w w', Found cfg J c [] w w' → Good w → Good w')
    (hunbooked : ∀ w, w.Unbooked c.id → Good w)
    (hplain : ∀ w, (∀ code, ¬ dto.HasCode code) → Good w)
    (hcoupon : ∀ quote id w, w.WellFormed cfg → J w → Quoted cfg dto quote w → Sold c dto id w →
      wp (engine cfg) (rules cfg J allow) c
        (CouponService.applyCoupon quote.couponId userId id quote.discount)
        (fun _ l w => l = .idle ∧ Good w) .idle w)
    (hu : w.Unbooked c.id) :
    wp (engine cfg) (rules cfg J allow) c (BookingService.create cfg dto userId now)
      (fun _ _ w => Good w) .idle w := by
  refine create_post hJ call (fun _ => hstable) (fun _ => hunbooked) (fun _ => hplain)
    (fun quote id w hw hj hquote hsold => ?_) (fun _ _ _ hgood _ => hgood) hu
  exact wp_mono (hcoupon quote id w hw hj hquote hsold) fun r l w' _ h => ⟨h.1, fun _ => h.2⟩

end

end TurfSync
