import TurfSync.Guarantees.Quotes
import TurfSync.Protocol.Owning

/-! What a call of `create` has read when it writes. It reads the price of the turf and a
coupon outside any transaction; the booking gets the total of the quote, and the usage the
discount of the same quote. -/

namespace TurfSync

open Txn

/-- The price and the coupon that a call has read, the booking it has inserted, and whether a
transaction is open. -/
structure Sale where
  price : Option (TurfId × Option ℚ)
  coupon : Option Coupon
  booking : Option Booking
  inTx : Bool

/-- The booking is stored with the total of a quote. -/
structure Booking.Totals (b : Booking) (turfId : TurfId) (c : Coupon) (price : ℚ) : Prop where
  turfId : b.turfId = turfId
  total : b.totalAmount = decimal2 (max (price - c.discountOn price) 0)

/-- A usage may follow: of the coupon that was read, for the booking that was inserted, with
the discount on the price that was read. -/
def Sale.Uses (g : Sale) (couponId : CouponId) (bookingId : BookingId) (discount : Option ℚ) : Prop :=
  g.inTx = true ∧ ∃ turfId price c b, g.price = some (turfId, some price) ∧ g.coupon = some c ∧
    g.booking = some b ∧ couponId = c.id ∧ bookingId = b.id ∧ b.Totals turfId c price ∧
    discount = some (roundCents (c.discountOn price))

/-- With a coupon in hand, a booking gets the total of its quote. -/
def selling : Automaton Stmt Stmt.Reply Err Sale where
  init := ⟨none, none, none, false⟩
  may g
    | .stmt (.query (.turfPrice _)) => g.inTx = false
    | .stmt (.query (.couponByCode _ _)) => g.inTx = false
    | .stmt (.update (.couponUsageCreate couponId _ bookingId discount)) =>
      g.Uses couponId bookingId discount
    | _ => True
  answers
    | .stmt (.update (.bookingCreate d)), .ok b =>
      b.turfId = d.turfId ∧ ∃ amount ∈ d.totalAmount, b.totalAmount = decimal2 amount
    | _, _ => True
  next g
    | .stmt (.query (.turfPrice id)), .ok price => { g with price := some (id, price) }
    | .stmt (.query (.couponByCode _ _)), .ok row => { g with coupon := row.map Prod.fst }
    | .stmt (.update (.bookingCreate _)), .ok b => { g with booking := some b }
    | .begin, .ok _ => { g with inTx := true }
    | .commit, _ => { g with inTx := false }
    | .rollback, _ => { g with inTx := false }
    | _, _ => g

/-- A statement that reads no price and no coupon and inserts no booking and no usage. -/
def Stmt.plain : Stmt → Bool
  | .query (.turfPrice _) => false
  | .query (.couponByCode _ _) => false
  | .update (.bookingCreate _) => false
  | .update (.couponUsageCreate _ _ _ _) => false
  | _ => true

section

variable {g : Sale} {α β : Type} {Q : Sale → Except Err β → Prop}

theorem may_plain {s : Stmt} (hs : s.plain = true) : selling.may g (.stmt s) := by
  cases s with
  | query q => cases q <;> trivial
  | update u => cases u <;> trivial
  | external x => trivial
  | lock l => trivial

theorem next_plain {s : Stmt} (hs : s.plain = true) (r : Except Err s.Reply) :
    selling.next g (.stmt s) r = g := by
  cases s with
  | query q => cases q <;> first | rfl | cases hs
  | update u => cases u <;> first | rfl | cases hs
  | external x => rfl
  | lock l => rfl

theorem obeys_plain {s : Stmt} (hs : s.plain = true) {f : s.Reply → Op β}
    (hok : ∀ a, (f a).Obeys selling g Q) (herr : ∀ e, Q g (.error e)) :
    Script.Obeys selling g (Prog.bind (Script.perform s) f) Q := by
  refine Script.obeys_stmt (may_plain hs) (fun a _ => ?_) fun e => ?_
  · rw [next_plain hs]
    exact hok a
  · rw [next_plain hs]
    exact herr e

/-- The last statement of a program. -/
theorem obeys_plain_last {s : Stmt} {Q : Sale → Except Err s.Reply → Prop} (hs : s.plain = true)
    (hQ : ∀ r, Q g r) : Script.Obeys selling g (Script.perform s) Q := by
  refine ⟨may_plain hs, fun r _ => ?_⟩
  rw [next_plain hs]
  cases r <;> exact hQ _

theorem closes_sold {a : α} {P : Sale → α → Prop} (h : P { g with inTx := false } a) :
    Script.Closes selling (Script.Returns P) g (.ok a) :=
  ⟨trivial, Script.returns_ok h, fun _ => Script.returns_error⟩

theorem closes_failed {P : Sale → α → Prop} (e : Err) :
    Script.Closes selling (Script.Returns P) g (.error e) :=
  ⟨trivial, fun _ => Script.returns_error⟩

end

/-! ### The calls -/

/-- What is known with the quote: it is that of the coupon and the price that were read. -/
def Sale.Quotes (g : Sale) (turfId : TurfId) : Option ValidatedCoupon → Prop
  | none => True
  | some quote => ∃ price c, g.price = some (turfId, price) ∧ g.coupon = some c ∧ quote = c.quote price

/-- What is known after the booking. -/
def Sale.Sells (g : Sale) (turfId : TurfId) (b : Booking) : Option ValidatedCoupon → Prop
  | none => True
  | some quote => ∃ price c, g.price = some (turfId, some price) ∧ g.coupon = some c ∧
    g.booking = some b ∧ quote = c.quote (some price) ∧ b.Totals turfId c price

theorem validateAndCalculate_obeys (cfg : Config) (code : String) (userId : UserId)
    (price : Option ℚ) {g : Sale} (hg : g.inTx = false) :
    (CouponService.validateAndCalculate cfg code userId price).Obeys selling g (Script.Returns
      fun g' quote => g'.price = g.price ∧ ∃ c, g'.coupon = some c ∧ quote = c.quote price) := by
  unfold CouponService.validateAndCalculate
  refine Script.obeys_stmt hg (fun found _ => ?_) fun e => Script.returns_error
  cases found with
  | none => exact Script.returns_error
  | some row =>
    obtain ⟨coupon, couponUsages⟩ := row
    by_cases hactive : coupon.isActive = false
    · simp only [hactive, if_true]
      exact Script.returns_error
    simp only [hactive]
    refine obeys_plain rfl (fun now => ?_) fun e => Script.returns_error
    split_ifs
    · exact Script.returns_error
    · exact Script.returns_error
    · exact Script.returns_error
    · exact Script.returns_error
    · exact Script.returns_ok ⟨rfl, coupon, rfl, rfl⟩

theorem couponData_obeys (cfg : Config) (dto : CreateBookingDto) (userId : UserId) {g : Sale}
    (hg : g.inTx = false) : (BookingService.couponData cfg dto userId).Obeys selling g
      (Script.Returns fun g' quote => g'.Quotes dto.turfId quote) := by
  unfold BookingService.couponData
  split
  · exact Script.returns_ok trivial
  split_ifs
  · exact Script.returns_ok trivial
  refine Script.obeys_stmt hg (fun turfPrice _ => ?_) fun e => Script.returns_error
  refine Script.obeys_bind (Script.obeys_mono (validateAndCalculate_obeys cfg _ userId turfPrice hg)
    fun g' r hr => ?_)
  cases r with
  | error e => exact Script.returns_error
  | ok quote =>
    obtain ⟨hprice, c, hc, hquote⟩ := hr _ rfl
    exact Script.returns_ok ⟨turfPrice, c, hprice, hc, hquote⟩

theorem createTx_sells (dto : CreateBookingDto) (userId : UserId) (coupon : Option ValidatedCoupon)
    {g : Sale} (hg : g.Quotes dto.turfId coupon) :
    (BookingService.createTx dto userId coupon).Obeys selling g (Script.Closes selling
      (Script.Returns fun g' row => g'.Sells dto.turfId row.1 coupon)) := by
  refine obeys_plain rfl (fun row => ?_) closes_failed
  cases row with
  | none => exact closes_failed _
  | some row =>
    obtain ⟨slot, turf⟩ := row
    simp only
    split_ifs
    · exact closes_failed _
    · exact closes_failed _
    refine obeys_plain rfl (fun existingBooking => ?_) closes_failed
    cases existingBooking with
    | some _ => exact closes_failed _
    | none =>
      refine obeys_plain rfl (fun _ => ?_) closes_failed
      refine Script.obeys_stmt trivial (fun booking hbooking => ?_) closes_failed
      refine closes_sold ?_
      cases coupon with
      | none => trivial
      | some quote =>
        obtain ⟨price, c, hprice, hcoupon, rfl⟩ := hg
        obtain ⟨hturf, amount, hamount, htotal⟩ := hbooking
        cases price with
        | none => cases hamount
        | some price =>
          obtain rfl := Option.some.inj hamount
          exact ⟨price, c, hprice, hcoupon, rfl, rfl, hturf, htotal⟩

theorem applyCoupon_sells (userId : UserId) {g : Sale} {turfId : TurfId} {b : Booking}
    {quote : ValidatedCoupon} (hquote : g.Sells turfId b (some quote)) :
    (CouponService.applyCoupon quote.couponId userId b.id quote.discount).Obeys selling g
      (Script.Returns fun _ _ => True) := by
  obtain ⟨price, c, hprice, hcoupon, hbooking, rfl, htotals⟩ := hquote
  refine Script.obeys_transaction trivial (obeys_plain rfl (fun row => ?_) closes_failed)
    fun e => Script.returns_error
  cases row with
  | none => exact closes_failed _
  | some coupon =>
    simp only
    split_ifs
    · exact closes_failed _
    · exact closes_failed _
    refine obeys_plain rfl (fun userUsageCount => ?_) closes_failed
    split_ifs
    · exact closes_failed _
    refine Script.obeys_stmt ⟨rfl, turfId, price, c, b, hprice, hcoupon, hbooking, rfl, rfl,
      htotals, rfl⟩ (fun _ _ => ?_) closes_failed
    refine obeys_plain_last rfl fun r => ?_
    cases r with
    | ok _ => exact closes_sold trivial
    | error e => exact closes_failed e

theorem createLocked_sells (dto : CreateBookingDto) (userId : UserId)
    (coupon : Option ValidatedCoupon) {g : Sale} (hg : g.Quotes dto.turfId coupon) :
    (BookingService.createLocked dto userId coupon).Obeys selling g fun _ _ => True := by
  have hbegin : (selling.next g .begin (.ok ())).Quotes dto.turfId coupon := by
    cases coupon <;> exact hg
  refine Script.obeys_bind (Script.obeys_mono (Script.obeys_transaction trivial
    (createTx_sells dto userId coupon hbegin) fun e => Script.returns_error) fun g' r hrow => ?_)
  cases r with
  | error e => trivial
  | ok row =>
    obtain ⟨booking, slot⟩ := row
    have hsells : g'.Sells dto.turfId booking coupon := hrow _ rfl
    refine obeys_quietly (obeys_plain_last rfl fun _ => rfl) ?_
    have hqueue : ∀ job g', Script.Obeys selling g'
        ((quietly (external (.queueAdd job))).bind fun _ => .ret (.booking booking) : Op Reply)
        fun _ _ => True :=
      fun job g' => obeys_quietly (obeys_plain_last rfl fun _ => rfl) trivial
    cases coupon with
    | none => exact hqueue _ _
    | some quote =>
      refine Script.obeys_bind (Script.obeys_mono (applyCoupon_sells userId hsells)
        fun g'' r _ => ?_)
      cases r with
      | error e => trivial
      | ok _ => exact hqueue _ _

theorem create_sells (cfg : Config) (dto : CreateBookingDto) (userId : UserId) (now : Time) :
    (BookingService.create cfg dto userId now).Obeys selling selling.init fun _ _ => True := by
  unfold BookingService.create
  simp only
  split_ifs
  · trivial
  · trivial
  refine Script.obeys_bind (Script.obeys_mono (couponData_obeys cfg dto userId rfl) fun g r hr => ?_)
  cases r with
  | error e => trivial
  | ok coupon =>
    refine obeys_plain rfl (fun lockValue => ?_) fun e => trivial
    cases lockValue with
    | none => trivial
    | some value =>
      refine Script.obeys_tryFinally (Script.obeys_mono
        (createLocked_sells dto userId coupon (hr _ rfl)) fun g' r _ => ?_)
      cases r with
      | ok a => exact Script.obeys_bind (obeys_plain rfl (fun _ => trivial) fun _ => trivial)
      | error e => exact Script.obeys_bind (obeys_plain rfl (fun _ => trivial) fun _ => trivial)

/-- The other calls issue none of the four statements. -/
theorem plain_of_issues {c : Call} (hc : ∀ dto userId now, c ≠ .create dto userId now) {s : Stmt}
    (h : c.issues s = true) : s.plain = true := by
  by_contra hs
  cases c with
  | create dto userId now => exact hc dto userId now rfl
  | _ =>
    cases s with
    | query q => cases q <;> first | exact hs rfl | cases h
    | update u => cases u <;> first | exact hs rfl | cases h
    | external x => exact hs rfl
    | lock l => exact hs rfl

theorem body_sells (cfg : Config) (c : Call) :
    (c.body cfg).Obeys selling selling.init fun _ _ => True := by
  by_cases hc : ∃ dto userId now, c = .create dto userId now
  · obtain ⟨dto, userId, now, rfl⟩ := hc
    exact create_sells cfg dto userId now
  · refine Script.obeys_mono (Script.obeys_of_uses (J := fun _ => True) ?_ (c.body_stays cfg) trivial)
      fun _ _ _ => trivial
    intro g m hm _
    cases m with
    | stmt s => exact ⟨may_plain (plain_of_issues (fun d u n hd => hc ⟨d, u, n, hd⟩) hm), fun _ => trivial⟩
    | _ => exact ⟨trivial, fun _ => trivial⟩

/-! ### Replies -/

theorem selling_answers (cfg : Config) (s : Stmt) (view w : World) :
    selling.answers (.stmt s) (Stmt.act cfg s view w).reply := by
  cases s with
  | update u =>
    cases u with
    | bookingCreate d =>
      simp only [Stmt.act, Update.plan]
      split
      · trivial
      · rename_i amount hamount
        split_ifs
        · trivial
        · trivial
        · exact ⟨rfl, amount, hamount, rfl⟩
    | _ => trivial
  | _ => trivial

theorem selling_answered (cfg : Config) : selling.Answered (engine cfg) where
  exec l w m := by
    cases m with
    | stmt s => exact Engine.exec_reply (fun view => selling_answers cfg s view w) l
    | _ => trivial
  fault m := by
    cases m with
    | stmt s =>
      cases s with
      | update u => cases u <;> trivial
      | _ => trivial
    | _ => trivial

/-! ### What is written -/

/-- The register, of the turf and the amount under each id, has the booking. -/
structure Registered (register : BookingId → TurfId × ℚ) (drawn : ℕ) (b : Booking) : Prop where
  drawn : b.id < drawn
  entry : register b.id = (b.turfId, b.totalAmount)

/-- The usage has the discount on the price that was read, and the register has the rest under
its booking. -/
def Sale.Pays (register : BookingId → TurfId × ℚ) (drawn : ℕ) (g : Sale) (u : CouponUsage) : Prop :=
  u.bookingId < drawn ∧ ∃ turfId price c, g.price = some (turfId, some price) ∧ g.coupon = some c ∧
    u.couponId = c.id ∧
    register u.bookingId = (turfId, decimal2 (max (price - c.discountOn price) 0)) ∧
    u.discount = decimal2 (roundCents (c.discountOn price))

section

variable {register register' : BookingId → TurfId × ℚ} {drawn drawn' : ℕ} {g g' : Sale} {b : Booking}
  {u : CouponUsage}

theorem Registered.mono (h : Registered register drawn b) (hle : drawn ≤ drawn')
    (hkept : ∀ id < drawn, register' id = register id) : Registered register' drawn' b :=
  ⟨Nat.lt_of_lt_of_le h.drawn hle, (hkept _ h.drawn).trans h.entry⟩

theorem Sale.Pays.mono (h : g.Pays register drawn u) (hle : drawn ≤ drawn')
    (hkept : ∀ id < drawn, register' id = register id) (hprice : g'.price = g.price)
    (hcoupon : g'.coupon = g.coupon) : g'.Pays register' drawn' u := by
  obtain ⟨hlt, turfId, price, c, hp, hc, hid, hentry, hdiscount⟩ := h
  exact ⟨Nat.lt_of_lt_of_le hlt hle, turfId, price, c, hprice.trans hp, hcoupon.trans hc, hid,
    (hkept _ hlt).trans hentry, hdiscount⟩

/-- What a statement of the call, which goes on with `next`, writes. -/
structure Writes (register : BookingId → TurfId × ℚ) (drawn : ℕ) (g next : Sale) (view : Db)
    (ws : List Write) : Prop where
  booking : ∀ b, next.booking = some b → Registered register drawn b
  booked : ∀ b, .bookingInsert b ∈ ws → Registered register drawn b
  used : ∀ u, .usageInsert u ∈ ws → g.inTx = true ∧ g.Pays register drawn u ∧
    ∃ b ∈ view.bookings, b.id = u.bookingId

theorem next_inTx (g : Sale) (s : Stmt) (r : Except Err s.Reply) :
    (selling.next g (.stmt s) r).inTx = g.inTx := by
  cases r with
  | error e =>
    cases s with
    | query q => cases q <;> rfl
    | update u => cases u <;> rfl
    | external x => rfl
    | lock l => rfl
  | ok a =>
    cases s with
    | query q => cases q <;> rfl
    | update u => cases u <;> rfl
    | external x => rfl
    | lock l => rfl

/-- Inside a transaction nothing more is read. -/
theorem next_memory {s : Stmt} (hmay : selling.may g (.stmt s)) (hg : g.inTx = true)
    (r : Except Err s.Reply) : (selling.next g (.stmt s) r).price = g.price ∧
      (selling.next g (.stmt s) r).coupon = g.coupon := by
  cases s with
  | query q =>
    cases q with
    | turfPrice id =>
      have hout : g.inTx = false := hmay
      rw [hg] at hout
      cases hout
    | couponByCode code userId =>
      have hout : g.inTx = false := hmay
      rw [hg] at hout
      cases hout
    | _ => exact ⟨rfl, rfl⟩
  | update u =>
    cases u with
    | bookingCreate d => cases r <;> exact ⟨rfl, rfl⟩
    | _ => exact ⟨rfl, rfl⟩
  | external x => exact ⟨rfl, rfl⟩
  | lock l => exact ⟨rfl, rfl⟩

variable {cfg : Config} {s : Stmt} {view w : World}

theorem Writes.nothing (hbooking : ∀ b, g'.booking = some b → Registered register drawn b) (db : Db) :
    Writes register drawn g g' db [] :=
  ⟨hbooking, fun _ hb => (List.not_mem_nil hb).elim, fun _ hu => (List.not_mem_nil hu).elim⟩

theorem writes_query (q : Query) (hsold : ∀ b, g.booking = some b → Registered register drawn b) :
    Writes register drawn g (selling.next g (.stmt (.query q)) (.ok (q.eval view.db))) view.db [] := by
  refine .nothing (fun b hb => hsold b ?_) view.db
  cases q <;> exact hb

/-- The write inserts a booking or a usage. -/
def Write.Sells : Write → Prop
  | .bookingInsert _ => True
  | .usageInsert _ => True
  | _ => False

theorem not_sells_plain {v : Update} (hs : (Stmt.update v).plain = true) {db : Db} {uuid : ℕ}
    {now : Time} {x : Write} (hx : x ∈ (v.plan cfg db uuid now).writes) : ¬ x.Sells := by
  have hputs := puts_of_mem hx
  cases v with
  | bookingCreate d => cases hs
  | couponUsageCreate couponId userId bookingId discount => cases hs
  | bookingUpdateManyPending | paymentUpdateMany =>
    obtain ⟨_, rfl⟩ := hputs
    exact id
  | paymentUpsert =>
    rcases hputs with ⟨_, rfl⟩ | rfl
    · exact id
    · exact id
  | _ =>
    obtain rfl := hputs
    exact id

theorem writes_plain (hs : s.plain = true)
    (hsold : ∀ b, g.booking = some b → Registered register drawn b) :
    Writes register drawn g g view.db (Stmt.act cfg s view w).writes := by
  cases s with
  | query q => exact .nothing hsold _
  | lock l => exact .nothing hsold _
  | external x => exact .nothing hsold _
  | update v =>
    exact ⟨hsold, fun b hb => (not_sells_plain hs hb trivial).elim,
      fun u hu => (not_sells_plain hs hu trivial).elim⟩

/-- The id of a new booking is drawn, and is registered for it. -/
theorem writes_bookingCreate (d : NewBooking)
    (hsold : ∀ b, g.booking = some b → Registered register w.out.uuid b) :
    let e := Stmt.act cfg (.update (.bookingCreate d)) view w
    ∃ register', (∀ id < w.out.uuid, register' id = register id) ∧
      Writes register' e.world.out.uuid g
        (selling.next g (.stmt (.update (.bookingCreate d))) e.reply) view.db e.writes := by
  have hfail : ∀ (e : Err), ∃ register', (∀ id < w.out.uuid, register' id = register id) ∧
      Writes register' w.out.uuid g g view.db [] :=
    fun _ => ⟨register, fun _ _ => rfl, .nothing hsold _⟩
  simp only [Stmt.act, Update.plan]
  split
  · exact hfail .validation
  · rename_i amount hamount
    split_ifs
    · exact hfail .P2003
    · exact hfail .P2002
    refine ⟨Function.update register w.out.uuid (d.turfId, decimal2 amount), fun id hid =>
      Function.update_of_ne (Nat.ne_of_lt hid) _ _, ?_⟩
    have hrow : Registered (Function.update register w.out.uuid (d.turfId, decimal2 amount))
        (w.out.uuid + 1) (d.row amount w.out.uuid w.out.now) :=
      ⟨Nat.lt_succ_self _, Function.update_self _ _ _⟩
    refine ⟨fun b hb => ?_, fun b hb => ?_, fun u hu => ?_⟩
    · obtain rfl := Option.some.inj hb
      exact hrow
    · obtain rfl := Write.bookingInsert.inj (List.mem_singleton.mp hb)
      exact hrow
    · cases List.mem_singleton.mp hu

theorem writes_couponUsageCreate {couponId : CouponId} {userId : UserId} {bookingId : BookingId}
    {discount : Option ℚ} (huses : g.Uses couponId bookingId discount)
    (hsold : ∀ b, g.booking = some b → Registered register w.out.uuid b) :
    let e := Stmt.act cfg (.update (.couponUsageCreate couponId userId bookingId discount)) view w
    Writes register e.world.out.uuid g g view.db e.writes := by
  obtain ⟨hopen, turfId, price, c, b, hprice, hcoupon, hbooking, rfl, rfl, htotals, rfl⟩ := huses
  have hb := hsold b hbooking
  simp only [Stmt.act, Update.plan]
  split_ifs with hmissing hused
  · exact .nothing hsold _
  · exact .nothing hsold _
  refine ⟨fun b' hb' => (hsold b' hb').mono (Nat.le_succ _) fun _ _ => rfl,
    fun b' hb' => absurd (List.mem_singleton.mp hb') (by simp), fun u hu => ?_⟩
  obtain rfl := Write.usageInsert.inj (List.mem_singleton.mp hu)
  obtain ⟨row, hrow⟩ : ∃ row, view.db.booking? b.id = some row :=
    Option.ne_none_iff_exists'.mp fun hnone => hmissing (.inr (Option.isNone_iff_eq_none.mpr hnone))
  refine ⟨hopen, ⟨Nat.lt_succ_of_lt hb.drawn, turfId, price, c, hprice, hcoupon, rfl, ?_, rfl⟩,
    row, Db.mem_of_booking? hrow⟩
  rw [hb.entry, htotals.turfId, htotals.total]

/-- Whatever a call does next, the register grows at most. -/
theorem writes_of_may (hmay : selling.may g (.stmt s))
    (hsold : ∀ b, g.booking = some b → Registered register w.out.uuid b) :
    let e := Stmt.act cfg s view w
    ∃ register', (∀ id < w.out.uuid, register' id = register id) ∧
      Writes register' e.world.out.uuid g (selling.next g (.stmt s) e.reply) view.db e.writes := by
  obtain ⟨o, hworld, hle⟩ := act_out cfg s view w
  by_cases hs : s.plain = true
  · refine ⟨register, fun _ _ => rfl, ?_⟩
    rw [next_plain hs]
    refine writes_plain hs fun b hb => (hsold b hb).mono ?_ fun _ _ => rfl
    exact hle.trans_eq (congrArg (·.out.uuid) hworld).symm
  cases s with
  | query q =>
    cases q with
    | turfPrice id => exact ⟨register, fun _ _ => rfl, writes_query _ hsold⟩
    | couponByCode code userId => exact ⟨register, fun _ _ => rfl, writes_query _ hsold⟩
    | _ => exact absurd rfl hs
  | update v =>
    cases v with
    | bookingCreate d => exact writes_bookingCreate d hsold
    | couponUsageCreate couponId userId bookingId discount =>
      exact ⟨register, fun _ _ => rfl, writes_couponUsageCreate hmay hsold⟩
    | _ => exact absurd rfl hs
  | external x => exact absurd rfl hs
  | lock l => exact absurd rfl hs

end

end TurfSync
