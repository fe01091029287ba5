import TurfSync.Guarantees.Charges
import TurfSync.Guarantees.Deliveries

/-! Whether a PENDING booking can still be paid. Its owner asks for a payment intent and
Stripe reports that the payment has succeeded; then the booking is CONFIRMED and its payment
PAID, but for a booking that costs nothing. A coupon can make it so, and Stripe does not take
a request for nothing. -/

namespace TurfSync

open Txn

/-- The owner of `b` asks for an intent, and event `id` is delivered. -/
def settle (cfg : Config) (t : Sys) (b : Booking) (id : EventId) : Sys :=
  (service cfg).serve ((service cfg).serve t (.createPaymentIntent b.id b.userId))
    (.handleWebhook (some id))

/-- The booking is CONFIRMED, and its payment PAID. -/
def Db.Secured (db : Db) (id : BookingId) : Prop :=
  db.bookingStatus id = some .CONFIRMED ∧ ∃ p ∈ db.payments, p.bookingId = id ∧ p.status = .PAID

instance (db : Db) (id : BookingId) : Decidable (db.Secured id) :=
  inferInstanceAs (Decidable (_ ∧ ∃ p ∈ db.payments, _))

/-- The booking is as it was, and there is a payment to be made. -/
structure Payable (cfg : Config) (b : Booking) (db db' : Db) : Prop where
  valid : db'.Valid cfg
  booking : db'.booking? b.id = some b
  events : db'.webhookEvents = db.webhookEvents
  payment : ∃ p ∈ db'.payments, p.bookingId = b.id ∧ p.status = .INITIATED

namespace PaymentService

variable {cfg : Config} {c : Session Call} {w : World} {b : Booking} {d : BookingDetail}
  {id : EventId}

/-! ### The intent -/

/-- What `payment.upsert` leaves, for a booking that is there. -/
theorem solo_paymentUpsert_payable (hw : w.WellFormed cfg) (hb : w.db.booking? b.id = some b)
    (amount : ℚ) (currency : String) : ∃ p w',
    (engine cfg).solo c (update (.paymentUpsert b.id amount currency ⟨b.id⟩ ⟨⟨b.id⟩⟩)) .idle w =
      (.ok p, .idle, w') ∧ Payable cfg b w.db w'.db := by
  have hv := hw.valid
  rw [solo_update rfl]
  simp only [Update.plan, if_neg (hv.intent_own b.id)]
  cases hpay : w.db.paymentOf? b.id with
  | some p =>
    obtain ⟨hp, hid⟩ := Db.mem_of_paymentOf? hpay
    have hfits : (Write.paymentSet [p.id] (.initiated ⟨b.id⟩ ⟨⟨b.id⟩⟩)).Fits cfg w.db := by
      intro p' hp' hm
      obtain rfl := Rows.eq_of_key hv.payments hp' hp (List.mem_singleton.mp hm)
      exact (hid ▸ hv.intents p' hp').symm
    refine ⟨_, _, rfl, hfits.valid hv, hb, rfl, _, Rows.mem_update.mpr ⟨p, hp, rfl⟩, ?_⟩
    rw [if_pos (List.mem_singleton.mpr rfl)]
    exact ⟨hid, rfl⟩
  | none =>
    have hfits : (Write.paymentInsert (newPayment w.out.uuid b.id amount currency ⟨b.id⟩ ⟨⟨b.id⟩⟩)).Fits
        cfg w.db := by
      refine ⟨fun p hp => ⟨Nat.ne_of_lt (hw.paymentIds p hp), Rows.lookup_none.mp hpay p hp⟩, ?_, rfl⟩
      exact ⟨b, Db.mem_of_booking? hb⟩
    simp only [hb, Option.isNone_some, Bool.false_eq_true, if_false]
    refine ⟨_, _, rfl, hfits.valid hv, hb, rfl, _, List.mem_append_right _ (List.mem_singleton.mpr rfl), ?_⟩
    exact ⟨rfl, rfl⟩

/-- The owner's call, when the payment is not PAID and there is something to pay. -/
theorem solo_createPaymentIntent_payable (hw : w.WellFormed cfg)
    (hd : w.db.bookingDetail? b.id = some d) (hb : w.db.booking? b.id = some b) (hdb : d.booking = b)
    (hpay : d.payment = w.db.paymentOf? b.id) (hunpaid : d.payment.map (·.status) ≠ some .PAID)
    (htaken : w.out.Takes (intentRequest cfg d)) : ∃ r w',
    (engine cfg).solo c (createPaymentIntent cfg b.id b.userId) .idle w = (r, .idle, w') ∧
      Payable cfg b w.db w'.db := by
  subst hdb
  have hread : (Query.bookingDetail d.booking.id).eval w.db = some d := hd
  unfold createPaymentIntent
  simp only [Prog.bind_eq, Prog.pure_eq, Engine.solo_bind, solo_query (.bookingDetail _), hread,
    Engine.andThen_ok, ne_eq, not_true_eq_false, if_false, if_neg hunpaid]
  cases hsecret : d.payment.bind Payment.openSecret with
  | some x =>
    refine ⟨_, _, rfl, hw.valid, hb, rfl, ?_⟩
    obtain ⟨p, hp, hopen⟩ := Option.bind_eq_some_iff.mp hsecret
    obtain ⟨hm, hid⟩ := Db.mem_of_paymentOf? (hpay ▸ hp)
    refine ⟨p, hm, hid, ?_⟩
    by_contra hstatus
    rw [Payment.openSecret, if_neg hstatus] at hopen
    cases hopen
  | none =>
    have hreply : ((External.createIntent (intentRequest cfg d)).eval w.out).1 = .ok ⟨d.booking.id⟩ :=
      if_pos htaken
    obtain ⟨p, w', hupsert, hpayable⟩ := @solo_paymentUpsert_payable cfg c
      { w with out := ((External.createIntent (intentRequest cfg d)).eval w.out).2 } d.booking
      { hw with } hb d.booking.totalAmount cfg.currency
    rw [intentRequest] at hreply hupsert
    simp only [Engine.solo_bind, solo_external (.createIntent _), hreply, Engine.andThen_ok, hupsert]
    exact ⟨_, _, rfl, hpayable⟩

/-- A request that Stripe does not take leaves the database as it is. -/
theorem Asked.db {r : Except Err Reply × Local Key Write × World} (h : Asked cfg d w r)
    (hrejected : ¬ w.out.Takes (intentRequest cfg d)) : r.2.2.db = w.db := by
  cases h with
  | created _ _ taken => exact absurd taken hrejected
  | _ => rfl

/-! ### The event -/

/-- A success event of an intent that is not stored. -/
theorem solo_handleWebhook_unknown (htype : (cfg.event id).type = .succeeded)
    (hp : ∀ p ∈ w.db.payments, p.stripePaymentIntentId ≠ (cfg.event id).intent) :
    (engine cfg).solo c (handleWebhook cfg (some id)) .idle w = (.ok .success, .idle, w) := by
  have hread : (Query.paymentByIntent (cfg.event id).intent).eval w.db = none := by
    simp only [Query.eval, Db.paymentByIntent?, Rows.lookup_none.mpr hp]
    rfl
  unfold handleWebhook handleEvent handlePaymentSuccess
  simp only [htype, Prog.bind_eq, Prog.pure_eq, Engine.solo_bind, Engine.solo_tryCatch,
    solo_query (.paymentByIntent _), hread, Engine.andThen_ok, Engine.solo_ret]

/-- A new success event settles a PENDING booking with an open payment. -/
theorem Delivered.secured {p : Payment} {db db' : Db} (h : Delivered cfg id p db db')
    (htype : (cfg.event id).type = .succeeded) (hnew : id ∉ db.webhookEvents)
    (hp : p ∈ db.payments) (hunpaid : p.status ≠ .PAID) (hb : db.booking? p.bookingId = some b)
    (hpending : b.status = .PENDING) : db'.Secured p.bookingId := by
  cases h with
  | ignored why =>
    rcases why with hid | ⟨-, hpaid⟩ | hother
    · exact absurd hid hnew
    · exact absurd hpaid hunpaid
    · rw [htype] at hother
      cases hother
  | failed type => rw [htype] at type; cases type
  | processing type => rw [htype] at type; cases type
  | @succeeded b' charge time _ _ _ hb' =>
    obtain rfl := Option.some.inj (hb.symm.trans hb')
    rw [if_pos hpending]
    constructor
    · have hset : (db.applyAll [.eventInsert id, .paymentSet [p.id] (.paid charge time),
          .bookingSet [p.bookingId] .CONFIRMED]).bookings =
          Db.setBookings [p.bookingId] .CONFIRMED db.bookings := rfl
      rw [Db.bookingStatus, Db.booking?_set hset, if_pos (List.mem_singleton.mpr rfl), hb]
      rfl
    · refine ⟨_, Rows.mem_update.mpr ⟨p, hp, rfl⟩, ?_⟩
      rw [if_pos (List.mem_singleton.mpr rfl)]
      exact ⟨rfl, rfl⟩

end PaymentService

/-! ### The guarantee -/

section

variable {cfg : Config} {s t : Sys} {as : List Act} {b : Booking} {d : BookingDetail} {id : EventId}

theorem InCents.pos_iff {amount : ℚ} (h : InCents amount) :
    0 < mathRound (amount * 100) ↔ 0 < amount := by
  rw [← Int.cast_pos (R := ℚ), h]
  constructor
  · intro hpos
    linarith
  · intro hpos
    linarith

/-- Stripe takes the request if there is something to pay. -/
theorem Charging.takes_iff {g : ℕ → Stage} (h : Charging cfg g t.world.db t.world.out.intentRequests)
    (hd : t.world.db.bookingDetail? b.id = some d) (hdb : d.booking = b)
    (hb : b ∈ t.world.db.bookings) :
    t.world.out.Takes (intentRequest cfg d) ↔ 0 < b.totalAmount := by
  have hamount : (intentRequest cfg d).amount = mathRound (b.totalAmount * 100) := by rw [← hdb]; rfl
  have hpos : 0 < (intentRequest cfg d).amount ↔ 0 < b.totalAmount := by
    rw [hamount]
    exact (h.charged.cents b hb).pos_iff
  refine ⟨fun htaken => hpos.mp htaken.1, fun hb => ⟨hpos.mpr hb, fun r hr hid => ?_⟩⟩
  obtain ⟨⟨hasks, -⟩, hnames⟩ : t.world.db.Bills cfg d ∧ t.world.db.Names (intentRequest cfg d) :=
    Db.bills_of_detail hd
  exact (h.charged.requests r hr).eq hasks (h.named.requests r hr) hnames hid

section

variable (hbook : t.world.db.booking? b.id = some b) (hd : t.world.db.bookingDetail? b.id = some d)
  (hdb : d.booking = b) (htype : (cfg.event id).type = .succeeded)
  (hintent : (cfg.event id).intent = ⟨b.id⟩)
include hbook hd hdb htype hintent

/-- Stripe takes the request, and the event settles the booking. -/
theorem settle_taken (hw : t.world.WellFormed cfg) (hpending : b.status = .PENDING)
    (hpay : d.payment = t.world.db.paymentOf? b.id) (hunpaid : d.payment.map (·.status) ≠ some .PAID)
    (hnew : id ∉ t.world.db.webhookEvents) (htaken : t.world.out.Takes (intentRequest cfg d)) :
    (settle cfg t b id).world.db.Secured b.id := by
  obtain ⟨r, w', hasked, hpayable⟩ := PaymentService.solo_createPaymentIntent_payable
    (c := ⟨t.threads.length, .createPaymentIntent b.id b.userId⟩) hw hd hbook hdb hpay hunpaid htaken
  obtain ⟨p, hp, hid, hstatus⟩ := hpayable.payment
  have hi : p.stripePaymentIntentId = (cfg.event id).intent := by
    rw [hpayable.valid.intents p hp, hid, hintent]
  have hserve := Service.serve_of_solo (service cfg) hasked
  obtain ⟨w'', hsolo, hdelivered⟩ := PaymentService.solo_handleWebhook
    (c := ⟨((service cfg).serve t (.createPaymentIntent b.id b.userId)).threads.length,
      .handleWebhook (some id)⟩) hpayable.valid hp hi
  have hsettle : (settle cfg t b id).world = w'' := by
    rw [settle, Service.serve_of_solo (service cfg) (r := .ok .success) (l := .idle) (w := w'')]
    rw [hserve]
    rw [hserve] at hsolo
    exact hsolo
  have hinitiated : p.status ≠ .PAID := by
    rw [hstatus]
    nofun
  rw [hsettle, ← hid]
  exact hdelivered.secured htype (hpayable.events ▸ hnew) hp hinitiated (hid ▸ hpayable.booking) hpending

/-- Stripe rejects the request, and the event is of no payment. -/
theorem settle_rejected (hv : t.world.db.Valid cfg)
    (hnone : ∀ p ∈ t.world.db.payments, p.bookingId ≠ b.id)
    (hrejected : ¬ t.world.out.Takes (intentRequest cfg d)) :
    (settle cfg t b id).world.db = t.world.db := by
  have hasked : ((service cfg).serve t (.createPaymentIntent b.id b.userId)).world.db = t.world.db :=
    (PaymentService.solo_createPaymentIntent
      (c := ⟨t.threads.length, .createPaymentIntent b.id b.userId⟩) hv hd hbook hdb).db hrejected
  have hunknown : ∀ p ∈ ((service cfg).serve t (.createPaymentIntent b.id b.userId)).world.db.payments,
      p.stripePaymentIntentId ≠ (cfg.event id).intent := by
    intro p hp hi
    rw [hasked] at hp
    rw [hv.intents p hp, hintent] at hi
    exact hnone p hp (IntentId.mk.inj hi)
  rw [settle, Service.serve_of_solo (service cfg) (c := .handleWebhook (some id))
    (PaymentService.solo_handleWebhook_unknown htype hunknown)]
  exact hasked

end

/-- In every state of every run in which no turf is edited, a PENDING booking can be paid if
and only if it costs something. -/
theorem settle_iff (hs : s.Fresh) (hr : s.world.out.intentRequests = [])
    (hb : b ∈ ((service cfg).run s as).world.db.bookings) (hpending : b.status = .PENDING)
    (htype : (cfg.event id).type = .succeeded) (hintent : (cfg.event id).intent = ⟨b.id⟩) :
    (settle cfg ((service cfg).run s as) b id).world.db.Secured b.id ↔ 0 < b.totalAmount := by
  have hkeeps : Sys.Keeps cfg (World.Ledger cfg) ((service cfg).run s as) :=
    (hs.initial.always (stable_ledger cfg) hs.ledger).last
  have hhoused : ((service cfg).run s as).world.db.Housed := (housed_always hs).last
  have halways : (service cfg).Always (fun t => ∃ g, Charger cfg g t ∧
      Charging cfg g t.world.db t.world.out.intentRequests) s as := charging_always hs hr
  obtain ⟨g, -, hcharging⟩ := halways.last
  generalize (service cfg).run s as = t at *
  have hw := hkeeps.inv.1
  have hv := hw.valid
  have hbook := hv.booking?_of_mem hb
  obtain ⟨d, hd, hdb, hpay⟩ := bookingDetail_of_housed hv hhoused hb
  have htakes := hcharging.takes_iff hd hdb hb
  -- what has been settled is not PENDING
  have hopen : ∀ p, t.world.Settled p → p.bookingId ≠ b.id := by
    rintro p hset hid
    obtain ⟨b', hb', hstatus⟩ := hset.booking
    rw [hid, hbook] at hb'
    obtain rfl := Option.some.inj hb'
    exact hstatus hpending
  by_cases hpos : 0 < b.totalAmount
  · refine iff_of_true ?_ hpos
    have hunpaid : d.payment.map (·.status) ≠ some .PAID := by
      intro hpaid
      obtain ⟨p, hp, hstatus⟩ := Option.map_eq_some_iff.mp hpaid
      obtain ⟨hm, hid⟩ := Db.mem_of_paymentOf? (hpay ▸ hp)
      exact hopen p (hkeeps.inv.2.paid p hm hstatus) hid
    have hnew : id ∉ t.world.db.webhookEvents := by
      intro hreg
      obtain ⟨p, hp, hi, hset⟩ := hkeeps.inv.2.processed id hreg htype
      refine hopen p hset (IntentId.mk.inj ?_)
      rw [← hv.intents p hp, hi, hintent]
    exact settle_taken hbook hd hdb htype hintent hw hpending hpay hunpaid hnew (htakes.mpr hpos)
  · refine iff_of_false ?_ hpos
    -- what has been paid costs something
    have hnone : ∀ p ∈ t.world.db.payments, p.bookingId ≠ b.id := by
      intro p hp hid
      obtain ⟨b', hb', -, hpos'⟩ := hcharging.charged.payments p hp
      rw [hid, hbook] at hb'
      obtain rfl := Option.some.inj hb'
      exact hpos ((hcharging.charged.cents _ hb).pos_iff.mp hpos')
    rw [settle_rejected hbook hd hdb htype hintent hv hnone fun h => hpos (htakes.mp h)]
    rintro ⟨-, p, hp, hid, -⟩
    exact hnone p hp hid

end

/-- User 7 books slot 1 at the full price. -/
theorem settle_arena : (settle (Arena.cfg true) ((service (Arena.cfg true)).run Arena.sys
      (Arena.first 0 (.create (Arena.dto 1 none) 7 0) 20))
    ⟨101, 7, 1, 1, 1000, .PENDING, none, 0⟩ 1).world.db.Secured 101 :=
  (@settle_iff (Arena.cfg true) Arena.sys (Arena.first 0 (.create (Arena.dto 1 none) 7 0) 20)
    ⟨101, 7, 1, 1, 1000, .PENDING, none, 0⟩ 1 Arena.fresh rfl (by decide +kernel) rfl rfl rfl).mpr
    (by decide)

/-- The arena with a coupon of the whole price. -/
def Arena.giveaway : Sys := { sys with world := { sys.world with
  db := { db with coupons := [{ coupon with discountType := .FIXED, discountValue := 1000 }] } } }

/-- User 7 books slot 1 with a coupon of 1000, its price. -/
theorem settle_fails :
    let t := (service (Arena.cfg true)).run Arena.giveaway
      (Arena.first 0 (.create (Arena.dto 1 (some "TEN")) 7 0) 30)
    let b : Booking := ⟨101, 7, 1, 1, 0, .PENDING, none, 0⟩
    Arena.giveaway.Fresh ∧ Arena.giveaway.world.out.intentRequests = [] ∧ t.Quiet ∧
      b ∈ t.world.db.bookings ∧ ¬ (settle (Arena.cfg true) t b 1).world.db.Secured 101 :=
  ⟨⟨rfl, rfl, by constructor <;> decide⟩, rfl, by decide +kernel, by decide +kernel, by decide +kernel⟩

end TurfSync
