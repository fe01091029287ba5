import TurfSync.Protocol.Solo
import TurfSync.Guarantees.Slots

/-! Payment intents. `createPaymentIntent` looks at the owner and at the payment, not at
the status of the booking, so it asks money for bookings that are not PENDING any more
unless their payment is PAID; only a rejection by Stripe can still stop it. -/

namespace TurfSync

open Txn

/-! ### Every booking has its turf -/

/-- A booking stands on an existing turf. -/
def Db.Housed (db : Db) : Prop := ∀ b ∈ db.bookings, (db.turf? b.turfId).isSome

namespace Db

variable {db : Db} {ws : List Write}

theorem Housed.apply (h : db.Housed) {x : Write}
    (hx : ∀ b, x = .bookingInsert b → (db.turf? b.turfId).isSome) : (db.apply x).Housed := by
  cases x with
  | bookingInsert b =>
    intro b' hb'
    rcases List.mem_append.mp hb' with hb' | hb'
    · exact h b' hb'
    · rw [List.mem_singleton.mp hb']
      exact hx b rfl
  | bookingSet ids status =>
    intro b' hb'
    obtain ⟨b, hb, rfl⟩ := Rows.mem_update.mp hb'
    have hturf : (if b.id ∈ ids then { b with status := status } else b).turfId = b.turfId := by
      split_ifs <;> rfl
    rw [hturf]
    exact h b hb
  | _ => exact h

theorem turfs_apply (x : Write) : (db.apply x).turfs = db.turfs := by
  cases x <;> rfl

theorem Housed.applyAll (h : db.Housed)
    (hx : ∀ b, .bookingInsert b ∈ ws → (db.turf? b.turfId).isSome) : (db.applyAll ws).Housed := by
  induction ws generalizing db with
  | nil => exact h
  | cons x ws ih =>
    refine ih (h.apply fun b hb => hx b (by simp [hb])) fun b hb => ?_
    rw [turf?, turfs_apply]
    exact hx b (List.mem_cons_of_mem _ hb)

end Db

theorem Commits.housed {cfg : Config} {c : Session Call} {w : World} {ws : List Write}
    (h : w.db.Housed) (hc : Commits cfg c w ws) : (w.db.applyAll ws).Housed := by
  refine h.applyAll fun b hb => ?_
  cases hc with
  | book _ _ _ _ _ _ _ _ _ hturf =>
    simp only [List.mem_cons, reduceCtorEq, Write.bookingInsert.injEq, List.not_mem_nil, or_false,
      false_or] at hb
    subst hb
    exact hturf
  | _ => simp at hb

theorem housed_always {cfg : Config} {s : Sys} {as : List Act} (hs : s.Fresh) :
    (service cfg).Always (fun t => t.world.db.Housed) s as := by
  have hinit : s.world.db.Housed := by simp [Db.Housed, hs.db.bookings]
  exact always_of_commits (M := fun _ _ _ => True) hs.initial stable_true trivial hinit
    (fun _ _ h hc _ => hc.housed h) (Service.each_of_forall (fun _ _ _ _ => trivial) s as)

/-! ### The call -/

/-- The request that `createPaymentIntent` sends to Stripe. -/
def intentRequest (cfg : Config) (d : BookingDetail) : IntentRequest where
  bookingId := d.booking.id
  amount := mathRound (d.booking.totalAmount * 100)
  currency := cfg.currency
  userId := d.booking.userId
  turfName := d.turf.name
  slotTime := (d.slot.startTime, d.slot.endTime)

/-- Stripe takes the request: the amount is positive, and earlier requests for the
booking were the same. -/
def Outside.Takes (o : Outside) (r : IntentRequest) : Prop :=
  0 < r.amount ∧ ∀ r' ∈ o.intentRequests, r'.bookingId = r.bookingId → r' = r

instance (o : Outside) (r : IntentRequest) : Decidable (o.Takes r) :=
  inferInstanceAs (Decidable (_ ∧ _))

namespace PaymentService

variable {cfg : Config} {c : Session Call} {w : World} {b : Booking} {d : BookingDetail}

/-- What the owner's call does, case by case. -/
inductive Asked (cfg : Config) (d : BookingDetail) (w : World) :
    Except Err Reply × Local Key Write × World → Prop
  | completed (paid : d.payment.map (·.status) = some .PAID) :
      Asked cfg d w (.error (.conflict "This booking payment already completed"), .idle, w)
  | stored {secret id} (unpaid : d.payment.map (·.status) ≠ some .PAID)
      (secret? : d.payment.bind Payment.openSecret = some (secret, id)) :
      Asked cfg d w (.ok (.intent secret id d.booking.totalAmount), .idle, w)
  | created {id w'} (unpaid : d.payment.map (·.status) ≠ some .PAID)
      (secret? : d.payment.bind Payment.openSecret = none)
      (taken : w.out.Takes (intentRequest cfg d)) :
      Asked cfg d w (.ok (.intent ⟨⟨d.booking.id⟩⟩ id d.booking.totalAmount), .idle, w')
  | rejected (unpaid : d.payment.map (·.status) ≠ some .PAID)
      (secret? : d.payment.bind Payment.openSecret = none)
      (rejected : ¬ w.out.Takes (intentRequest cfg d)) :
      Asked cfg d w (.error .stripe, .idle, { w with
        out := { w.out with intentRequests := w.out.intentRequests ++ [intentRequest cfg d] } })

theorem solo_paymentUpsert (hv : w.db.Valid cfg) (hb : w.db.booking? b.id = some b) (amount : ℚ)
    (currency : String) : ∃ p w', (engine cfg).solo c (update (.paymentUpsert b.id amount currency
      ⟨b.id⟩ ⟨⟨b.id⟩⟩)) .idle w = (.ok p, .idle, w') := by
  rw [solo_update rfl]
  simp only [Update.plan, if_neg (hv.intent_own b.id)]
  cases hpay : w.db.paymentOf? b.id with
  | some p => exact ⟨_, _, rfl⟩
  | none =>
    simp only [hb, Option.isNone_some, Bool.false_eq_true, if_false]
    exact ⟨_, _, rfl⟩

theorem solo_createPaymentIntent (hv : w.db.Valid cfg) (hd : w.db.bookingDetail? b.id = some d)
    (hb : w.db.booking? b.id = some b) (hdb : d.booking = b) :
    Asked cfg d w ((engine cfg).solo c (createPaymentIntent cfg b.id b.userId) .idle w) := by
  subst hdb
  have hread : (Query.bookingDetail d.booking.id).eval w.db = some d := hd
  unfold createPaymentIntent
  simp only [Prog.bind_eq, Prog.pure_eq, Engine.solo_bind, solo_query (.bookingDetail _), hread,
    Engine.andThen_ok, ne_eq, not_true_eq_false, if_false]
  by_cases hpaid : d.payment.map (·.status) = some .PAID
  · rw [if_pos hpaid]
    exact .completed hpaid
  rw [if_neg hpaid]
  cases hsecret : d.payment.bind Payment.openSecret with
  | some x => exact .stored hpaid hsecret
  | none =>
    simp only [Engine.solo_bind, solo_external (.createIntent _)]
    by_cases htaken : w.out.Takes (intentRequest cfg d)
    · have hreply : ((External.createIntent (intentRequest cfg d)).eval w.out).1 =
          .ok ⟨d.booking.id⟩ := if_pos htaken
      obtain ⟨p, w', hupsert⟩ := @solo_paymentUpsert cfg c
        { w with out := ((External.createIntent (intentRequest cfg d)).eval w.out).2 } d.booking hv hb
        d.booking.totalAmount cfg.currency
      rw [intentRequest] at hreply hupsert
      rw [hreply]
      simp only [Engine.andThen_ok, Engine.solo_bind, hupsert]
      exact .created hpaid hsecret htaken
    · have hreply : ((External.createIntent (intentRequest cfg d)).eval w.out).1 =
          .error .stripe := if_neg htaken
      rw [intentRequest] at hreply
      rw [hreply]
      exact .rejected hpaid hsecret htaken

end PaymentService

/-! ### The guarantee -/

/-- What the owner of booking `b` may expect of `createPaymentIntent` in this state. -/
structure AsksFairly (cfg : Config) (t : Sys) (b : Booking) : Prop where
  secret : ∀ secret id amount, (service cfg).reply t (.createPaymentIntent b.id b.userId) =
    .ok (.intent secret id amount) → b.status = .PENDING
  ended : b.status = .CANCELLED ∨ b.status = .COMPLETED →
    (∃ e, (service cfg).reply t (.createPaymentIntent b.id b.userId) = .error e) ∧
    ((service cfg).serve t (.createPaymentIntent b.id b.userId)).world.out.intentRequests =
      t.world.out.intentRequests ∧
    ((service cfg).serve t (.createPaymentIntent b.id b.userId)).world.db.payments =
      t.world.db.payments

/-- The booking as `createPaymentIntent` reads it. -/
theorem bookingDetail_of_housed {cfg : Config} {db : Db} {b : Booking} (hv : db.Valid cfg)
    (hh : db.Housed) (hb : b ∈ db.bookings) :
    ∃ d, db.bookingDetail? b.id = some d ∧ d.booking = b ∧ d.payment = db.paymentOf? b.id := by
  obtain ⟨turf, hturf⟩ := Option.isSome_iff_exists.mp (hh b hb)
  obtain ⟨slot, hslot, hid⟩ := hv.bookingSlot b hb
  have hslot? : db.slot? b.slotId = some slot := (Rows.lookup_iff hv.slots).mpr ⟨hslot, hid⟩
  refine ⟨⟨b, turf, slot, db.paymentOf? b.id⟩, ?_, rfl, rfl⟩
  simp [Db.bookingDetail?, hv.booking?_of_mem hb, hturf, hslot?]

theorem ended_iff {status : BookingStatus} : status = .CANCELLED ∨ status = .COMPLETED ↔
    status ≠ .PENDING ∧ status ≠ .CONFIRMED := by
  cases status <;> simp

/-- What the call does decides whether it was fair to make it. -/
theorem PaymentService.Asked.fairly_iff {cfg : Config} {t : Sys} {b : Booking} {d : BookingDetail}
    {r : Except Err Reply × Local Key Write × World} (hasked : PaymentService.Asked cfg d t.world r)
    (hreply : (service cfg).reply t (.createPaymentIntent b.id b.userId) = r.1)
    (hserve : ((service cfg).serve t (.createPaymentIntent b.id b.userId)).world = r.2.2) :
    AsksFairly cfg t b ↔ b.status = .PENDING ∨ d.payment.map (·.status) = some .PAID ∨
      b.status = .CONFIRMED ∧ d.payment.bind Payment.openSecret = none ∧
        ¬ t.world.out.Takes (intentRequest cfg d) := by
  have hpending : b.status = .PENDING → ¬ (b.status = .CANCELLED ∨ b.status = .COMPLETED) :=
    fun h hended => (ended_iff.mp hended).1 h
  cases hasked with
  | completed hpaid =>
    refine iff_of_true ⟨fun _ _ _ h => ?_, fun _ => ⟨⟨_, hreply⟩, ?_, ?_⟩⟩ (.inr (.inl hpaid))
    · rw [hreply] at h
      cases h
    · rw [hserve]
    · rw [hserve]
  | stored hunpaid hsecret =>
    constructor
    · exact fun h => .inl (h.secret _ _ _ hreply)
    · rintro (h | h | ⟨-, h, -⟩)
      · exact ⟨fun _ _ _ _ => h, fun h' => absurd h' (hpending h)⟩
      · exact absurd h hunpaid
      · rw [hsecret] at h
        cases h
  | created hunpaid hsecret htaken =>
    constructor
    · exact fun h => .inl (h.secret _ _ _ hreply)
    · rintro (h | h | ⟨-, -, h⟩)
      · exact ⟨fun _ _ _ _ => h, fun h' => absurd h' (hpending h)⟩
      · exact absurd h hunpaid
      · exact absurd htaken h
  | rejected hunpaid hsecret hrejected =>
    have hthrows : ∀ secret id amount, (service cfg).reply t
        (.createPaymentIntent b.id b.userId) ≠ .ok (.intent secret id amount) := by
      intro secret id amount h
      rw [hreply] at h
      cases h
    constructor
    · intro h
      by_cases hpend : b.status = .PENDING
      · exact .inl hpend
      by_cases hconf : b.status = .CONFIRMED
      · exact .inr (.inr ⟨hconf, hsecret, hrejected⟩)
      · -- the rejected request was a call to Stripe
        have hreq := (h.ended (ended_iff.mpr ⟨hpend, hconf⟩)).2.1
        rw [hserve] at hreq
        simp at hreq
    · rintro (h | h | ⟨h, -⟩)
      · exact ⟨fun _ _ _ he => absurd he (hthrows _ _ _), fun h' => absurd h' (hpending h)⟩
      · exact absurd h hunpaid
      · exact ⟨fun _ _ _ he => absurd he (hthrows _ _ _),
          fun hended => absurd h (ended_iff.mp hended).2⟩

/-- In every state of every run: exactly when the booking is PENDING, or its payment is
PAID, or it is CONFIRMED without a stored open secret and Stripe rejects the request. -/
theorem asksFairly_iff {cfg : Config} {s : Sys} {as : List Act} {b : Booking} (hs : s.Fresh)
    (hb : b ∈ ((service cfg).run s as).world.db.bookings) :
    AsksFairly cfg ((service cfg).run s as) b ↔
      b.status = .PENDING ∨
      (((service cfg).run s as).world.db.paymentOf? b.id).map (·.status) = some .PAID ∨
      b.status = .CONFIRMED ∧
        (((service cfg).run s as).world.db.paymentOf? b.id).bind Payment.openSecret = none ∧
        ∀ d, ((service cfg).run s as).world.db.bookingDetail? b.id = some d →
          ¬ ((service cfg).run s as).world.out.Takes (intentRequest cfg d) := by
  generalize ht : (service cfg).run s as = t at hb ⊢
  have hv : t.world.db.Valid cfg := by
    have hkeeps : Sys.Keeps cfg (fun _ => True) t :=
      ht ▸ (hs.initial.always stable_true trivial).last
    exact hkeeps.inv.1.valid
  have hhoused : t.world.db.Housed := ht ▸ (housed_always hs).last
  obtain ⟨d, hd, hdb, hpay⟩ := bookingDetail_of_housed hv hhoused hb
  have hasked := @PaymentService.solo_createPaymentIntent cfg
    ⟨t.threads.length, .createPaymentIntent b.id b.userId⟩ t.world b d hv hd
    (hv.booking?_of_mem hb) hdb
  have hdetail : (∀ d', t.world.db.bookingDetail? b.id = some d' →
      ¬ t.world.out.Takes (intentRequest cfg d')) ↔ ¬ t.world.out.Takes (intentRequest cfg d) := by
    simp [hd]
  rw [← hpay, hdetail]
  exact hasked.fairly_iff rfl rfl

/-- User 7 has booked slot 1, and pays for it. -/
theorem asksFairly_pending : AsksFairly (Arena.cfg true)
    ((service (Arena.cfg true)).run Arena.sys
      (Arena.first 0 (.create (Arena.dto 1 none) 7 0) 20))
    ⟨101, 7, 1, 1, 1000, .PENDING, none, 0⟩ :=
  (asksFairly_iff Arena.fresh (by decide +kernel)).mpr (.inl rfl)

/-- User 7 books slot 1 and cancels, and is still given a new intent. -/
theorem asksFairly_fails :
    let t := (service (Arena.cfg true)).run Arena.sys
      (Arena.first 0 (.create (Arena.dto 1 none) 7 0) 20 ++ Arena.first 1 (.cancel 101 7) 12)
    let b : Booking := ⟨101, 7, 1, 1, 1000, .CANCELLED, none, 0⟩
    t.Quiet ∧ b ∈ t.world.db.bookings ∧ (service (Arena.cfg true)).reply t
        (.createPaymentIntent 101 7) = .ok (.intent ⟨⟨101⟩⟩ 102 1000) ∧
      ¬ AsksFairly (Arena.cfg true) t b := by
  intro t b
  have hreply : (service (Arena.cfg true)).reply t (.createPaymentIntent 101 7) =
      .ok (.intent ⟨⟨101⟩⟩ 102 1000) := by decide +kernel
  refine ⟨by decide +kernel, by decide +kernel, hreply, fun h => ?_⟩
  have hpending := h.secret _ _ _ hreply
  cases hpending

end TurfSync
