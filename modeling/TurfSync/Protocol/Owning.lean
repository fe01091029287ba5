import TurfSync.Protocol.Footprints
import TurfSync.Protocol.Owners
import TurfSync.Txn.Automaton

/-! A call that changes, charges or shows a booking or a payment has read the booking first
and found its own user there; what it inserts is the user's own. Slots and coupons are
shared. -/

namespace TurfSync

open Txn

/-- Rows of the user, as they are now, and whether a transaction is open. -/
structure Own where
  bookings : List Booking
  payments : List Payment
  inTx : Bool

/-- Only own bookings and payments are changed, charged and refunded, and inserts are for the
user. -/
def owning (u : UserId) : Automaton Stmt Stmt.Reply Err Own where
  init := ⟨[], [], false⟩
  may g
    | .stmt (.update (.bookingCreate d)) => d.userId = u
    | .stmt (.update (.bookingUpdate id _)) => ∃ b ∈ g.bookings, b.id = id
    | .stmt (.update (.bookingUpdateManyPending _ _)) => False
    | .stmt (.update (.paymentUpdate id change)) => (∃ p ∈ g.payments, p.id = id) ∧ change = .refunded
    | .stmt (.update (.paymentUpdateMany _ _)) => False
    | .stmt (.update (.paymentUpsert id _ _ intent _)) => (∃ b ∈ g.bookings, b.id = id) ∧ intent = ⟨id⟩
    | .stmt (.update (.couponUsageCreate _ userId _ _)) => userId = u
    | .stmt (.external (.createIntent r)) => ∃ b ∈ g.bookings, b.id = r.bookingId
    | .stmt (.external (.createRefund intent)) => ∃ b ∈ g.bookings, b.id = intent.bookingId
    | _ => True
  answers
    | .stmt (.query (.bookingFindUnique id)), .ok (some b) => b.id = id
    | .stmt (.query (.bookingDetail id)), .ok (some d) =>
      d.booking.id = id ∧ ∀ p ∈ d.payment, p.bookingId = id
    | .stmt (.query (.paymentDetail id)), .ok (some d) =>
      d.booking.id = id ∧ d.payment.bookingId = id ∧ d.payment.stripePaymentIntentId = ⟨id⟩
    | .stmt (.update (.bookingCreate d)), .ok b => b.userId = d.userId
    | .stmt (.update (.paymentUpsert id _ _ _ secret)), .ok p =>
      p.bookingId = id ∧ p.stripeClientSecret = some secret
    | .stmt (.external (.createIntent r)), .ok intent => intent = ⟨r.bookingId⟩
    | _, _ => True
  next g
    | .stmt (.query (.bookingFindUnique _)), .ok (some b) =>
      if b.userId = u then { g with bookings := b :: g.bookings } else g
    | .stmt (.query (.bookingDetail _)), .ok (some d) =>
      if d.booking.userId = u then
        { g with bookings := d.booking :: g.bookings, payments := d.payment.toList ++ g.payments }
      else g
    | .stmt (.query (.paymentDetail _)), .ok (some d) =>
      if d.booking.userId = u then
        { g with bookings := d.booking :: g.bookings, payments := d.payment :: g.payments }
      else g
    | .stmt (.update (.bookingCreate _)), .ok b => { g with bookings := b :: g.bookings }
    | .stmt (.update (.bookingUpdate id status)), .ok _ =>
      { g with bookings := Rows.update (·.id) [id] (fun b => { b with status := status }) g.bookings }
    | .stmt (.update (.paymentUpdate id change)), .ok _ =>
      { g with payments := Rows.update (·.id) [id] change.set g.payments }
    | .stmt (.update (.paymentUpsert _ _ _ _ _)), .ok p => { g with payments := [p] }
    | .begin, _ => if g.inTx then ⟨[], [], true⟩ else { g with inTx := true }
    | .commit, _ => { g with inTx := false }
    -- what was inserted is gone
    | .rollback, _ => ⟨[], [], false⟩
    | _, _ => g

/-- What a reply shows is the user's. -/
def Own.Shows (g : Own) : Reply → Prop
  | .booking b => b ∈ g.bookings
  | .message text => text = "Booking cancelled successfully"
  | .intent secret id amount => ∃ b ∈ g.bookings, b.totalAmount = amount ∧
    ∃ p ∈ g.payments, p.bookingId = b.id ∧ p.id = id ∧ p.stripeClientSecret = some secret
  | .refunded _ amount bookingId => ∃ p ∈ g.payments, p.bookingId = bookingId ∧ p.amount = amount
  | _ => True

/-- A reply after all transactions. -/
def Own.Replies (g : Own) (r : Reply) : Prop := g.inTx = false ∧ g.Shows r

/-- What is returned, if anything is. -/
def Own.Ends {α : Type} (P : Own → α → Prop) (g : Own) (r : Except Err α) : Prop := ∀ a, r = .ok a → P g a

/-- A statement on rows that are nobody's. -/
def Stmt.neutral : Stmt → Bool
  | .query (.bookingFindUnique _) => false
  | .query (.bookingDetail _) => false
  | .query (.paymentDetail _) => false
  | .update (.slotUpdate _ _) => true
  | .update (.couponIncrement _) => true
  | .update _ => false
  | .external (.createIntent _) => false
  | .external (.createRefund _) => false
  | _ => true

section

variable {u : UserId} {g : Own} {α β : Type} {P : Own → α → Prop} {Q : Own → Except Err β → Prop}

theorem ends_ok {a : α} (h : P g a) : g.Ends P (.ok a) := by
  rintro _ ⟨⟩
  exact h

theorem ends_error (e : Err) : g.Ends P (.error e) := nofun

/-- A transaction commits what it returns. -/
theorem closes_ok {a : α} (h : P { g with inTx := false } a) : Script.Closes (owning u) (Own.Ends P) g (.ok a) :=
  ⟨trivial, ends_ok h, ends_error⟩

theorem closes_error (e : Err) : Script.Closes (owning u) (Own.Ends P) g (.error e) :=
  ⟨trivial, fun _ => ends_error e⟩

theorem obeys_transaction {p : Op α} (hg : g.inTx = false)
    (h : p.Obeys (owning u) { g with inTx := true } (Script.Closes (owning u) (Own.Ends P))) :
    (Script.transaction p).Obeys (owning u) g (Own.Ends P) := by
  refine Script.obeys_transaction trivial ?_ ends_error
  have hbegin : (owning u).next g .begin (.ok ()) = { g with inTx := true } := if_neg (by rw [hg]; decide)
  rwa [hbegin]

theorem may_neutral {s : Stmt} (hs : s.neutral = true) : (owning u).may g (.stmt s) := by
  cases s with
  | external x => cases x <;> trivial
  | update w => cases w <;> trivial
  | query q => trivial
  | lock l => trivial

theorem next_neutral {s : Stmt} (hs : s.neutral = true) (r : Except Err s.Reply) :
    (owning u).next g (.stmt s) r = g := by
  cases s with
  | query q => cases q <;> first | rfl | cases hs
  | external x => rfl
  | update w => cases w <;> first | rfl | cases hs
  | lock l => rfl

theorem obeys_neutral {s : Stmt} (hs : s.neutral = true) {f : s.Reply → Op β}
    (hok : ∀ a, (f a).Obeys (owning u) g Q) (herr : ∀ e, Q g (.error e)) :
    Script.Obeys (owning u) g (Prog.bind (Script.perform s) f) Q := by
  refine Script.obeys_stmt (may_neutral hs) (fun a _ => ?_) fun e => ?_
  · rw [next_neutral hs]
    exact hok a
  · rw [next_neutral hs]
    exact herr e

/-- The last statement of a program. -/
theorem obeys_last {s : Stmt} {Q : Own → Except Err s.Reply → Prop} (hs : s.neutral = true)
    (hQ : ∀ r, Q g r) : Script.Obeys (owning u) g (Script.perform s) Q := by
  refine ⟨may_neutral hs, fun r _ => ?_⟩
  rw [next_neutral hs]
  cases r <;> exact hQ _

/-- A step whose failure is logged only. -/
theorem obeys_quietly {G : Type} {A : Automaton Stmt Stmt.Reply Err G} {g : G}
    {Q : G → Except Err β → Prop} {p : Op Unit} {f : Unit → Op β}
    (hp : p.Obeys A g fun g' _ => g' = g) (hf : (f ()).Obeys A g Q) :
    Script.Obeys A g ((quietly p).bind f) Q := by
  refine Script.obeys_bind (Script.obeys_tryCatch (Script.obeys_mono hp fun g' r hg => ?_))
  subst hg
  cases r <;> exact hf

theorem obeys_couponData (cfg : Config) (dto : CreateBookingDto) :
    (BookingService.couponData cfg dto u).Obeys (owning u) g fun _ _ => True := by
  refine Script.obeys_mono (Script.obeys_of_uses (J := fun _ => True) ?_
    (BookingService.couponData_stays (φ := Stmt.neutral) (fun _ => rfl) (fun _ _ => rfl) rfl cfg dto u)
    trivial) fun _ _ _ => trivial
  intro g m hm _
  cases m with
  | stmt s => exact ⟨may_neutral hm, fun _ => trivial⟩
  | _ => exact ⟨trivial, fun _ => trivial⟩

/-! ### The calls -/

theorem applyCoupon_obeys (hg : g.inTx = false) (couponId : CouponId) (bookingId : BookingId) (discount : Option ℚ) :
    (CouponService.applyCoupon couponId u bookingId discount).Obeys (owning u) g
      (Own.Ends fun g' _ => g' = g) := by
  obtain ⟨bookings, payments, inTx⟩ := g
  obtain rfl : inTx = false := hg
  refine obeys_transaction rfl (obeys_neutral rfl (fun row => ?_) closes_error)
  cases row with
  | none => exact closes_error _
  | some coupon =>
    simp only
    split_ifs
    · exact closes_error _
    · exact closes_error _
    refine obeys_neutral rfl (fun userUsageCount => ?_) closes_error
    split_ifs
    · exact closes_error _
    refine Script.obeys_stmt rfl (fun _ _ => ?_) closes_error
    refine obeys_last rfl fun r => ?_
    cases r with
    | ok _ => exact closes_ok rfl
    | error e => exact closes_error e

theorem createTx_obeys (dto : CreateBookingDto) (coupon : Option ValidatedCoupon) :
    (BookingService.createTx dto u coupon).Obeys (owning u) g
      (Script.Closes (owning u) (Own.Ends fun g' row => row.1 ∈ g'.bookings ∧ g'.inTx = false)) := by
  refine obeys_neutral rfl (fun row => ?_) closes_error
  cases row with
  | none => exact closes_error _
  | some row =>
    obtain ⟨slot, turf⟩ := row
    simp only
    split_ifs
    · exact closes_error _
    · exact closes_error _
    refine obeys_neutral rfl (fun existingBooking => ?_) closes_error
    cases existingBooking with
    | some _ => exact closes_error _
    | none =>
      refine obeys_neutral rfl (fun _ => ?_) closes_error
      refine Script.obeys_stmt rfl (fun booking _ => ?_) closes_error
      exact closes_ok ⟨List.mem_cons_self, rfl⟩

theorem createLocked_obeys (dto : CreateBookingDto) (coupon : Option ValidatedCoupon) :
    (BookingService.createLocked dto u coupon).Obeys (owning u) g (Own.Ends Own.Replies) := by
  refine Script.obeys_bind (Script.obeys_mono
    (Script.obeys_transaction trivial (createTx_obeys dto coupon) ends_error) fun g' r hrow => ?_)
  cases r with
  | error e => exact ends_error e
  | ok row =>
    obtain ⟨booking, slot⟩ := row
    obtain ⟨hbooking, hg'⟩ : booking ∈ g'.bookings ∧ g'.inTx = false := hrow _ rfl
    refine obeys_quietly (obeys_last rfl fun _ => rfl) ?_
    have hqueue : ∀ job, Script.Obeys (owning u) g'
        ((quietly (external (.queueAdd job))).bind fun _ => .ret (.booking booking) : Op Reply)
        (Own.Ends Own.Replies) :=
      fun job => obeys_quietly (obeys_last rfl fun _ => rfl) (ends_ok ⟨hg', hbooking⟩)
    cases coupon with
    | none => exact hqueue _
    | some quote =>
      refine Script.obeys_bind (Script.obeys_mono (applyCoupon_obeys hg' _ _ _) fun g'' r hr => ?_)
      cases r with
      | error e => exact ends_error e
      | ok _ =>
        obtain rfl := hr _ rfl
        exact hqueue _

theorem create_obeys (cfg : Config) (dto : CreateBookingDto) (now : Time) :
    (BookingService.create cfg dto u now).Obeys (owning u) g (Own.Ends Own.Replies) := by
  unfold BookingService.create
  simp only
  split_ifs
  · exact ends_error _
  · exact ends_error _
  refine Script.obeys_bind (Script.obeys_mono (obeys_couponData cfg dto) fun g' r _ => ?_)
  cases r with
  | error e => exact ends_error e
  | ok coupon =>
    refine obeys_neutral rfl (fun lockValue => ?_) ends_error
    cases lockValue with
    | none => exact ends_error _
    | some value =>
      refine Script.obeys_tryFinally (Script.obeys_mono (createLocked_obeys dto coupon)
        fun g' r hr => ?_)
      cases r with
      | ok a => exact Script.obeys_bind (obeys_neutral rfl (fun _ => hr) ends_error)
      | error e => exact Script.obeys_bind (obeys_neutral rfl (fun _ => ends_error e) ends_error)

/-- The slot of a booking that is cancelled is free, if no other booking is on it. -/
theorem release_obeys {P : Own → Unit → Prop} (hP : P { g with inTx := false } ()) (slotId : SlotId) (id : BookingId) :
    Script.Obeys (owning u) g (do
      let activeBookings : List Booking ← query (.bookingFindActive [slotId] [id])
      if activeBookings = [] then update (.slotUpdate slotId false) else pure ())
      (Script.Closes (owning u) (Own.Ends P)) := by
  refine obeys_neutral rfl (fun activeBookings => ?_) closes_error
  split_ifs
  · refine obeys_last rfl fun r => ?_
    cases r with
    | ok _ => exact closes_ok hP
    | error e => exact closes_error e
  · exact closes_ok hP

theorem cancel_obeys (id : BookingId) :
    (BookingService.cancel id u).Obeys (owning u) (owning u).init (Own.Ends Own.Replies) := by
  refine Script.obeys_stmt trivial (fun found hfound => ?_) ends_error
  cases found with
  | none => exact ends_error _
  | some booking =>
    have hid : booking.id = id := hfound
    dsimp only
    split_ifs with huser
    · exact ends_error _
    · exact ends_error _
    have hnext : (owning u).next (owning u).init (.stmt (.query (.bookingFindUnique id))) (.ok (some booking)) =
        ⟨[booking], [], false⟩ := if_pos (not_not.mp huser)
    rw [hnext]
    refine Script.obeys_bind (Script.obeys_mono (obeys_transaction rfl
      (P := fun g _ => g.inTx = false) ?_)
      fun g' r hr => ?_)
    · refine obeys_neutral rfl (fun row => ?_) closes_error
      cases row with
      | none => exact closes_error _
      | some txBooking =>
        simp only
        split_ifs
        · exact closes_error _
        refine Script.obeys_stmt ⟨booking, List.mem_cons_self, hid⟩ (fun _ _ => ?_) closes_error
        exact obeys_neutral rfl (fun _ => release_obeys rfl _ _) closes_error
    · cases r with
      | error e => exact ends_error e
      | ok _ =>
        refine obeys_quietly (obeys_last rfl fun _ => rfl) ?_
        exact obeys_quietly (obeys_last rfl fun _ => rfl) (ends_ok ⟨hr _ rfl, rfl⟩)

theorem payment_obeys (cfg : Config) (bookingId : BookingId) :
    (PaymentService.createPaymentIntent cfg bookingId u).Obeys (owning u) (owning u).init (Own.Ends Own.Replies) := by
  refine Script.obeys_stmt trivial (fun found hfound => ?_) ends_error
  cases found with
  | none => exact ends_error _
  | some d =>
    obtain ⟨hid, hpayment⟩ := hfound
    dsimp only
    split_ifs with huser
    · exact ends_error _
    · exact ends_error _
    have hnext : (owning u).next (owning u).init (.stmt (.query (.bookingDetail bookingId))) (.ok (some d)) =
        ⟨[d.booking], d.payment.toList ++ [], false⟩ := if_pos (not_not.mp huser)
    rw [hnext]
    split
    · rename_i secret paymentId hopen
      obtain ⟨p, hp, hsecret⟩ := Option.bind_eq_some_iff.mp hopen
      unfold Payment.openSecret at hsecret
      split_ifs at hsecret
      obtain ⟨secret', hsecret', hpair⟩ := Option.map_eq_some_iff.mp hsecret
      obtain ⟨rfl, rfl⟩ := Prod.mk.inj hpair
      exact ends_ok ⟨rfl, d.booking, List.mem_cons_self, rfl, p,
        List.mem_append_left _ (by rw [hp]; exact List.mem_singleton_self p),
        (hpayment p hp).trans hid.symm, rfl, hsecret'⟩
    · refine Script.obeys_stmt ⟨d.booking, List.mem_cons_self, rfl⟩ (fun intent hintent => ?_) ends_error
      have hintent' : intent = ⟨bookingId⟩ := hid ▸ hintent
      refine Script.obeys_stmt ⟨⟨d.booking, List.mem_cons_self, hid⟩, hintent'⟩ (fun payment hpay => ?_)
        ends_error
      exact ends_ok ⟨rfl, d.booking, List.mem_cons_self, rfl, payment, List.mem_singleton_self payment,
        hpay.1.trans hid.symm, rfl, hpay.2⟩

theorem refund_obeys (bookingId : BookingId) :
    (PaymentService.refund bookingId u).Obeys (owning u) (owning u).init (Own.Ends Own.Replies) := by
  refine Script.obeys_stmt trivial (fun found hfound => ?_) ends_error
  cases found with
  | none => exact ends_error _
  | some d =>
    obtain ⟨hid, hpayment, hintent⟩ := hfound
    dsimp only
    split_ifs with huser
    · exact ends_error _
    · exact ends_error _
    have hnext : (owning u).next (owning u).init (.stmt (.query (.paymentDetail bookingId))) (.ok (some d)) =
        ⟨[d.booking], [d.payment], false⟩ := if_pos (not_not.mp huser)
    rw [hnext]
    refine obeys_neutral rfl (fun now => ?_) ends_error
    split_ifs
    · exact ends_error _
    refine Script.obeys_stmt ⟨d.booking, List.mem_cons_self, by rw [hintent, hid]⟩ (fun refundId _ => ?_)
      ends_error
    refine Script.obeys_bind (Script.obeys_mono (obeys_transaction rfl
      (P := fun g' _ => g'.Replies (.refunded refundId d.payment.amount bookingId)) ?_) fun g' r hr => ?_)
    · refine obeys_neutral rfl (fun _ => ?_) closes_error
      refine Script.obeys_stmt ⟨⟨d.payment, List.mem_cons_self, rfl⟩, rfl⟩ (fun _ _ => ?_) closes_error
      refine Script.obeys_stmt ⟨d.booking, List.mem_cons_self, hid⟩ (fun _ _ => ?_) closes_error
      refine release_obeys ⟨rfl, { d.payment with status := .REFUNDED }, ?_, hpayment, rfl⟩ _ _
      exact Rows.mem_update.mpr ⟨d.payment, List.mem_cons_self, by simp [PaymentChange.set]⟩
    · cases r with
      | error e => exact ends_error e
      | ok _ => exact ends_ok (hr _ rfl)

end

end TurfSync
