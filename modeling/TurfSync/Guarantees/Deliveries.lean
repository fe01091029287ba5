import TurfSync.Protocol.Solo
import TurfSync.Guarantees.Webhooks

/-! The webhooks of one payment intent, delivered one after another in any order and any
number of times. A success sets the payment to PAID, but a failed or processing event
that was not registered before takes it back, whatever the payment was. So the payment
ends PAID if and only if each of these is followed by a success that is still new. -/

namespace TurfSync

open Txn

namespace Db

variable (db : Db)

def paymentStatus (id : PaymentId) : Option PaymentStatus := (db.payment? id).map (·.status)

def bookingStatus (id : BookingId) : Option BookingStatus := (db.booking? id).map (·.status)

end Db

/-- Deliver events one after another, with no other call in between. -/
def deliver (cfg : Config) (s : Sys) (ids : List EventId) : Sys :=
  ids.foldl (fun t id => (service cfg).serve t (.handleWebhook (some id))) s

/-- A failed or a processing event. -/
def Unpays (cfg : Config) (id : EventId) : Prop :=
  (cfg.event id).type = .payment_failed ∨ (cfg.event id).type = .processing

instance (cfg : Config) (id : EventId) : Decidable (Unpays cfg id) :=
  inferInstanceAs (Decidable (_ ∨ _))

/-- Some delivery is of a success event that is not registered when it is delivered. -/
def PaidLater (cfg : Config) : Sys → List EventId → Prop
  | _, [] => False
  | t, id :: ids => ((cfg.event id).type = .succeeded ∧ id ∉ t.world.db.webhookEvents) ∨
    PaidLater cfg ((service cfg).serve t (.handleWebhook (some id))) ids

/-- Every delivery of a failed or processing event that is not registered when it is
delivered is followed by one of a success event that is not registered then. -/
def Repaired (cfg : Config) : Sys → List EventId → Prop
  | _, [] => True
  | t, id :: ids =>
    (Unpays cfg id → id ∉ t.world.db.webhookEvents →
      PaidLater cfg ((service cfg).serve t (.handleWebhook (some id))) ids) ∧
    Repaired cfg ((service cfg).serve t (.handleWebhook (some id))) ids

def decidePaidLater (cfg : Config) : (t : Sys) → (ids : List EventId) → Decidable (PaidLater cfg t ids)
  | _, [] => inferInstanceAs (Decidable False)
  | t, id :: ids =>
    have := decidePaidLater cfg ((service cfg).serve t (.handleWebhook (some id))) ids
    inferInstanceAs (Decidable (_ ∨ PaidLater cfg _ ids))

instance (cfg : Config) (t : Sys) (ids : List EventId) : Decidable (PaidLater cfg t ids) :=
  decidePaidLater cfg t ids

def decideRepaired (cfg : Config) : (t : Sys) → (ids : List EventId) → Decidable (Repaired cfg t ids)
  | _, [] => inferInstanceAs (Decidable True)
  | t, id :: ids =>
    have := decideRepaired cfg ((service cfg).serve t (.handleWebhook (some id))) ids
    inferInstanceAs (Decidable ((_ → _ → PaidLater cfg _ ids) ∧ Repaired cfg _ ids))

instance (cfg : Config) (t : Sys) (ids : List EventId) : Decidable (Repaired cfg t ids) :=
  decideRepaired cfg t ids

variable {cfg : Config} {p q : Payment} {id : EventId} {ids : List EventId} {db db' : Db} {t : Sys}

/-! ### One delivery -/

theorem Db.paymentStatus_set {ids : List PaymentId} {change : PaymentChange}
    (hp : db'.payments = setPayments ids change db.payments) (hid : q.id ∈ ids)
    (hq : db.payment? q.id = some q) : db'.paymentStatus q.id = some change.status := by
  rw [paymentStatus, payment?_set hp, if_pos hid, hq]
  exact congrArg some (change.set_status q)

namespace PaymentService.Delivered

/-- After a delivery the payment is PAID if it was and the event does not take it back,
or if the event is a new success. -/
theorem paid_iff (h : Delivered cfg id q db db') (hq : db.payment? q.id = some q) :
    db'.paymentStatus q.id = some .PAID ↔
      (db.paymentStatus q.id = some .PAID ∧ ¬ (Unpays cfg id ∧ id ∉ db.webhookEvents)) ∨
      ((cfg.event id).type = .succeeded ∧ id ∉ db.webhookEvents) := by
  have hpaid : db.paymentStatus q.id = some .PAID ↔ q.status = .PAID := by
    simp [Db.paymentStatus, hq]
  cases h with
  | ignored why =>
    rcases why with hid | ⟨hs, hp⟩ | hother
    · simp [hid]
    · simp [hpaid, hp, Unpays, hs]
    · simp [Unpays, hother]
  | @succeeded b charge time type new =>
    have hset : (db.applyAll (.eventInsert id :: .paymentSet [q.id] (.paid charge time) ::
        if b.status = .PENDING then [.bookingSet [q.bookingId] .CONFIRMED] else [])).payments =
        Db.setPayments [q.id] (.paid charge time) db.payments := by
      split_ifs <;> rfl
    rw [Db.paymentStatus_set hset (by simp) hq]
    simp [PaymentChange.status, type, new]
  | @failed reason type new =>
    have hset : (db.applyAll [.eventInsert id, .paymentSet [q.id] (.failed reason)]).payments =
        Db.setPayments [q.id] (.failed reason) db.payments := rfl
    rw [Db.paymentStatus_set hset (by simp) hq]
    simp [PaymentChange.status, Unpays, type, new]
  | @processing ids type new mem =>
    have hset : (db.applyAll [.eventInsert id, .paymentSet ids .processing]).payments =
        Db.setPayments ids .processing db.payments := rfl
    rw [Db.paymentStatus_set hset mem hq]
    simp [PaymentChange.status, Unpays, type, new]

/-- A delivery confirms a PENDING booking or leaves it as it is. -/
theorem bookingStatus (h : Delivered cfg id q db db') :
    db'.bookingStatus q.bookingId = db.bookingStatus q.bookingId ∨
      db'.bookingStatus q.bookingId = some .CONFIRMED := by
  cases h with
  | ignored => exact .inl rfl
  | @succeeded b charge time _ _ _ hb =>
    by_cases hp : b.status = .PENDING
    · right
      rw [if_pos hp]
      have hset : (db.applyAll [.eventInsert id, .paymentSet [q.id] (.paid charge time),
          .bookingSet [q.bookingId] .CONFIRMED]).bookings =
          Db.setBookings [q.bookingId] .CONFIRMED db.bookings := rfl
      rw [Db.bookingStatus, Db.booking?_set hset, if_pos (by simp), hb]
      rfl
    · rw [if_neg hp]
      exact .inl rfl
  | failed => exact .inl rfl
  | processing => exact .inl rfl

theorem mem_events (h : Delivered cfg id q db db') {id' : EventId} (hid : id' ∈ db'.webhookEvents) :
    id' ∈ db.webhookEvents ∨ id' = id := by
  cases h with
  | ignored => exact .inl hid
  | succeeded =>
    have hid := Db.event_of_applyAll.mp hid
    split_ifs at hid <;> simpa using hid
  | failed => simpa using Db.event_of_applyAll.mp hid
  | processing => simpa using Db.event_of_applyAll.mp hid

theorem row (h : Delivered cfg id q db db') (hq : db.payment? q.id = some q) :
    ∃ q', db'.payment? q.id = some q' ∧ q'.bookingId = q.bookingId := by
  have hset : ∀ ids change, db'.payments = Db.setPayments ids change db.payments →
      ∃ q', db'.payment? q.id = some q' ∧ q'.bookingId = q.bookingId := by
    intro ids change hp
    rw [Db.payment?_set hp, hq]
    split_ifs
    · exact ⟨change.set q, rfl, change.set_bookingId q⟩
    · exact ⟨q, rfl, rfl⟩
  cases h with
  | ignored => exact ⟨q, hq, rfl⟩
  | @succeeded b charge time => exact hset [q.id] (.paid charge time) (by split_ifs <;> rfl)
  | @failed reason => exact hset [q.id] (.failed reason) rfl
  | @processing ids => exact hset ids .processing rfl

end PaymentService.Delivered

/-- The state in which the events of a payment are delivered: no call is inside a
transaction, and the payment row is there. -/
structure Ready (cfg : Config) (p : Payment) (t : Sys) : Prop where
  keeps : t.Keeps cfg (World.Ledger cfg)
  quiet : t.Quiet
  row : ∃ q, t.world.db.payment? p.id = some q ∧ q.bookingId = p.bookingId

/-- One delivery to a system that is ready. -/
theorem Ready.serve (h : Ready cfg p t) (hi : (cfg.event id).intent = ⟨p.bookingId⟩) :
    Ready cfg p ((service cfg).serve t (.handleWebhook (some id))) ∧
    ∃ q, t.world.db.payment? p.id = some q ∧ q.id = p.id ∧ q.bookingId = p.bookingId ∧
      PaymentService.Delivered cfg id q t.world.db
        ((service cfg).serve t (.handleWebhook (some id))).world.db := by
  obtain ⟨q, hq, hb⟩ := h.row
  obtain ⟨hm, hid⟩ := Db.mem_of_payment? hq
  have hv : t.world.db.Valid cfg := h.keeps.inv.1.valid
  have hqi : q.stripePaymentIntentId = (cfg.event id).intent := by
    rw [hi, hv.intents q hm, hb]
  obtain ⟨w', hs, hd⟩ : ∃ w', (engine cfg).solo ⟨t.threads.length, .handleWebhook (some id)⟩
      (PaymentService.handleWebhook cfg (some id)) .idle t.world = (.ok .success, .idle, w') ∧
      PaymentService.Delivered cfg id q t.world.db w'.db :=
    PaymentService.solo_handleWebhook hv hm hqi
  have hserve := Service.serve_of_solo (service cfg) hs
  refine ⟨⟨h.keeps.serve (stable_ledger cfg) h.quiet rfl, ?_, ?_⟩, q, hq, hid, hb, ?_⟩
  · rw [hserve]
    intro u hu
    rcases List.mem_append.mp hu with hu | hu
    · exact h.quiet u hu
    · rw [List.mem_singleton.mp hu]
  · rw [hserve]
    obtain ⟨q', hq', hb'⟩ := hd.row (hid ▸ hq)
    exact ⟨q', hid ▸ hq', hb'.trans hb⟩
  · rw [hserve]
    exact hd

/-! ### Many deliveries -/

theorem deliver_cons (cfg : Config) (t : Sys) (id : EventId) (ids : List EventId) :
    deliver cfg t (id :: ids) =
      deliver cfg ((service cfg).serve t (.handleWebhook (some id))) ids := rfl

theorem Ready.deliver (h : Ready cfg p t) (hi : ∀ id ∈ ids, (cfg.event id).intent = ⟨p.bookingId⟩) :
    Ready cfg p (deliver cfg t ids) := by
  induction ids generalizing t with
  | nil => exact h
  | cons id ids ih =>
    exact ih (h.serve (hi id (by simp))).1 fun id' hid => hi id' (by simp [hid])

/-- Where the deliveries leave the payment. -/
theorem Ready.paid_iff (h : Ready cfg p t)
    (hi : ∀ id ∈ ids, (cfg.event id).intent = ⟨p.bookingId⟩) :
    (TurfSync.deliver cfg t ids).world.db.paymentStatus p.id = some .PAID ↔ Repaired cfg t ids ∧
      (t.world.db.paymentStatus p.id = some .PAID ∨ PaidLater cfg t ids) := by
  induction ids generalizing t with
  | nil => simp [TurfSync.deliver, Repaired, PaidLater]
  | cons id ids ih =>
    obtain ⟨hready, q, hq, hid, -, hd⟩ := h.serve (hi id (by simp))
    have hrest := ih hready fun id' hid => hi id' (by simp [hid])
    have hpaid := hd.paid_iff (hid ▸ hq)
    rw [hid] at hpaid
    rw [deliver_cons, hrest, hpaid]
    by_cases hback : Unpays cfg id ∧ id ∉ t.world.db.webhookEvents
    · have hs : (cfg.event id).type ≠ .succeeded := by
        intro hs
        rcases hback.1 with hu | hu
        · rw [hs] at hu
          cases hu
        · rw [hs] at hu
          cases hu
      simp only [Repaired, PaidLater, hback, hs, not_true_eq_false, and_false, false_and, or_self,
        false_or, not_false_eq_true, and_self, forall_const]
      constructor
      · rintro ⟨hr, hl⟩
        exact ⟨⟨hl, hr⟩, .inr hl⟩
      · rintro ⟨⟨hl, hr⟩, -⟩
        exact ⟨hr, hl⟩
    · have hkeep : Unpays cfg id → id ∉ t.world.db.webhookEvents →
          PaidLater cfg ((service cfg).serve t (.handleWebhook (some id))) ids :=
        fun hu hn => absurd ⟨hu, hn⟩ hback
      simp only [Repaired, PaidLater, hback, not_false_eq_true, and_true, or_assoc]
      constructor
      · rintro ⟨hr, h⟩
        exact ⟨⟨hkeep, hr⟩, h⟩
      · rintro ⟨⟨-, hr⟩, h⟩
        exact ⟨hr, h⟩

/-- A success event that is not registered yet is new when it is first delivered. -/
theorem Ready.paidLater (h : Ready cfg p t)
    (hi : ∀ id ∈ ids, (cfg.event id).intent = ⟨p.bookingId⟩)
    (hs : ∃ id ∈ ids, (cfg.event id).type = .succeeded ∧ id ∉ t.world.db.webhookEvents) :
    PaidLater cfg t ids := by
  induction ids generalizing t with
  | nil => simp at hs
  | cons id ids ih =>
    obtain ⟨hready, q, -, -, -, hd⟩ := h.serve (hi id (by simp))
    by_cases hnew : (cfg.event id).type = .succeeded ∧ id ∉ t.world.db.webhookEvents
    · exact .inl hnew
    · right
      refine ih hready (fun id' hid => hi id' (by simp [hid])) ?_
      obtain ⟨id', hm, hs', hn⟩ := hs
      rcases List.mem_cons.mp hm with rfl | hm
      · exact absurd ⟨hs', hn⟩ hnew
      · refine ⟨id', hm, hs', fun hreg => ?_⟩
        rcases hd.mem_events hreg with hreg | rfl
        · exact hn hreg
        · exact hnew ⟨hs', hn⟩

theorem Ready.bookingStatus (h : Ready cfg p t)
    (hi : ∀ id ∈ ids, (cfg.event id).intent = ⟨p.bookingId⟩)
    (hb : t.world.db.bookingStatus p.bookingId = some .PENDING ∨
      t.world.db.bookingStatus p.bookingId = some .CONFIRMED) :
    (TurfSync.deliver cfg t ids).world.db.bookingStatus p.bookingId = some .PENDING ∨
      (TurfSync.deliver cfg t ids).world.db.bookingStatus p.bookingId = some .CONFIRMED := by
  induction ids generalizing t with
  | nil => exact hb
  | cons id ids ih =>
    obtain ⟨hready, q, -, -, hqb, hd⟩ := h.serve (hi id (by simp))
    refine ih hready (fun id' hid => hi id' (by simp [hid])) ?_
    have hstep := hd.bookingStatus
    rw [hqb] at hstep
    rcases hstep with hstep | hstep
    · rw [hstep]
      exact hb
    · exact .inr hstep

/-- From any state of any run in which a payment is stored, its booking is PENDING and
no call is inside a transaction: deliveries of events of its intent, with a success
among them, leave the payment PAID and the booking CONFIRMED, if and only if every
failed or processing event that takes effect is followed by a success that does. -/
theorem deliveries_pay_iff {s : Sys} {as : List Act} (hs : s.Fresh)
    (hq : ((service cfg).run s as).Quiet) (hp : p ∈ ((service cfg).run s as).world.db.payments)
    (hpend : ((service cfg).run s as).world.db.bookingStatus p.bookingId = some .PENDING)
    (hi : ∀ id ∈ ids, (cfg.event id).intent = p.stripePaymentIntentId)
    (hsucc : ∃ id ∈ ids, (cfg.event id).type = .succeeded) :
    ((deliver cfg ((service cfg).run s as) ids).world.db.paymentStatus p.id = some .PAID ∧
      (deliver cfg ((service cfg).run s as) ids).world.db.bookingStatus p.bookingId =
        some .CONFIRMED) ↔ Repaired cfg ((service cfg).run s as) ids := by
  have hkeeps : Sys.Keeps cfg (World.Ledger cfg) ((service cfg).run s as) :=
    (hs.initial.always (stable_ledger cfg) hs.ledger).last
  generalize (service cfg).run s as = t at *
  have hv : t.world.db.Valid cfg := hkeeps.inv.1.valid
  have hi : ∀ id ∈ ids, (cfg.event id).intent = ⟨p.bookingId⟩ :=
    fun id hid => (hi id hid).trans (hv.intents p hp)
  have hready : Ready cfg p t := ⟨hkeeps, hq, p, hv.payment?_of_mem hp, rfl⟩
  -- a success that is registered would have settled the booking
  have hnew : ∀ id ∈ ids, (cfg.event id).type = .succeeded → id ∉ t.world.db.webhookEvents := by
    intro id hid htype hreg
    obtain ⟨p', hp', hi', hset⟩ := hkeeps.inv.2.processed id hreg htype
    obtain rfl := hv.eq_of_intent hp hp' (hi'.trans ((hi id hid).trans (hv.intents p hp).symm))
    obtain ⟨b, hb, hstatus⟩ := hset.booking
    rw [Db.bookingStatus, hb] at hpend
    exact hstatus (Option.some.inj hpend)
  have hlater : PaidLater cfg t ids := by
    obtain ⟨id, hid, htype⟩ := hsucc
    exact hready.paidLater hi ⟨id, hid, htype, hnew id hid htype⟩
  have hpaid := hready.paid_iff hi
  constructor
  · exact fun h => (hpaid.mp h.1).1
  · intro hrep
    have hend := hpaid.mpr ⟨hrep, .inr hlater⟩
    refine ⟨hend, ?_⟩
    rcases hready.bookingStatus hi (.inl hpend) with hb | hb
    · have hlast := (hready.deliver hi).keeps.inv.2
      obtain ⟨q, hq, hqs⟩ := Option.map_eq_some_iff.mp hend
      obtain ⟨hm, hid⟩ := Db.mem_of_payment? hq
      obtain ⟨q', hq', hqb⟩ := (hready.deliver hi).row
      obtain rfl := Option.some.inj (hq.symm.trans hq')
      obtain ⟨b, hbm, hstatus⟩ := (hlast.paid q hm hqs).booking
      rw [hqb] at hbm
      rw [Db.bookingStatus, hbm] at hb
      exact absurd (Option.some.inj hb) hstatus
    · exact hb

/-- User 7 has booked slot 1 and asked for a payment intent. -/
def Arena.ordered : List Act :=
  first 0 (.create (dto 1 none) 7 0) 20 ++ first 1 (.createPaymentIntent 101 7) 5

theorem deliveries_pay_ordered :
    let t := deliver (Arena.cfg true) ((service (Arena.cfg true)).run Arena.sys Arena.ordered)
      [3, 2, 1, 2]
    t.world.db.paymentStatus 102 = some .PAID ∧ t.world.db.bookingStatus 101 = some .CONFIRMED :=
  (@deliveries_pay_iff (Arena.cfg true) (newPayment 102 101 1000 "usd" ⟨101⟩ ⟨⟨101⟩⟩) [3, 2, 1, 2]
    Arena.sys Arena.ordered Arena.fresh (by decide +kernel) (by decide +kernel) (by decide +kernel)
    (by decide +kernel) ⟨1, by decide, rfl⟩).mpr (by decide +kernel)

/-- The failure of a first attempt is delivered after the success. -/
theorem deliveries_pay_fails :
    let s := (service (Arena.cfg true)).run Arena.sys Arena.ordered
    let t := deliver (Arena.cfg true) s [1, 2]
    s.Quiet ∧ s.world.db.paymentStatus 102 = some .INITIATED ∧
      s.world.db.bookingStatus 101 = some .PENDING ∧
      ¬ (t.world.db.paymentStatus 102 = some .PAID ∧
        t.world.db.bookingStatus 101 = some .CONFIRMED) := by
  decide +kernel

end TurfSync
