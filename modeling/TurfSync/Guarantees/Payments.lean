import TurfSync.Guarantees.Slots

/-! The status of a payment. A refund is final unless `createPaymentIntent` or a webhook
writes the refunded row again, and a confirmed or completed booking stays paid unless
one of these writes its payment, or it is completed after it was cancelled. None of them
looks at the status when it writes. -/

namespace TurfSync

open Txn

/-- CONFIRMED or COMPLETED. -/
def Booking.Granted (b : Booking) : Prop := b.status = .CONFIRMED ∨ b.status = .COMPLETED

instance (b : Booking) : Decidable b.Granted := inferInstanceAs (Decidable (_ ∨ _))

namespace Db

variable {cfg : Config} {db db' : Db} {ids : List PaymentId} {change : PaymentChange} {p : Payment}

/-! ### Refunded payments -/

/-- Payment `id` is REFUNDED. -/
def Refunded (db : Db) (id : PaymentId) : Prop := ∃ p ∈ db.payment? id, p.status = .REFUNDED

instance (db : Db) (id : PaymentId) : Decidable (db.Refunded id) :=
  inferInstanceAs (Decidable (∃ p ∈ db.payment? id, _))

/-- Every REFUNDED payment stays so. -/
def StaysRefunded (db db' : Db) : Prop := ∀ id, db.Refunded id → db'.Refunded id

theorem staysRefunded_insert (h : db'.payments = db.payments ++ [p]) : db.StaysRefunded db' := by
  rintro id ⟨p', hp', hs⟩
  refine ⟨p', ?_, hs⟩
  rw [payment?_insert h, hp']
  rfl

theorem staysRefunded_set (hv : db.Valid cfg) (h : db'.payments = setPayments ids change db.payments) :
    db.StaysRefunded db' ↔
      ∀ p ∈ db.payments, p.status = .REFUNDED → p.id ∈ ids → change.status = .REFUNDED := by
  constructor
  · intro hstay p hp hs hid
    obtain ⟨p', hp', hs'⟩ := hstay p.id ⟨p, hv.payment?_of_mem hp, hs⟩
    rw [payment?_set h, if_pos hid, hv.payment?_of_mem hp] at hp'
    obtain rfl := Option.some.inj hp'
    rw [← change.set_status p, hs']
  · rintro hstay id ⟨p, hp, hs⟩
    obtain ⟨hm, hpid⟩ := mem_of_payment? hp
    rw [Refunded, payment?_set h, hp]
    by_cases hid : id ∈ ids
    · rw [if_pos hid]
      exact ⟨_, rfl, (change.set_status p).trans (hstay p hm hs (hpid ▸ hid))⟩
    · rw [if_neg hid]
      exact ⟨p, rfl, hs⟩

/-! ### Paid bookings -/

/-- Every CONFIRMED or COMPLETED booking has a PAID payment. -/
def PaidUp (db : Db) : Prop :=
  ∀ b ∈ db.bookings, b.Granted → ∃ p ∈ db.payments, p.bookingId = b.id ∧ p.status = .PAID

instance (db : Db) : Decidable db.PaidUp := inferInstanceAs (Decidable (∀ b ∈ db.bookings, _))

/-- The granted bookings were granted before, and their PAID payments stay so. -/
theorem PaidUp.of_back (h : db.PaidUp)
    (hback : ∀ b' ∈ db'.bookings, b'.Granted → ∃ b ∈ db.bookings, b.id = b'.id ∧ b.Granted)
    (hpaid : ∀ p ∈ db.payments, p.status = .PAID →
      (∃ b' ∈ db'.bookings, b'.Granted ∧ p.bookingId = b'.id) →
      ∃ p' ∈ db'.payments, p'.bookingId = p.bookingId ∧ p'.status = .PAID) : db'.PaidUp := by
  intro b' hb' hg'
  obtain ⟨b, hb, hid, hg⟩ := hback b' hb' hg'
  obtain ⟨p, hp, hpb, hs⟩ := h b hb hg
  obtain ⟨p', hp', hpb', hs'⟩ := hpaid p hp hs ⟨b', hb', hg', hpb.trans hid⟩
  exact ⟨p', hp', hpb'.trans (hpb.trans hid), hs'⟩

/-- Bookings are cancelled. -/
theorem PaidUp.cancel (h : db.PaidUp) {ids : List BookingId}
    (hb : db'.bookings = setBookings ids .CANCELLED db.bookings)
    (hpaid : ∀ p ∈ db.payments, p.status = .PAID → p.bookingId ∉ ids → p ∈ db'.payments) :
    db'.PaidUp := by
  have hback : ∀ b' ∈ db'.bookings, b'.Granted → b' ∈ db.bookings ∧ b'.id ∉ ids := by
    intro b' hb' hg
    rw [hb] at hb'
    obtain ⟨b, hm, rfl⟩ := Rows.mem_update.mp hb'
    by_cases hid : b.id ∈ ids
    · rw [if_pos hid] at hg
      rcases hg with hg | hg <;> cases hg
    · rw [if_neg hid]
      exact ⟨hm, hid⟩
  refine h.of_back (fun b' hb' hg => ⟨b', (hback b' hb' hg).1, rfl, hg⟩) ?_
  rintro p hp hs ⟨b', hb', hg, hpb⟩
  exact ⟨p, hpaid p hp hs (hpb ▸ (hback b' hb' hg).2), rfl, hs⟩

/-- Payments are given another status. -/
theorem paidUp_set (hv : db.Valid cfg) (h : db.PaidUp) (hb : db'.bookings = db.bookings)
    (hp : db'.payments = setPayments ids change db.payments) (hst : change.status ≠ .PAID) :
    db'.PaidUp ↔ ∀ p ∈ db.payments, ∀ b ∈ db.bookings, p.bookingId = b.id → b.Granted →
      p.id ∉ ids := by
  constructor
  · intro h' p hpm b hbm hpb hg hid
    obtain ⟨p', hp', hpb', hs⟩ := h' b (hb ▸ hbm) hg
    rw [hp] at hp'
    obtain ⟨q, hq, rfl⟩ := Rows.mem_update.mp hp'
    have hqb : q.bookingId = p.bookingId := by
      rw [hpb, ← hpb']
      split_ifs
      · exact (change.set_bookingId q).symm
      · rfl
    obtain rfl := hv.eq_of_bookingId hpm hq hqb
    rw [if_pos hid, change.set_status] at hs
    exact hst hs
  · intro hnone
    refine h.of_back (fun b' hb' hg => ⟨b', hb ▸ hb', rfl, hg⟩) ?_
    rintro p hpm hs ⟨b', hb', hg, hpb⟩
    have hid := hnone p hpm b' (hb ▸ hb') hpb hg
    exact ⟨p, hp ▸ Rows.mem_update.mpr ⟨p, hpm, (if_neg hid).symm⟩, rfl, hs⟩

/-- A booking is given a status, and has a PAID payment if that status is granted. -/
theorem PaidUp.restatus (h : db.PaidUp) {b : Booking} {status : BookingStatus}
    (hb : db'.bookings = setBookings [b.id] status db.bookings)
    (hkeep : ∀ p ∈ db.payments, p.status = .PAID →
      ∃ p' ∈ db'.payments, p'.bookingId = p.bookingId ∧ p'.status = .PAID)
    (hpaid : ∃ p ∈ db'.payments, p.bookingId = b.id ∧ p.status = .PAID) : db'.PaidUp := by
  intro b' hb' hg
  rw [hb] at hb'
  obtain ⟨b₀, hm, rfl⟩ := Rows.mem_update.mp hb'
  by_cases hid : b₀.id ∈ [b.id]
  · rw [if_pos hid]
    obtain ⟨p, hp, hpb, hs⟩ := hpaid
    exact ⟨p, hp, hpb.trans (List.mem_singleton.mp hid).symm, hs⟩
  · rw [if_neg hid] at hg ⊢
    obtain ⟨p, hp, hpb, hs⟩ := h b₀ hm hg
    obtain ⟨p', hp', hpb', hs'⟩ := hkeep p hp hs
    exact ⟨p', hp', hpb'.trans hpb, hs'⟩

end Db

namespace Call

/-- The booking whose payment a commit of the call writes, whatever the status of the payment:
`createPaymentIntent` upserts that of its booking, a webhook updates that of its intent. -/
def rewrites (cfg : Config) : Call → Option BookingId
  | .createPaymentIntent bookingId _ => some bookingId
  | .handleWebhook (some id) => some (cfg.event id).intent.bookingId
  | _ => none

/-- The booking of a payment that a commit of the call leaves unpaid. -/
def unpays (cfg : Config) : Call → Option BookingId
  | .createPaymentIntent bookingId _ => some bookingId
  | .handleWebhook (some id) =>
    if (cfg.event id).type = .succeeded then none else some (cfg.event id).intent.bookingId
  | _ => none

/-- A delivery of a processing event. It writes the rows that its statement has found, and a
payment may be inserted after that. -/
def Processing (cfg : Config) : Call → Prop
  | .handleWebhook (some id) => (cfg.event id).type = .processing
  | _ => False

theorem unpays_rewrites {cfg : Config} {c : Call} {id : BookingId} (h : c.unpays cfg = some id) :
    c.rewrites cfg = some id := by
  cases c with
  | handleWebhook event =>
    cases event with
    | none => cases h
    | some event =>
      simp only [unpays] at h
      split_ifs at h
      exact h
  | createPaymentIntent => exact h
  | _ => cases h

end Call

/-- What a commit of the call does to the payments: nothing; a new row; rows that are refunded;
or rows of the booking that the call rewrites, all of them unless the event is a processing
one. -/
inductive PaymentStep (cfg : Config) (c : Call) (payments : List Payment) : List Payment → Prop
  | same (call : c.rewrites cfg = none) : PaymentStep cfg c payments payments
  | insert {p} (call : c.rewrites cfg = some p.bookingId)
      (new : ∀ q ∈ payments, q.bookingId ≠ p.bookingId) : PaymentStep cfg c payments (payments ++ [p])
  | refund {ids} (call : c.rewrites cfg = none) :
      PaymentStep cfg c payments (Db.setPayments ids .refunded payments)
  | rewrite {ids change} (status : change.status ≠ .REFUNDED)
      (paid : change.status = .PAID ↔ c.unpays cfg = none)
      (only : ∀ p ∈ payments, p.id ∈ ids → c.rewrites cfg = some p.bookingId)
      (all : ¬ c.Processing cfg → ∀ p ∈ payments, c.rewrites cfg = some p.bookingId → p.id ∈ ids) :
      PaymentStep cfg c payments (Db.setPayments ids change payments)

namespace Commits

variable {cfg : Config} {c : Session Call} {w : World} {ws : List Write}

theorem paymentStep (hv : w.db.Valid cfg) (hc : Commits cfg c w ws) :
    PaymentStep cfg c.call w.db.payments (w.db.applyAll ws).payments := by
  have honly : ∀ {p : Payment}, p ∈ w.db.payments → c.call.rewrites cfg = some p.bookingId →
      ∀ q ∈ w.db.payments, q.id ∈ [p.id] → c.call.rewrites cfg = some q.bookingId := by
    intro p hp hcall q hq hid
    rw [Rows.eq_of_key hv.payments hq hp (List.mem_singleton.mp hid)]
    exact hcall
  have hall : ∀ {p : Payment}, p ∈ w.db.payments → c.call.rewrites cfg = some p.bookingId →
      ∀ q ∈ w.db.payments, c.call.rewrites cfg = some q.bookingId → q.id ∈ [p.id] := by
    intro p hp hcall q hq hcall'
    rw [hcall] at hcall'
    rw [hv.eq_of_bookingId hp hq (Option.some.inj hcall').symm]
    exact List.mem_singleton_self _
  cases hc with
  | @initiate bookingId userId p call hbooking _ _ hfits =>
    have hcall : c.call.rewrites cfg = some p.bookingId := by rw [call, hbooking]; rfl
    exact .insert hcall fun q hq => (hfits.1 q hq).2
  | @reinitiate bookingId userId p call hbooking hp =>
    have hcall : c.call.rewrites cfg = some p.bookingId := by rw [call, hbooking]; rfl
    exact .rewrite nofun (by simp [call, Call.unpays, PaymentChange.status]) (honly hp hcall)
      fun _ => hall hp hcall
  | @succeeded id p b charge time call htype _ hp hi =>
    have hcall : c.call.rewrites cfg = some p.bookingId := by
      rw [call, ← hv.intent_bookingId hp hi]
      rfl
    have hset : ∀ xs : List Write, (xs = [.bookingSet [b.id] .CONFIRMED] ∨ xs = []) →
        (w.db.applyAll (.eventInsert id :: .paymentSet [p.id] (.paid charge time) :: xs)).payments =
          Db.setPayments [p.id] (.paid charge time) w.db.payments := by
      rintro xs (rfl | rfl) <;> rfl
    rw [hset _ (by split_ifs <;> simp)]
    exact .rewrite nofun (by simp [call, Call.unpays, htype, PaymentChange.status])
      (honly hp hcall) fun _ => hall hp hcall
  | @failed id p reason call htype _ hp hi =>
    have hcall : c.call.rewrites cfg = some p.bookingId := by
      rw [call, ← hv.intent_bookingId hp hi]
      rfl
    exact .rewrite nofun (by simp [call, Call.unpays, htype, PaymentChange.status])
      (honly hp hcall) fun _ => hall hp hcall
  | @processing id ids call htype _ hintents =>
    refine .rewrite nofun (by simp [call, Call.unpays, htype, PaymentChange.status])
      (fun q hq hid => ?_) fun hproc => absurd ?_ hproc
    · rw [call, ← hv.intent_bookingId hq (hintents q hq hid)]
      rfl
    · rw [call]
      exact htype
  | @refund userId p b freed call =>
    have hset : (w.db.applyAll (.paymentSet [p.id] .refunded :: .bookingSet [b.id] .CANCELLED ::
        release freed)).payments = Db.setPayments [p.id] .refunded w.db.payments :=
      payments_release _ _
    rw [hset]
    exact .refund (by rw [call]; rfl)
  | cancel call | cleanup call =>
    rw [Db.applyAll_cons, payments_release]
    exact .same (by rw [call]; rfl)
  | complete call =>
    refine .same ?_
    rcases call with ⟨_, call⟩ | ⟨_, call⟩ <;> rw [call] <;> rfl
  | nothing call | book call | applyCoupon call | audit call => exact .same (by rw [call]; rfl)

end Commits

/-! ### Refunds -/

/-- The payment that a commit of the call rewrites is not REFUNDED. -/
def SparesRefunds (cfg : Config) (c : Call) (db : Db) : Prop :=
  ∀ p ∈ db.payments, c.rewrites cfg = some p.bookingId → p.status ≠ .REFUNDED

instance (cfg : Config) (c : Call) (db : Db) : Decidable (SparesRefunds cfg c db) :=
  inferInstanceAs (Decidable (∀ p ∈ db.payments, _))

namespace PaymentStep

variable {cfg : Config} {c : Call} {db db' : Db}

theorem staysRefunded (h : PaymentStep cfg c db.payments db'.payments) (hv : db.Valid cfg)
    (hspares : SparesRefunds cfg c db) : db.StaysRefunded db' := by
  generalize hp : db'.payments = payments at h
  cases h with
  | same =>
    intro id hid
    rw [Db.Refunded, Db.payment?, hp]
    exact hid
  | insert => exact Db.staysRefunded_insert hp
  | refund => exact (Db.staysRefunded_set hv hp).mpr fun _ _ _ _ => rfl
  | rewrite _ _ only =>
    exact (Db.staysRefunded_set hv hp).mpr fun p hp hs hid => absurd hs (hspares p hp (only p hp hid))

theorem sparesRefunds (h : PaymentStep cfg c db.payments db'.payments) (hv : db.Valid cfg)
    (hstays : db.StaysRefunded db') (hproc : ¬ c.Processing cfg) : SparesRefunds cfg c db := by
  intro p hp hcall hs
  generalize hpayments : db'.payments = payments at h
  cases h with
  | same call => exact nomatch call.symm.trans hcall
  | insert call new => exact new p hp (Option.some.inj (call.symm.trans hcall)).symm
  | refund call => exact nomatch call.symm.trans hcall
  | rewrite status _ _ all =>
    exact status ((Db.staysRefunded_set hv hpayments).mp hstays p hp hs (all hproc p hp hcall))

end PaymentStep

/-- A payment that is REFUNDED at some point of the run is REFUNDED at every later one. -/
def RefundsFinal (cfg : Config) (s : Sys) (as : List Act) : Prop :=
  ∀ pre mid post, as = pre ++ mid ++ post → ∀ id,
    ((service cfg).run s pre).world.db.Refunded id →
      ((service cfg).run s (pre ++ mid)).world.db.Refunded id

/-- Along every run refunds are final, if no commit of `createPaymentIntent` or of a webhook
finds the payment it rewrites REFUNDED; and only if, processing events apart. -/
theorem refunded_stays {cfg : Config} {s : Sys} {as : List Act} (hs : s.Initial cfg) :
    ((service cfg).Each (OnCommit cfg fun c _ db => SparesRefunds cfg c db) s as →
      RefundsFinal cfg s as) ∧
    (RefundsFinal cfg s as → (service cfg).Each
      (OnCommit cfg fun c _ db => ¬ c.Processing cfg → SparesRefunds cfg c db) s as) := by
  have hstays : (service cfg).Each (fun t a => t.world.db.StaysRefunded
      ((service cfg).step t a).world.db) s as ↔ RefundsFinal cfg s as :=
    Service.each_stays (F := fun id (t : Sys) => t.world.db.Refunded id)
  refine ⟨fun hspares => hstays.mp ?_, fun hfinal => ?_⟩
  · exact each_of_commits hs stable_true trivial (T := Db.StaysRefunded) (fun _ _ h => h)
      (fun hw _ hc => (hc.paymentStep hw.valid).staysRefunded hw.valid) hspares
  · exact commits_of_each hs stable_true trivial (T := Db.StaysRefunded)
      (fun hw _ hc => (hc.paymentStep hw.valid).sparesRefunds hw.valid) (hstays.mpr hfinal)

/-- A refund stays while another payment intent is being asked for. -/
theorem refunded_stays_sold :
    ((service (Arena.cfg true)).run Arena.sys (Arena.sold ++ Arena.first 3 (.refund 101 7) 12 ++
      Arena.first 4 (.createPaymentIntent 101 7) 1)).world.db.Refunded 102 :=
  (refunded_stays Arena.fresh.initial).1 (by decide +kernel) _ _ [] rfl 102
    (show ((service (Arena.cfg true)).run Arena.sys
      (Arena.sold ++ Arena.first 3 (.refund 101 7) 12)).world.db.Refunded 102 by decide +kernel)

/-- After a refund the client asks for a payment intent once more. -/
theorem refunded_stays_fails :
    ((service (Arena.cfg true)).run Arena.sys
      (Arena.sold ++ Arena.first 3 (.refund 101 7) 12)).world.db.Refunded 102 ∧
    ¬ ((service (Arena.cfg true)).run Arena.sys (Arena.sold ++ Arena.first 3 (.refund 101 7) 12 ++
      Arena.first 4 (.createPaymentIntent 101 7) 5)).world.db.Refunded 102 := by
  decide +kernel

/-! ### Granted bookings -/

/-- A commit that leaves a payment unpaid finds its booking neither CONFIRMED nor COMPLETED,
and a completion finds its booking not CANCELLED. -/
def SparesGranted (cfg : Config) (c : Call) (ws : List Write) (db : Db) : Prop :=
  ∀ b ∈ db.bookings, (c.unpays cfg = some b.id → ¬ b.Granted) ∧
    (ws = [.bookingSet [b.id] .COMPLETED] → b.status ≠ .CANCELLED)

instance (cfg : Config) (c : Call) (ws : List Write) (db : Db) :
    Decidable (SparesGranted cfg c ws db) :=
  inferInstanceAs (Decidable (∀ b ∈ db.bookings, _))

namespace Commits

variable {cfg : Config} {c : Session Call} {w : World} {ws : List Write}

/-- Only payments, if any, are changed by the calls that leave one unpaid. -/
theorem bookings_of_unpays (hc : Commits cfg c w ws) {id : BookingId}
    (hcall : c.call.unpays cfg = some id) : (w.db.applyAll ws).bookings = w.db.bookings := by
  cases hc with
  | initiate | reinitiate | failed | processing => rfl
  | succeeded call htype => simp [call, Call.unpays, htype] at hcall
  | complete call =>
    rcases call with ⟨_, call⟩ | ⟨_, call⟩
    · simp [call, Call.unpays] at hcall
    · simp [call, Call.unpays] at hcall
  | nothing call | book call | applyCoupon call | cancel call | cleanup call | refund call
  | audit call => simp [call, Call.unpays] at hcall

/-- A call that leaves a payment unpaid finds its booking not granted. -/
theorem paidUp_of_unpays (hv : w.db.Valid cfg) (h : w.db.PaidUp) (hc : Commits cfg c w ws)
    {id : BookingId} (hcall : c.call.unpays cfg = some id)
    (hspares : ∀ b ∈ w.db.bookings, b.id = id → ¬ b.Granted) : (w.db.applyAll ws).PaidUp := by
  have hbookings := hc.bookings_of_unpays hcall
  have hrewrites := Call.unpays_rewrites hcall
  have hstep := hc.paymentStep hv
  generalize hpayments : (w.db.applyAll ws).payments = payments at hstep
  cases hstep with
  | same call => exact nomatch call.symm.trans hrewrites
  | insert =>
    refine h.of_back (fun b hb hg => ⟨b, hbookings ▸ hb, rfl, hg⟩) fun p hp hs _ => ?_
    exact ⟨p, hpayments ▸ List.mem_append_left _ hp, rfl, hs⟩
  | refund call => exact nomatch call.symm.trans hrewrites
  | rewrite _ paid only =>
    refine (Db.paidUp_set hv h hbookings hpayments (mt paid.mp (by simp [hcall]))).mpr ?_
    intro p hp b hb hpb hg hid
    have hbooking := Option.some.inj ((only p hp hid).symm.trans hrewrites)
    exact hspares b hb (hpb.symm.trans hbooking) hg

theorem paidUp (hv : w.db.Valid cfg) (h : w.db.PaidUp) (hc : Commits cfg c w ws)
    (hspares : SparesGranted cfg c.call ws w.db) : (w.db.applyAll ws).PaidUp := by
  have hc' := hc
  cases hc with
  | @book _ _ _ b _ _ _ _ hstatus =>
    refine h.of_back (fun b' hb' hg => ?_) fun p hp hs _ => ⟨p, hp, rfl, hs⟩
    rcases List.mem_append.mp hb' with hb' | hb'
    · exact ⟨b', hb', rfl, hg⟩
    · rw [List.mem_singleton.mp hb', Booking.Granted, hstatus] at hg
      rcases hg with hg | hg <;> cases hg
  | cancel | cleanup =>
    refine h.cancel (bookings_vacate _ _ _ _) fun p hp _ _ => ?_
    rw [Db.applyAll_cons, payments_release]
    exact hp
  | @initiate bookingId _ _ call | @reinitiate bookingId _ _ call =>
    refine hc'.paidUp_of_unpays hv h (by rw [call]; rfl) fun b hb hid => (hspares b hb).1 ?_
    rw [call, hid]
    rfl
  | @failed event _ _ call htype | @processing event _ call htype =>
    have hcall : c.call.unpays cfg = some (cfg.event event).intent.bookingId := by
      simp only [call, Call.unpays, htype, reduceCtorEq, if_false]
    exact hc'.paidUp_of_unpays hv h hcall fun b hb hid => (hspares b hb).1 (hid ▸ hcall)
  | @succeeded id p b charge time _ _ _ hp _ hb hbp =>
    have hkeep : ∀ q ∈ w.db.payments, q.status = .PAID →
        ∃ q' ∈ Db.setPayments [p.id] (.paid charge time) w.db.payments,
          q'.bookingId = q.bookingId ∧ q'.status = .PAID := by
      intro q hq hs
      refine ⟨_, Rows.mem_update.mpr ⟨q, hq, rfl⟩, ?_⟩
      split_ifs
      · exact ⟨PaymentChange.set_bookingId _ _, rfl⟩
      · exact ⟨rfl, hs⟩
    by_cases hpend : b.status = .PENDING
    · rw [if_pos hpend]
      refine h.restatus rfl hkeep ?_
      exact ⟨_, Rows.mem_update.mpr ⟨p, hp, rfl⟩, by simp [PaymentChange.set, hbp]⟩
    · rw [if_neg hpend]
      exact h.of_back (fun b hb hg => ⟨b, hb, rfl, hg⟩) fun q hq hs _ => hkeep q hq hs
  | @refund _ p b freed _ hp hpb hb =>
    refine h.cancel (bookings_vacate _ _ _ _) fun q hq _ hid => ?_
    rw [Db.applyAll_cons, Db.applyAll_cons, payments_release]
    refine Rows.mem_update.mpr ⟨q, hq, (if_neg fun hm => ?_).symm⟩
    rw [Rows.eq_of_key hv.payments hq hp (List.mem_singleton.mp hm), hpb] at hid
    exact hid (List.mem_singleton.mpr rfl)
  | @complete b _ hb hst =>
    refine h.restatus rfl (fun p hp hs => ⟨p, hp, rfl, hs⟩) ?_
    cases hs : b.status with
    | PENDING => exact absurd hs hst
    | CANCELLED => exact absurd hs ((hspares b hb).2 rfl)
    | CONFIRMED => exact h b hb (.inl hs)
    | COMPLETED => exact h b hb (.inr hs)
  | _ => exact h

/-- A commit after which everything granted is paid has left no payment of a granted booking
unpaid, unless by a processing event. -/
theorem not_granted (hv : w.db.Valid cfg) (h : w.db.PaidUp) (hc : Commits cfg c w ws)
    (h' : (w.db.applyAll ws).PaidUp) (hproc : ¬ c.call.Processing cfg) {b : Booking}
    (hb : b ∈ w.db.bookings) (hcall : c.call.unpays cfg = some b.id) : ¬ b.Granted := by
  intro hg
  obtain ⟨p, hp, hpb, -⟩ := h b hb hg
  have hbookings := hc.bookings_of_unpays hcall
  have hrewrites : c.call.rewrites cfg = some p.bookingId := hpb ▸ Call.unpays_rewrites hcall
  have hstep := hc.paymentStep hv
  generalize hpayments : (w.db.applyAll ws).payments = payments at hstep
  cases hstep with
  | same call => exact nomatch call.symm.trans hrewrites
  | insert call new => exact new p hp (Option.some.inj (call.symm.trans hrewrites)).symm
  | refund call => exact nomatch call.symm.trans hrewrites
  | rewrite _ paid _ all =>
    have hunpaid := mt paid.mp (by simp [hcall])
    exact (Db.paidUp_set hv h hbookings hpayments hunpaid).mp h' p hp b hb hpb hg
      (all hproc p hp hrewrites)

/-- After the completion of a CANCELLED booking everything granted is paid only if its payment
is PAID. -/
theorem completed_paid (hc : Commits cfg c w ws) (h' : (w.db.applyAll ws).PaidUp) {b : Booking}
    (hb : b ∈ w.db.bookings) (hws : ws = [.bookingSet [b.id] .COMPLETED]) :
    ∃ p ∈ w.db.payments, p.bookingId = b.id ∧ p.status = .PAID := by
  subst hws
  have hmem : { b with status := .COMPLETED } ∈
      (w.db.applyAll [.bookingSet [b.id] .COMPLETED]).bookings :=
    Rows.mem_update.mpr ⟨b, hb, by simp⟩
  exact h' { b with status := .COMPLETED } hmem (.inr rfl)

end Commits

/-- Along a run every CONFIRMED or COMPLETED booking has a PAID payment, if no commit of
`createPaymentIntent` and of a failed or processing event finds its booking CONFIRMED or
COMPLETED, and no completion comes too late; and only if, processing events and completions of
bookings with a PAID payment apart. -/
theorem paidUp_run {cfg : Config} {s : Sys} {as : List Act} (hs : s.Fresh) :
    ((service cfg).Each (OnCommit cfg (SparesGranted cfg)) s as →
      (service cfg).Always (fun t => t.world.db.PaidUp) s as) ∧
    ((service cfg).Always (fun t => t.world.db.PaidUp) s as →
      (service cfg).Each (OnCommit cfg fun c ws db => ∀ b ∈ db.bookings,
        (¬ c.Processing cfg → c.unpays cfg = some b.id → ¬ b.Granted) ∧
        (ws = [.bookingSet [b.id] .COMPLETED] → b.status = .CANCELLED →
          ∃ p ∈ db.payments, p.bookingId = b.id ∧ p.status = .PAID)) s as) := by
  have hinit : s.world.db.PaidUp := by simp [Db.PaidUp, hs.db.bookings]
  refine ⟨fun hspares => ?_, fun hpaid => ?_⟩
  · exact always_of_commits hs.initial stable_true trivial (I := Db.PaidUp) hinit
      (fun hw _ h hc hspares => hc.paidUp hw.valid h hspares) hspares
  · refine commits_of_each hs.initial stable_true trivial (T := fun db db' => db.PaidUp ∧ db'.PaidUp)
      (fun hw _ hc h b hb => ⟨fun hproc hcall => ?_, fun hws _ => ?_⟩) hpaid.steps
    · exact hc.not_granted hw.valid h.1 h.2 hproc hb hcall
    · exact hc.completed_paid h.2 hb hws

theorem paidUp_sold :
    (service (Arena.cfg true)).Always (fun t => t.world.db.PaidUp) Arena.sys Arena.sold :=
  (paidUp_run Arena.fresh).1 (by decide +kernel)

/-- A second `createPaymentIntent` reads the booking before the payment exists and
writes it after the webhook. -/
theorem paidUp_fails :
    let t := (service (Arena.cfg true)).run Arena.sys
      (Arena.first 0 (.create (Arena.dto 1 none) 7 0) 20 ++
        Arena.first 1 (.createPaymentIntent 101 7) 2 ++
        Arena.first 2 (.createPaymentIntent 101 7) 5 ++ Arena.first 3 (.handleWebhook (some 1)) 12 ++
        [.run 1])
    t.Quiet ∧ ¬ t.world.db.PaidUp := by
  decide +kernel

end TurfSync
