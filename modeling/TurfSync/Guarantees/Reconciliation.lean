import TurfSync.Guarantees.Webhooks
import TurfSync.Protocol.Footprints
import TurfSync.Txn.Pending

/-! The payments table and Stripe agree. A refund is asked of Stripe by a call that has read
the payment as PAID, and a payment is marked REFUNDED by a call whose refund Stripe has made.
So every refund Stripe makes was earned by a charge that was recorded, no charge is refunded
twice, and a payment that is REFUNDED in the table was refunded. -/

namespace TurfSync

open Txn

/-- Where a call is with a refund: at its start; the payment it has read as PAID; the payment
whose refund Stripe has made; or none. -/
inductive Refunding where
  | fresh
  | paid (p : Payment)
  | made (p : Payment)
  | other
  deriving DecidableEq

/-- After a command that is about no refund. -/
def Refunding.on : Refunding → Refunding
  | .fresh => .other
  | g => g

/-- Only what was read as PAID is refunded, and only what was refunded is marked. -/
def refunding : Automaton Stmt Stmt.Reply Err Refunding where
  init := .fresh
  may g
    | .stmt (.query (.paymentDetail _)) => g = .fresh
    | .stmt (.external (.createRefund intent)) => ∃ p, g = .paid p ∧ intent = p.stripePaymentIntentId
    | .stmt (.update (.paymentUpdate id .refunded)) => ∃ p, g = .made p ∧ id = p.id
    | .stmt (.update (.paymentUpdateMany _ .refunded)) => False
    | _ => True
  answers _ _ := True
  next g
    | .stmt (.query (.paymentDetail _)), .ok (some d) =>
      if d.payment.status = .PAID then .paid d.payment else .other
    | .stmt (.external (.createRefund _)), .ok _ => match g with
      | .paid p => .made p
      | g => g.on
    | _, _ => g.on

/-- A statement that has nothing to do with refunds. -/
def Stmt.refundless : Stmt → Bool
  | .query (.paymentDetail _) => false
  | .external (.createRefund _) => false
  | .update (.paymentUpdate _ .refunded) => false
  | .update (.paymentUpdateMany _ .refunded) => false
  | _ => true

section

variable {g : Refunding} {s : Stmt} {α : Type} {p : Op α}

theorem may_refundless (hs : s.refundless = true) : refunding.may g (.stmt s) := by
  cases s with
  | query q => cases q <;> trivial
  | external x => cases x <;> trivial
  | update u =>
    cases u with
    | paymentUpdate id change => cases change <;> trivial
    | paymentUpdateMany intent change => cases change <;> trivial
    | _ => trivial
  | lock l => trivial

theorem next_refundless (hs : s.refundless = true) (r : Except Err s.Reply) :
    refunding.next g (.stmt s) r = g.on := by
  cases s with
  | query q => cases q <;> first | rfl | cases hs
  | external x => cases x <;> first | rfl | cases hs
  | _ => rfl

/-- A program without refunds. -/
theorem obeys_refundless (h : Stays Stmt.refundless p) {J : Refunding → Prop} (hJ : ∀ g, J g → J g.on)
    (hg : J g) : p.Obeys refunding g fun g' _ => J g' := by
  refine Script.obeys_mono (Script.obeys_of_uses ?_ h hg) fun _ _ h => h.1
  intro g m hm hj
  cases m with
  | stmt s => exact ⟨may_refundless hm, fun r => (next_refundless hm r).symm ▸ hJ g hj⟩
  | _ => exact ⟨trivial, fun _ => hJ g hj⟩

theorem handleWebhook_refundless (cfg : Config) (event : Option EventId) :
    Stays Stmt.refundless (PaymentService.handleWebhook cfg event) := by
  cases event with
  | none => trivial
  | some eventId =>
    refine stays_bind (Script.uses_tryCatch ?_ fun e => by cases e <;> trivial) fun _ => trivial
    unfold PaymentService.handleEvent
    split
    · refine stays_bind (stays_query rfl) fun found => ?_
      split
      · trivial
      split_ifs
      · trivial
      refine stays_transaction (stays_bind (stays_update rfl) fun _ =>
        stays_bind (stays_lockRow rfl) fun row => ?_)
      cases row with
      | none => trivial
      | some txBooking =>
        simp only
        split_ifs
        · exact stays_bind (stays_external rfl) fun _ => stays_update rfl
        · exact stays_bind (stays_external rfl) fun _ => stays_bind (stays_update rfl) fun _ =>
            stays_bind (stays_update rfl) fun _ => stays_quietly (stays_external rfl)
    · refine stays_bind (stays_query rfl) fun found => ?_
      split
      · trivial
      · exact stays_bind (stays_transaction (stays_bind (stays_update rfl) fun _ => stays_update rfl))
          fun _ => stays_quietly (stays_external rfl)
    · exact stays_transaction (stays_bind (stays_update rfl) fun _ => stays_update rfl)
    · trivial

theorem refundTx_obeys (bookingId : BookingId) (q : Payment) (slotId : SlotId) :
    (PaymentService.refundTx bookingId q.id slotId).Obeys refunding (.made q)
      (Script.Closes refunding fun _ _ => True) := by
  have hclosed : ∀ g r, Script.Closes refunding (fun _ _ => True) g (r : Except Err Unit) := by
    rintro g (e | a)
    · exact ⟨trivial, fun _ => trivial⟩
    · exact ⟨trivial, trivial, fun _ => trivial⟩
  refine Script.obeys_stmt trivial (fun _ _ => ?_) fun _ => hclosed _ _
  refine Script.obeys_stmt ⟨q, rfl, rfl⟩ (fun _ _ => ?_) fun _ => hclosed _ _
  refine Script.obeys_mono (obeys_refundless (J := fun _ => True) ?_ (fun _ _ => trivial) trivial)
    fun g r _ => hclosed g r
  refine stays_bind (stays_update rfl) fun _ => stays_bind (stays_query rfl) fun activeBookings => ?_
  split_ifs
  · exact stays_update rfl
  · trivial

theorem refund_refunds (bookingId : BookingId) (userId : UserId) :
    (PaymentService.refund bookingId userId).Obeys refunding .fresh fun _ _ => True := by
  refine Script.obeys_stmt rfl (fun found _ => ?_) fun _ => trivial
  cases found with
  | none => trivial
  | some d =>
    simp only
    split_ifs with huser hpaid
    · trivial
    · trivial
    have hnext : refunding.next .fresh (.stmt (.query (.paymentDetail bookingId))) (.ok (some d)) =
        .paid d.payment := if_pos (not_not.mp hpaid)
    rw [hnext]
    refine Script.obeys_stmt trivial (fun now _ => ?_) fun _ => trivial
    split_ifs
    · trivial
    refine Script.obeys_stmt ⟨d.payment, rfl, rfl⟩ (fun refundId _ => ?_) fun _ => trivial
    refine Script.obeys_bind (Script.obeys_mono (Script.obeys_transaction trivial
      (refundTx_obeys bookingId d.payment d.slot.id) fun _ => trivial) fun g r _ => ?_)
    cases r <;> trivial

/-- Only `refund` refunds. -/
theorem Call.body_refunds (cfg : Config) (c : Call) :
    (c.body cfg).Obeys refunding refunding.init fun _ _ => True := by
  have hrefundless : Stays Stmt.refundless (c.body cfg) →
      (c.body cfg).Obeys refunding refunding.init fun _ _ => True := fun h =>
    Script.obeys_mono (obeys_refundless (J := fun _ => True) h (fun _ _ => trivial) trivial)
      fun _ _ _ => trivial
  have hissues : (∀ event, c ≠ .handleWebhook event) → (∀ bookingId userId, c ≠ .refund bookingId userId) →
      ∀ m, Within c.issues m → Within Stmt.refundless m := by
    intro hwebhook hrefund m hm
    cases m with
    | stmt s =>
      cases c with
      | handleWebhook event => exact absurd rfl (hwebhook event)
      | refund bookingId userId => exact absurd rfl (hrefund bookingId userId)
      | _ =>
        cases s with
        | query q => cases q <;> first | rfl | cases hm
        | external x => cases x <;> first | rfl | cases hm
        | update u => cases u <;> first | rfl | cases hm
        | lock l => rfl
    | _ => trivial
  cases c with
  | handleWebhook event => exact hrefundless (handleWebhook_refundless cfg event)
  | refund bookingId userId => exact refund_refunds bookingId userId
  | _ => exact hrefundless (Script.uses_mono (Call.body_stays cfg _) (hissues (by simp) (by simp)))

end

/-! ### The books -/

namespace World

variable (cfg : Config) (w : World)

/-- The charge of the intent was recorded: its `succeeded` event was processed. -/
def Earned (intent : IntentId) : Prop :=
  ∃ id ∈ w.db.webhookEvents, (cfg.event id).type = .succeeded ∧ (cfg.event id).intent = intent

/-- Payment `id` was refunded by Stripe. -/
def Sent (id : PaymentId) : Prop :=
  ∃ p, w.db.payment? id = some p ∧ p.stripePaymentIntentId ∈ w.out.refunds

/-- The payment is in the table, under its intent, and its charge was recorded. -/
def Charged (p : Payment) : Prop :=
  (∃ p', w.db.payment? p.id = some p' ∧ p'.stripePaymentIntentId = p.stripePaymentIntentId) ∧
    w.Earned cfg p.stripePaymentIntentId

/-- The table and Stripe agree. -/
structure Reconciled : Prop where
  /-- Nothing is refunded twice. -/
  once : w.out.refunds.Nodup
  /-- What is refunded was earned. -/
  earned : ∀ intent ∈ w.out.refunds, w.Earned cfg intent
  /-- What is marked REFUNDED was refunded. -/
  refunded : ∀ p ∈ w.db.payments, p.status = .REFUNDED → p.stripePaymentIntentId ∈ w.out.refunds
  /-- What is marked PAID was earned. -/
  paid : ∀ p ∈ w.db.payments, p.status = .PAID → w.Earned cfg p.stripePaymentIntentId

/-- What a call knows of its refund. -/
def Told : Refunding → Prop
  | .paid p => w.Charged cfg p
  | .made p => w.Sent p.id
  | _ => True

/-- A write marks as REFUNDED what Stripe has refunded. -/
def Marks (w : World) (x : Write) : Prop :=
  ∀ ids, x = .paymentSet ids .refunded → ∀ id ∈ ids, w.Sent id

variable {cfg w} {w' : World}

/-- Rows, events and refunds stay. -/
structure Grows (w w' : World) : Prop where
  db : w.db.Rely [] w'.db
  refunds : ∀ intent ∈ w.out.refunds, intent ∈ w'.out.refunds

namespace Grows

variable (h : w.Grows w')

include h

theorem earned {intent : IntentId} (he : w.Earned cfg intent) : w'.Earned cfg intent := by
  obtain ⟨id, hid, htype, hintent⟩ := he
  exact ⟨id, h.db.events id hid, htype, hintent⟩

theorem sent {id : PaymentId} (hs : w.Sent id) : w'.Sent id := by
  obtain ⟨p, hp, hr⟩ := hs
  obtain ⟨p', hp', -, hintent⟩ := h.db.payment id p hp
  exact ⟨p', hp', hintent ▸ h.refunds _ hr⟩

theorem charged {p : Payment} (hc : w.Charged cfg p) : w'.Charged cfg p := by
  obtain ⟨⟨p', hp', hintent⟩, he⟩ := hc
  obtain ⟨p'', hp'', -, hintent'⟩ := h.db.payment p.id p' hp'
  exact ⟨⟨p'', hp'', hintent'.trans hintent⟩, h.earned he⟩

theorem told {g : Refunding} (hg : w.Told cfg g) : w'.Told cfg g := by
  cases g with
  | paid p => exact h.charged hg
  | made p => exact h.sent hg
  | _ => trivial

end Grows

end World

/-- A row after an update is as before, or was changed. -/
theorem Db.mem_setPayments {ids : List PaymentId} {change : PaymentChange} {ps : List Payment}
    {p : Payment} (hp : p ∈ setPayments ids change ps) :
    p ∈ ps ∨ ∃ q ∈ ps, q.id ∈ ids ∧ p = change.set q := by
  obtain ⟨q, hq, rfl⟩ := Rows.mem_update.mp hp
  by_cases hid : q.id ∈ ids
  · rw [if_pos hid]
    exact .inr ⟨q, hq, hid, rfl⟩
  · rw [if_neg hid]
    exact .inl hq

/-- What a commit marks: a payment that is PAID or REFUNDED afterwards was so before, or the
commit records the event of its charge, or it is marked as refunded. -/
theorem Commits.marks {cfg : Config} {c : Session Call} {w : World} {ws : List Write}
    (hv : w.db.Valid cfg) (hc : Commits cfg c w ws) {p : Payment} (hp : p ∈ (w.db.applyAll ws).payments) :
    (p.status = .PAID → p ∈ w.db.payments ∨ ∃ id, .eventInsert id ∈ ws ∧
        (cfg.event id).type = .succeeded ∧ (cfg.event id).intent = p.stripePaymentIntentId) ∧
      (p.status = .REFUNDED → p ∈ w.db.payments ∨
        ∃ ids, .paymentSet ids .refunded ∈ ws ∧ p.id ∈ ids) := by
  have hkept : ∀ {A B : Prop}, p ∈ w.db.payments →
      (p.status = .PAID → p ∈ w.db.payments ∨ A) ∧ (p.status = .REFUNDED → p ∈ w.db.payments ∨ B) :=
    fun hp => ⟨fun _ => .inl hp, fun _ => .inl hp⟩
  cases hc with
  | @initiate _ _ q _ _ status =>
    rcases List.mem_append.mp hp with hp | hp
    · exact hkept hp
    · rw [List.mem_singleton.mp hp, status]
      exact ⟨nofun, nofun⟩
  | reinitiate =>
    rcases Db.mem_setPayments hp with hp | ⟨q, -, -, rfl⟩
    · exact hkept hp
    · exact ⟨nofun, nofun⟩
  | failed =>
    rcases Db.mem_setPayments hp with hp | ⟨q, -, -, rfl⟩
    · exact hkept hp
    · exact ⟨nofun, nofun⟩
  | processing =>
    rcases Db.mem_setPayments hp with hp | ⟨q, -, -, rfl⟩
    · exact hkept hp
    · exact ⟨nofun, nofun⟩
  | @succeeded id q b charge time _ type _ payment intent =>
    have hset : p ∈ Db.setPayments [q.id] (.paid charge time) w.db.payments := by
      split_ifs at hp <;> exact hp
    rcases Db.mem_setPayments hset with hp | ⟨q', hq', hid, rfl⟩
    · exact hkept hp
    · obtain rfl := Rows.eq_of_key hv.payments hq' payment (List.mem_singleton.mp hid)
      exact ⟨fun _ => .inr ⟨id, List.mem_cons_self, type, intent.symm⟩, nofun⟩
  | @refund _ q b freed =>
    simp only [Db.applyAll_cons, payments_release] at hp
    rcases Db.mem_setPayments hp with hp | ⟨q', -, hid, rfl⟩
    · exact hkept hp
    · exact ⟨nofun, fun _ => .inr ⟨[q.id], List.mem_cons_self, hid⟩⟩
  | cancel | cleanup =>
    simp only [Db.applyAll_cons, payments_release] at hp
    exact hkept hp
  | _ => exact hkept hp

/-! ### One step -/

section

variable {cfg : Config} {g : Refunding} {w w' : World} {l : Local Key Write}

theorem World.Told.on (h : w.Told cfg g) : w.Told cfg g.on := by
  cases g <;> trivial

theorem exec_base_external (l : Local Key Write) (w : World) (x : External) :
    ((engine cfg).exec l w (.stmt (.external x))).base.out = (x.eval w.out).2 :=
  Engine.exec_base (P := fun w' : World => w'.out = (x.eval w.out).2) (fun _ => rfl) l

theorem exec_reply_external (l : Local Key Write) (w : World) (x : External) :
    ((engine cfg).exec l w (.stmt (.external x))).reply = (x.eval w.out).1 :=
  @Engine.exec_reply _ _ _ _ _ _ _ (engine cfg) (.external x) w (· = (x.eval w.out).1)
    (fun _ => rfl) l

theorem after_out {A : Type} (c : Session Call) (o : Outcome Err Key Write World A) :
    ((engine cfg).after c o).out = o.base.out := by
  unfold Engine.after
  split <;> rfl

/-- Stripe makes a refund once, or refuses it. -/
theorem eval_createRefund (o : Outside) (intent : IntentId) :
    (intent ∈ o.refunds ∧ External.eval o (.createRefund intent) = (.error .stripe, o)) ∨
    (intent ∉ o.refunds ∧ External.eval o (.createRefund intent) =
      (.ok o.uuid, { o with refunds := o.refunds ++ [intent], uuid := o.uuid + 1 })) := by
  by_cases h : intent ∈ o.refunds
  · exact .inl ⟨h, if_pos h⟩
  · exact .inr ⟨h, if_neg h⟩

/-- What a command adds to the refunds of Stripe. -/
theorem after_refunds (c : Session Call) (l : Local Key Write) (w : World) (m : Cmd Stmt) :
    ((engine cfg).after c ((engine cfg).exec l w m)).out.refunds = w.out.refunds ∨
    ∃ intent, m = .stmt (.external (.createRefund intent)) ∧ intent ∉ w.out.refunds ∧
      ((engine cfg).after c ((engine cfg).exec l w m)).out.refunds = w.out.refunds ++ [intent] := by
  rw [after_out]
  cases m with
  | stmt s =>
    cases s with
    | external x =>
      rw [exec_base_external]
      cases x with
      | createRefund intent =>
        rcases eval_createRefund w.out intent with ⟨-, he⟩ | ⟨hnew, he⟩
        · exact .inl (by rw [he])
        · exact .inr ⟨intent, rfl, hnew, by rw [he]⟩
      | acquireLock slotId =>
        simp only [External.eval]
        split_ifs <;> exact .inl rfl
      | releaseLock slotId value =>
        simp only [External.eval]
        split_ifs <;> exact .inl rfl
      | _ => exact .inl rfl
    | _ => exact .inl (Engine.exec_base (P := fun w' : World => w'.out.refunds = w.out.refunds)
        (fun _ => rfl) l)
  | _ => exact .inl rfl

theorem on_ne_fresh (g : Refunding) : g.on ≠ .fresh := by
  cases g <;> exact nofun

/-- After its first command a call is not at its start. -/
theorem next_ne_fresh {m : Cmd Stmt} {r : Except Err (m.Reply Stmt.Reply)} :
    refunding.next g m r ≠ .fresh := by
  cases m with
  | stmt s =>
    by_cases hs : s.refundless = true
    · rw [next_refundless hs]
      exact on_ne_fresh g
    cases s with
    | query q =>
      cases q with
      | paymentDetail id =>
        rcases r with e | _ | d
        · exact on_ne_fresh g
        · exact on_ne_fresh g
        · show (if d.payment.status = .PAID then Refunding.paid d.payment else .other) ≠ .fresh
          split_ifs <;> exact nofun
      | _ => exact on_ne_fresh g
    | external x =>
      cases x with
      | createRefund intent => cases r <;> cases g <;> exact nofun
      | _ => exact on_ne_fresh g
    | _ => exact on_ne_fresh g
  | _ => exact on_ne_fresh g

/-- A failure tells nothing. -/
theorem next_failed {m : Cmd Stmt} {e : Err} : refunding.next g m (.error e) = g.on := by
  cases m with
  | stmt s =>
    cases s with
    | query q => cases q <;> rfl
    | external x => cases x <;> rfl
    | _ => rfl
  | _ => rfl

/-- A call reads its payment before anything else, outside any transaction. -/
theorem told_read (h : w.Reconciled cfg) (hv : w.db.Valid cfg) (htx : l.tx = none)
    (id : BookingId) : w.Told cfg (refunding.next .fresh (.stmt (.query (.paymentDetail id)))
      ((engine cfg).exec l w (.stmt (.query (.paymentDetail id)))).reply) := by
  rw [Engine.exec_auto htx]
  show w.Told cfg (refunding.next .fresh (.stmt (.query (.paymentDetail id)))
    (.ok (w.db.paymentDetail? id)))
  cases hd : w.db.paymentDetail? id with
  | none => trivial
  | some d =>
    simp only [Db.paymentDetail?, Option.bind_eq_bind, Option.bind_eq_some_iff] at hd
    obtain ⟨q, hq, b, -, slot, -, hd⟩ := hd
    obtain rfl := Option.some.inj hd
    obtain ⟨hmem, -⟩ := Db.mem_of_paymentOf? hq
    by_cases hpaid : q.status = .PAID
    · rw [show refunding.next .fresh (.stmt (.query (.paymentDetail id))) (.ok (some ⟨q, b, slot⟩)) =
        .paid q from if_pos hpaid]
      exact ⟨⟨q, hv.payment?_of_mem hmem, rfl⟩, h.paid q hmem hpaid⟩
    · rw [show refunding.next .fresh (.stmt (.query (.paymentDetail id))) (.ok (some ⟨q, b, slot⟩)) =
        .other from if_neg hpaid]
      trivial

/-- What a call knows after a command. -/
theorem told_next (h : w.Reconciled cfg) (hv : w.db.Valid cfg) (hg : w.Told cfg g)
    (hfresh : g = .fresh → l.tx = none) {m : Cmd Stmt} (hmay : refunding.may g m)
    (hgrows : w.Grows w') (hout : w'.out = ((engine cfg).exec l w m).base.out) :
    w'.Told cfg (refunding.next g m ((engine cfg).exec l w m).reply) := by
  cases m with
  | stmt s =>
    cases s with
    | query q =>
      cases q with
      | paymentDetail id =>
        obtain rfl : g = .fresh := hmay
        exact hgrows.told (told_read h hv (hfresh rfl) id)
      | _ => exact hgrows.told hg.on
    | external x =>
      cases x with
      | createRefund intent =>
        obtain ⟨p, rfl, rfl⟩ := hmay
        rw [exec_base_external] at hout
        rw [exec_reply_external]
        rcases eval_createRefund w.out p.stripePaymentIntentId with ⟨-, he⟩ | ⟨-, he⟩
        · rw [he]
          exact hgrows.told hg
        · rw [he] at hout ⊢
          obtain ⟨⟨p', hp', hintent⟩, -⟩ := hgrows.charged hg
          refine ⟨p', hp', ?_⟩
          rw [hintent, hout]
          exact List.mem_append_right _ (List.mem_singleton_self _)
      | _ => exact hgrows.told hg.on
    | _ => exact hgrows.told hg.on
  | _ => exact hgrows.told hg.on

end

/-! ### Runs -/

/-- What the calls know of their refunds is true, what they are about to mark was refunded,
and the table and Stripe agree. -/
structure Refunders (cfg : Config) (g : ℕ → Refunding) (s : Sys) : Prop where
  keeps : s.Keeps cfg fun _ => True
  pending : s.Pending World.Marks
  fresh : ∀ i t, s.threads[i]? = some t → g i = .fresh → t.loc.tx = none
  told : ∀ i, s.world.Told cfg (g i)
  reconciled : s.world.Reconciled cfg

section

variable {cfg : Config} {g : ℕ → Refunding} {s : Sys} {a : Act}

/-- The sessions obey. -/
abbrev Refunds (g : ℕ → Refunding) (s : Sys) : Prop := Obeying refunding (fun _ (_ : Except Err Reply) => True) g s

/-- What a statement marks as REFUNDED was refunded by the call that issues it. -/
theorem justifies (hobey : Refunds g s) (htold : ∀ i, s.world.Told cfg (g i)) :
    (service cfg).Justifies World.Marks s := by
  intro t ht st k hp view x hx ids hxids id hid
  obtain ⟨i, hi, rfl⟩ := List.mem_iff_getElem.mp ht
  have hmay := hobey.may (List.getElem?_eq_getElem hi) hp
  subst hxids
  cases st with
  | update u =>
    have hputs := puts_of_mem hx
    cases u with
    | paymentUpdate id' change =>
      obtain ⟨rfl, rfl⟩ := Write.paymentSet.inj hputs
      obtain ⟨p, hg, rfl⟩ := hmay
      have hsent := htold i
      rw [hg] at hsent
      rw [List.mem_singleton.mp hid]
      exact hsent
    | paymentUpdateMany intent change =>
      obtain ⟨ids', hputs⟩ := hputs
      obtain ⟨-, rfl⟩ := Write.paymentSet.inj hputs
      exact hmay.elim
    | paymentUpsert bookingId amount currency intent secret =>
      rcases hputs with ⟨_, hputs⟩ | hputs
      · cases (Write.paymentSet.inj hputs).2
      · cases hputs
    | bookingCreate | bookingUpdateManyPending | couponUsageCreate =>
      obtain ⟨_, hputs⟩ := hputs
      cases hputs
    | _ => cases hputs
  | _ => cases hx

/-- What a step adds to the refunds of Stripe. -/
theorem step_refunds (hs : Stepped (service cfg) refunding (fun _ _ => True) g s a) :
    ((service cfg).step s a).world.out.refunds = s.world.out.refunds ∨
    ∃ i p, g i = .paid p ∧ p.stripePaymentIntentId ∉ s.world.out.refunds ∧
      ((service cfg).step s a).world.out.refunds = s.world.out.refunds ++ [p.stripePaymentIntentId] := by
  cases hs with
  | rests idle world sessions obeying => exact .inl (by rw [world])
  | evolves v idle step obeying =>
    rw [step]
    cases v <;> exact .inl rfl
  | fails i t m k action thread prog may idle step obeying => exact .inl (by rw [step])
  | runs i t m k action thread prog may free committed step obeying =>
    rw [step]
    rcases @after_refunds cfg t.session t.loc s.world m with hsame | ⟨intent, rfl, hnew, hr⟩
    · exact .inl hsame
    · obtain ⟨p, hg, rfl⟩ := may
      exact .inr ⟨i, p, hg, hnew, hr⟩

namespace Refunders

variable (h : Refunders cfg g s)

include h

theorem grows (hs : Stepped (service cfg) refunding (fun _ _ => True) g s a) :
    s.world.Grows ((service cfg).step s a).world where
  db := by
    rcases h.keeps.step_cases stable_true a with ⟨-, hdb, -⟩ | ⟨cm, -, hdb, -, hwf, -, hcm, hw⟩
    · rw [hdb]
      exact .refl [] _
    · rw [hw, ← hdb]
      exact (hcm.fits hwf.valid).rely (by simp)
  refunds intent hintent := by
    rcases step_refunds hs with hr | ⟨i, p, -, -, hr⟩
    · rwa [hr]
    · rw [hr]
      exact List.mem_append_left _ hintent

theorem reconcile (hobey : Refunds g s)
    (hs : Stepped (service cfg) refunding (fun _ _ => True) g s a) :
    ((service cfg).step s a).world.Reconciled cfg := by
  have hgrows := h.grows hs
  have hkeeps : Sys.Keeps cfg (fun _ => True) ((service cfg).step s a) :=
    h.keeps.step (rules_lawful stable_true) (starts stable_true) (permits_any s a)
  obtain ⟨-, hmarks⟩ := h.pending.step (justifies hobey h.told)
    (fun x hx ids hids id hid => hgrows.sent (hx ids hids id hid)) (a := a)
  refine ⟨?_, fun intent hintent => ?_, fun p hp hst => ?_, fun p hp hst => ?_⟩
  · rcases step_refunds hs with hr | ⟨i, p, -, hnew, hr⟩
    · rw [hr]
      exact h.reconciled.once
    · rw [hr]
      exact List.nodup_append.mpr ⟨h.reconciled.once, List.nodup_singleton _, by
        rintro x hx _ hy rfl
        exact hnew (List.mem_singleton.mp hy ▸ hx)⟩
  · rcases step_refunds hs with hr | ⟨i, p, hg, -, hr⟩
    · rw [hr] at hintent
      exact hgrows.earned (h.reconciled.earned intent hintent)
    · rw [hr] at hintent
      rcases List.mem_append.mp hintent with hintent | hintent
      · exact hgrows.earned (h.reconciled.earned intent hintent)
      · have htold := h.told i
        rw [hg] at htold
        rw [List.mem_singleton.mp hintent]
        exact hgrows.earned htold.2
  · rcases h.keeps.step_cases stable_true a with ⟨-, hdb, -⟩ | ⟨cm, hc, hdb, -, hwf, -, hcm, hw⟩
    · rw [hdb] at hp
      exact hgrows.refunds _ (h.reconciled.refunded p hp hst)
    · have hp' : p ∈ (cm.base.db.applyAll cm.writes).payments := by
        rw [hw] at hp
        exact hp
      rcases (hcm.marks hwf.valid hp').2 hst with hold | ⟨ids, hids, hid⟩
      · rw [hdb] at hold
        exact hgrows.refunds _ (h.reconciled.refunded p hold hst)
      · obtain ⟨q, hq, hr⟩ := hgrows.sent (hmarks cm hc _ hids ids rfl p.id hid)
        obtain rfl := Option.some.inj ((hkeeps.inv.1.valid.payment?_of_mem hp).symm.trans hq)
        exact hr
  · rcases h.keeps.step_cases stable_true a with ⟨-, hdb, -⟩ | ⟨cm, hc, hdb, -, hwf, -, hcm, hw⟩
    · rw [hdb] at hp
      exact hgrows.earned (h.reconciled.paid p hp hst)
    · have hp' : p ∈ (cm.base.db.applyAll cm.writes).payments := by
        rw [hw] at hp
        exact hp
      rcases (hcm.marks hwf.valid hp').1 hst with hold | ⟨id, hid, htype, hintent⟩
      · rw [hdb] at hold
        exact hgrows.earned (h.reconciled.paid p hold hst)
      · refine ⟨id, ?_, htype, hintent⟩
        rw [hw]
        exact Db.event_of_applyAll.mpr (.inr hid)

theorem step (hobey : Refunds g s)
    (hs : Stepped (service cfg) refunding (fun _ _ => True) g s a) :
    ∃ g', Refunds g' ((service cfg).step s a) ∧ Refunders cfg g' ((service cfg).step s a) := by
  have hgrows := h.grows hs
  have hkeeps : Sys.Keeps cfg (fun _ => True) ((service cfg).step s a) :=
    h.keeps.step (rules_lawful stable_true) (starts stable_true) (permits_any s a)
  obtain ⟨hpending, -⟩ := h.pending.step (justifies hobey h.told)
    (fun x hx ids hids id hid => hgrows.sent (hx ids hids id hid)) (a := a)
  have hreconciled := h.reconcile hobey hs
  -- a session that moves leaves its start behind
  have hleft : ∀ {i} {u : Refunding} {t : Thread Stmt Stmt.Reply Err Key Write Call Reply} {w},
      (service cfg).step s a = ⟨w, s.threads.set i t⟩ → u ≠ .fresh →
      (∀ w', s.world.Grows w' → w'.out = w.out → w'.Told cfg u) →
      Refunds (Function.update g i u) ((service cfg).step s a) →
      ∃ g', Refunds g' ((service cfg).step s a) ∧ Refunders cfg g' ((service cfg).step s a) := by
    intro i u t w hstep hu htold hobeying
    refine ⟨_, hobeying, hkeeps, hpending, fun j th hth hj => ?_, fun j => ?_, hreconciled⟩
    · rw [hstep] at hth
      rcases getElem?_put hth with ⟨rfl, -⟩ | ⟨hji, hth⟩
      · rw [Function.update_self] at hj
        exact absurd hj hu
      · rw [Function.update_of_ne hji] at hj
        exact h.fresh j th hth hj
    · by_cases hji : j = i
      · rw [hji, Function.update_self]
        exact htold _ hgrows (by rw [hstep])
      · rw [Function.update_of_ne hji]
        exact hgrows.told (h.told j)
  cases hs with
  | rests idle world sessions obeying =>
    refine ⟨g, obeying, hkeeps, hpending, fun i t ht hg => ?_, fun i => hgrows.told (h.told i),
      hreconciled⟩
    rcases sessions i t ht with ht | ⟨-, hidle⟩
    · exact h.fresh i t ht hg
    · rw [hidle]
  | evolves v idle step obeying =>
    refine ⟨g, obeying, hkeeps, hpending, fun i t ht hg => ?_, fun i => hgrows.told (h.told i),
      hreconciled⟩
    rw [step] at ht
    exact h.fresh i t ht hg
  | runs i t m k action thread prog may free committed step obeying =>
    refine hleft step next_ne_fresh (fun w' hw' hout => ?_) obeying
    refine told_next h.reconciled h.keeps.inv.1.valid (h.told i) (h.fresh i t thread) may hw' ?_
    rw [hout]
    exact after_out ..
  | fails i t m k action thread prog may idle step obeying =>
    refine hleft step next_ne_fresh (fun w' hw' _ => ?_) obeying
    rw [next_failed]
    exact hw'.told (h.told i).on

end Refunders

end

/-- Along every run from a database without payments, the payments table and Stripe agree. -/
theorem reconciled_always {cfg : Config} {s : Sys} {as : List Act} (hs : s.Fresh)
    (hr : s.world.out.refunds = []) :
    (service cfg).Always (fun t => t.world.Reconciled cfg) s as := by
  have hinit : Refunders cfg (fun _ => .fresh) s := {
    keeps := hs.initial.sound trivial
    pending := .nil hs.threads
    fresh := fun i t ht => by simp [hs.threads] at ht
    told := fun _ => trivial
    reconciled := {
      once := by simp [hr]
      earned := by simp [hr]
      refunded := by simp [hs.db.payments]
      paid := by simp [hs.db.payments] } }
  have hA : refunding.Answered (service cfg).toEngine := ⟨fun _ _ _ => trivial, fun _ => trivial⟩
  have hboth := Service.always_obeying hA (Call.body_refunds cfg) (I := Refunders cfg)
    (M := fun _ _ => True) (fun g s a hobey h _ hstep => h.step hobey hstep) hs.threads hinit
    (Service.each_of_forall (fun _ _ => trivial) s as)
  refine hboth.mono ?_
  rintro t ⟨g, -, h⟩
  exact h.reconciled

/-- A booking is paid; two refunds of it overlap, and Stripe makes one of them. -/
def Arena.refunded : List Act :=
  sold ++ first 3 (.refund 101 7) 3 ++ first 4 (.refund 101 7) 3 ++ List.replicate 8 (.run 3)

theorem reconciled_refunded :
    let t := (service (Arena.cfg true)).run Arena.sys Arena.refunded
    t.world.Reconciled (Arena.cfg true) ∧ t.world.out.refunds = [⟨101⟩] ∧
      t.world.db.payments.map (·.status) = [.REFUNDED] :=
  ⟨(@reconciled_always (Arena.cfg true) Arena.sys Arena.refunded Arena.fresh rfl).last,
    by decide +kernel, by decide +kernel⟩

end TurfSync
