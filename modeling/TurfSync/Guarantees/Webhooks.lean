import TurfSync.Guarantees.Slots

/-! The books of the webhooks. An event is registered by the transaction that applies
it, so no event is applied twice; and a payment is PAID, or its success event is
registered, only after a transaction that also confirmed a PENDING booking. A delivery
of a success event that is acknowledged therefore never got lost. -/

namespace TurfSync

open Txn

/-- A commit of a delivery of event `id`. -/
def Entry.Applies (e : Entry) (id : EventId) : Prop := e.session.call = .handleWebhook (some id)

instance (e : Entry) (id : EventId) : Decidable (e.Applies id) :=
  inferInstanceAs (Decidable (_ = _))

/-- The commit set `p` to PAID, and its booking to CONFIRMED if it was PENDING. From its
lock to the commit the booking row does not change. -/
def Entry.Settles (e : Entry) (p : Payment) : Prop :=
  (∃ charge time, .paymentSet [p.id] (.paid charge time) ∈ e.writes) ∧
  ∃ b, e.before.booking? p.bookingId = some b ∧
    (b.status = .PENDING → .bookingSet [p.bookingId] .CONFIRMED ∈ e.writes)

namespace World

/-- A commit has settled `p`, and its booking is not PENDING any more. -/
structure Settled (w : World) (p : Payment) : Prop where
  entry : ∃ e ∈ w.history, e.Settles p
  booking : ∃ b, w.db.booking? p.bookingId = some b ∧ b.status ≠ .PENDING

/-- What the history, the registered events and the payments say about one another. -/
structure Ledger (cfg : Config) (w : World) : Prop where
  events : ∀ e ∈ w.history, ∀ id, e.Applies id → id ∈ w.db.webhookEvents
  once : ∀ id, (w.history.filter fun e => e.Applies id).length ≤ 1
  paid : ∀ p ∈ w.db.payments, p.status = .PAID → w.Settled p
  processed : ∀ id ∈ w.db.webhookEvents, (cfg.event id).type = .succeeded →
    ∃ p ∈ w.db.payments, p.stripePaymentIntentId = (cfg.event id).intent ∧ w.Settled p

variable {cfg : Config} {w w' : World} {p p' : Payment}

theorem Settled.mono (h : w.Settled p) (hid : p'.id = p.id) (hb : p'.bookingId = p.bookingId)
    (hhist : ∀ e ∈ w.history, e ∈ w'.history) (hdb : w.db.Rely [] w'.db) : w'.Settled p' := by
  obtain ⟨e, he, hpaid, hbook⟩ := h.entry
  obtain ⟨b, hbm, hs⟩ := h.booking
  obtain ⟨b', hb', ha⟩ := hdb.booking _ b hbm
  refine ⟨⟨e, hhist e he, hid ▸ hpaid, hb ▸ hbook⟩, b', hb ▸ hb', fun hp => ?_⟩
  exact hs (ha.pending hp)

end World

namespace Commits

variable {cfg : Config} {c : Session Call} {w : World} {ws : List Write}

/-- A delivery that commits registers its event. -/
theorem registers (hc : Commits cfg c w ws) {id : EventId}
    (call : c.call = .handleWebhook (some id)) : .eventInsert id ∈ ws := by
  obtain ⟨-, ⟨-, p, -, b, -, -, -, charge, time, rfl⟩ | ⟨-, p, -, reason, -, rfl⟩ |
    ⟨-, ids, rfl⟩⟩ := hc.of_webhook call
  · exact List.mem_cons_self
  · exact List.mem_cons_self
  · exact List.mem_cons_self

/-- A payment is set to PAID by the success of its event only. -/
theorem paid_write (hc : Commits cfg c w ws) {ids : List PaymentId} {charge : Option String}
    {time : Time} (hx : .paymentSet ids (.paid charge time) ∈ ws) :
    ∃ p ∈ w.db.payments, ids = [p.id] ∧ ∃ b ∈ w.db.bookings, b.id = p.bookingId ∧
      ∃ id, ws = .eventInsert id :: .paymentSet [p.id] (.paid charge time) ::
        if b.status = .PENDING then [.bookingSet [b.id] .CONFIRMED] else [] := by
  cases hc with
  | @succeeded id p b charge' time' _ _ _ hp _ hb hid =>
    obtain ⟨rfl, rfl, rfl⟩ : ids = [p.id] ∧ charge = charge' ∧ time = time' := by
      split_ifs at hx <;> simpa using hx
    exact ⟨p, hp, rfl, b, hb, hid, id, rfl⟩
  | _ => simp at hx

/-- The success of an event settles the payment. -/
theorem settled (hv : w.db.Valid cfg) {id : EventId} {p p' : Payment} {b : Booking}
    {charge : Option String} {time : Time} (hb : b ∈ w.db.bookings) (hbp : b.id = p.bookingId)
    (hws : ws = .eventInsert id :: .paymentSet [p.id] (.paid charge time) ::
      if b.status = .PENDING then [.bookingSet [b.id] .CONFIRMED] else [])
    (hid : p'.id = p.id) (hbid : p'.bookingId = p.bookingId) : (result c ws w).Settled p' := by
  have hfound : w.db.booking? p'.bookingId = some b := hbid ▸ hbp ▸ hv.booking?_of_mem hb
  refine ⟨⟨⟨c, ws, w.db⟩, by simp [result], ⟨charge, time, by simp [hws, hid]⟩, b, hfound,
    fun hp => by simp [hws, hp, hbid, hbp]⟩, ?_⟩
  by_cases hp : b.status = .PENDING
  · refine ⟨{ b with status := .CONFIRMED }, ?_, by simp⟩
    rw [if_pos hp] at hws
    have hset : (result c ws w).db.bookings = Db.setBookings [b.id] .CONFIRMED w.db.bookings := by
      rw [hws]
      rfl
    rw [Db.booking?_set hset, hfound, if_pos (by simp [hbid, hbp])]
    rfl
  · refine ⟨b, ?_, hp⟩
    rw [if_neg hp] at hws
    rw [← hfound, hws]
    rfl

end Commits

/-- Where a PAID payment comes from. -/
theorem Db.paid_of_applyAll {db : Db} {ws : List Write} {p : Payment}
    (hp : p ∈ (db.applyAll ws).payments) (hs : p.status = .PAID) :
    (∃ p' ∈ db.payments, p'.id = p.id ∧ p'.bookingId = p.bookingId ∧ p'.status = .PAID) ∨
    (∃ ids charge time, .paymentSet ids (.paid charge time) ∈ ws ∧ p.id ∈ ids) ∨
    ∃ p', .paymentInsert p' ∈ ws ∧ p'.status = .PAID := by
  induction ws generalizing db with
  | nil => exact .inl ⟨p, hp, rfl, rfl, hs⟩
  | cons x ws ih =>
    rcases ih hp with ⟨p', hp', hid, hbid, hs'⟩ | ⟨ids, charge, time, hx, hid⟩ | ⟨p', hp', hs'⟩
    · cases x with
      | paymentInsert p'' =>
        rcases List.mem_append.mp hp' with hp' | hp'
        · exact .inl ⟨p', hp', hid, hbid, hs'⟩
        · exact .inr (.inr ⟨p', by rw [List.mem_singleton.mp hp']; simp, hs'⟩)
      | paymentSet ids change =>
        obtain ⟨p'', hp'', rfl⟩ := Rows.mem_update.mp hp'
        by_cases hm : p''.id ∈ ids
        · rw [if_pos hm] at hid hbid hs'
          rw [change.set_id] at hid
          rw [change.set_status] at hs'
          cases change with
          | paid charge time => exact .inr (.inl ⟨ids, charge, time, by simp, hid ▸ hm⟩)
          | _ => cases hs'
        · rw [if_neg hm] at hid hbid hs'
          exact .inl ⟨p'', hp'', hid, hbid, hs'⟩
      | _ => exact .inl ⟨p', hp', hid, hbid, hs'⟩
    · exact .inr (.inl ⟨ids, charge, time, by simp [hx], hid⟩)
    · exact .inr (.inr ⟨p', by simp [hp'], hs'⟩)

variable {cfg : Config} {s : Sys} {as : List Act}

/-- Every commit keeps the books. -/
theorem stable_ledger (cfg : Config) : Stable cfg (World.Ledger cfg) where
  out w o h := {
    events := h.events
    once := h.once
    paid := fun p hp hs => ⟨(h.paid p hp hs).entry, (h.paid p hp hs).booking⟩
    processed := fun id hid htype => by
      obtain ⟨p, hp, hi, hset⟩ := h.processed id hid htype
      exact ⟨p, hp, hi, hset.entry, hset.booking⟩ }
  commit := by
    intro c w ws hw h hc
    have hrely : w.db.Rely [] (w.db.applyAll ws) := (hc.fits hw.valid).rely (by simp)
    have hvalid := hc.valid hw.valid
    have hhist : ∀ e ∈ w.history, e ∈ (Commits.result c ws w).history :=
      fun e he => List.mem_append_left _ he
    have hkept : ∀ p ∈ w.db.payments, ∃ p' ∈ (w.db.applyAll ws).payments, p'.id = p.id ∧
        p'.bookingId = p.bookingId ∧ p'.stripePaymentIntentId = p.stripePaymentIntentId := by
      intro p hp
      obtain ⟨p', hp', hbid, hi⟩ := hrely.payment p.id p (hw.valid.payment?_of_mem hp)
      obtain ⟨hm, hid⟩ := Db.mem_of_payment? hp'
      exact ⟨p', hm, hid, hbid, hi⟩
    constructor
    · intro e he id hid
      rcases List.mem_append.mp he with he | he
      · exact Db.event_of_applyAll.mpr (.inl (h.events e he id hid))
      · rw [List.mem_singleton.mp he] at hid
        exact Db.event_of_applyAll.mpr (.inr (hc.registers hid))
    · intro id
      simp only [Commits.result, List.filter_append, List.length_append]
      by_cases hcall : c.call = .handleWebhook (some id)
      · -- the event is new, so no earlier commit applied it
        have hold : w.history.filter (fun e => e.Applies id) = [] := by
          rw [List.filter_eq_nil_iff]
          intro e he hid
          exact (hc.of_webhook hcall).1 (h.events e he id (by simpa using hid))
        rw [hold, List.length_nil, Nat.zero_add]
        exact List.length_filter_le _ [(⟨c, ws, w.db⟩ : Entry)]
      · have hnew : [(⟨c, ws, w.db⟩ : Entry)].filter (fun e => e.Applies id) = [] := by
          rw [List.filter_eq_nil_iff]
          intro e he
          rw [List.mem_singleton.mp he]
          exact fun hm => hcall (of_decide_eq_true hm)
        rw [hnew]
        exact h.once id
    · intro p hp hs
      rcases Db.paid_of_applyAll hp hs with ⟨p', hp', hid, hbid, hs'⟩ |
        ⟨ids, charge, time, hx, hid⟩ | ⟨p', hp', hs'⟩
      · exact (h.paid p' hp' hs').mono hid.symm hbid.symm hhist hrely
      · obtain ⟨p₀, hp₀, rfl, b, hb, hbp, id, hws⟩ := hc.paid_write hx
        obtain ⟨p₁, hp₁, hid₁, hbid₁, -⟩ := hkept p₀ hp₀
        have hid := List.mem_singleton.mp hid
        obtain rfl := Rows.eq_of_key hvalid.payments hp hp₁ (hid.trans hid₁.symm)
        exact Commits.settled hw.valid hb hbp hws hid hbid₁
      · have hst := (hc.insert_payment hp').2
        rw [hs'] at hst
        cases hst
    · intro id hid htype
      rcases Db.event_of_applyAll.mp hid with hid | hid
      · obtain ⟨p, hp, hi, hset⟩ := h.processed id hid htype
        obtain ⟨p', hp', hid', hbid', hi'⟩ := hkept p hp
        exact ⟨p', hp', hi'.trans hi, hset.mono hid' hbid' hhist hrely⟩
      · obtain ⟨-, ⟨-, p, hp, b, hb, hi, hbp, charge, time, hws⟩ | ⟨hfailed, -⟩ | ⟨hproc, -⟩⟩ :=
          hc.of_webhook (hc.insert_event hid)
        · obtain ⟨p', hp', hid', hbid', hi'⟩ := hkept p hp
          exact ⟨p', hp', hi'.trans hi, Commits.settled hw.valid hb hbp hws hid' hbid'⟩
        · rw [htype] at hfailed
          cases hfailed
        · rw [htype] at hproc
          cases hproc

theorem Sys.Fresh.ledger (h : s.Fresh) : s.world.Ledger cfg where
  events := by simp [h.history]
  once := by simp [h.history]
  paid := by simp [h.db.payments]
  processed := by simp [h.db.webhookEvents]

/-! ### Acknowledged deliveries -/

variable {J : World → Prop} {c : Session Call} {w w' : World} {p p' : Payment}
  {allow : Session Call → Local Key Write → World → Cmd Stmt → Bool → Prop}

theorem World.Settled.found {ks : List Key} (h : w.Settled p) (hf : Found cfg J c ks w w')
    (hid : p'.id = p.id) (hb : p'.bookingId = p.bookingId) : w'.Settled p' :=
  h.mono hid hb hf.rely.history (hf.rely.db.weaken (by simp))

/-- A success event whose payment row is there is settled when its handler ends without
an error, or finds the event registered. -/
theorem handlePaymentSuccess_settles {id : EventId} (call : c.call = .handleWebhook (some id))
    (type : (cfg.event id).type = .succeeded) (hv : w.db.Valid cfg) (hp : p ∈ w.db.payments)
    (hi : p.stripePaymentIntentId = (cfg.event id).intent) :
    wp (engine cfg) (rules cfg (World.Ledger cfg) allow) c
      (PaymentService.handlePaymentSuccess id (cfg.event id))
      (fun r _ w' => (r = .ok () ∨ r = .error .P2002) → w'.Settled p) .idle w := by
  unfold PaymentService.handlePaymentSuccess
  simp only [Prog.bind_eq, Prog.pure_eq]
  refine wp_query (fun w₁ h₁ => ?_) fun _ _ _ => wp_throw fun _ _ => by simp
  obtain ⟨p₁, hp₁, hid, hbid, hi₁⟩ := h₁.payment hv hp
  obtain ⟨b, hread⟩ := PaymentService.paymentByIntent_eval h₁.valid hp₁
  rw [← hi, ← hi₁, hread]
  simp only []
  by_cases hpaid : p₁.status = .PAID
  · rw [if_pos hpaid]
    intro w' hr hinv _
    have hf : Found cfg (World.Ledger cfg) c [] w₁ w' := ⟨hr, hinv.1, hinv.2⟩
    exact (h₁.extra.paid p₁ hp₁ hpaid).found hf hid.symm hbid.symm
  · rw [if_neg hpaid]
    refine PaymentService.paymentSuccessTx_wp (stable_ledger cfg) call type h₁.valid hp₁
      (hi₁.trans hi) ?_ ?_ ?_
    · intro p₂ b charge time w₂ w' h₂ hp₂ hid₂ hb hbp ws hc hf _
      obtain ⟨p₃, hp₃, hid₃, hbid₃, -⟩ := h₂.payment h₁.valid hp₁
      obtain rfl := Rows.eq_of_key h₂.valid.payments hp₃ hp₂ (hid₃.trans hid₂.symm)
      exact (Commits.settled h₂.valid hb hbp rfl rfl rfl).found hf (hid.symm.trans hid₂.symm)
        (hbid.symm.trans hbid₃.symm)
    · intro w' h hdone _
      obtain ⟨p₂, hp₂, hi₂, hset⟩ := h.extra.processed id hdone type
      obtain ⟨p₃, hp₃, hid₃, hbid₃, hi₃⟩ := h.payment h₁.valid hp₁
      obtain rfl := h.valid.eq_of_intent hp₃ hp₂ (hi₂.trans (hi₃.trans (hi₁.trans hi)).symm)
      exact hset.mono (hid₃.trans hid).symm (hbid₃.trans hbid).symm (fun _ h => h) (.refl _ _)
    · rintro e w' hne - (h | h)
      · cases h
      · exact absurd (Except.error.inj h) hne

theorem handleWebhook_settles {id : EventId} (call : c.call = .handleWebhook (some id))
    (type : (cfg.event id).type = .succeeded) (hv : w.db.Valid cfg) (hp : p ∈ w.db.payments)
    (hi : p.stripePaymentIntentId = (cfg.event id).intent) :
    wp (engine cfg) (rules cfg (World.Ledger cfg) allow) c
      (PaymentService.handleWebhook cfg (some id))
      (fun r _ w' => r = .ok .success → w'.Settled p) .idle w := by
  have hP : (rules cfg (World.Ledger cfg) allow).Lawful (engine cfg) :=
    rules_lawful (stable_ledger cfg)
  unfold PaymentService.handleWebhook PaymentService.handleEvent
  simp only [Prog.bind_eq, Prog.pure_eq, type]
  refine wp_bind hP (wp_tryCatch hP (wp_mono (handlePaymentSuccess_settles call type hv hp hi) ?_))
  rintro (e | _) l w₁ - hset
  · cases e with
    | P2002 =>
      intro w₂ hr hi w₃ hr' hi' _
      have hsettled : w₂.Settled p := (hset (.inr rfl)).found ⟨hr, hi.1, hi.2⟩ rfl rfl
      exact hsettled.found ⟨hr', hi'.1, hi'.2⟩ rfl rfl
    | _ => exact wp_throw fun _ _ => nofun
  · intro w₂ hr hi _
    exact (hset (.inl rfl)).found ⟨hr, hi.1, hi.2⟩ rfl rfl

/-- Thread `i` is a delivery of event `id` that has not read anything yet. -/
def Arrived (cfg : Config) (t : Sys) (i : ℕ) (id : EventId) : Prop :=
  t.threads[i]? = some ⟨⟨i, .handleWebhook (some id)⟩, PaymentService.handleWebhook cfg (some id), .idle⟩

theorem arrived_spawn {i : ℕ} (id : EventId) (hi : ((service cfg).run s as).threads.length = i) :
    Arrived cfg ((service cfg).run s (as ++ [.spawn (.handleWebhook (some id))])) i id := by
  have haccepts : ∀ w, (service cfg).accepts (.handleWebhook (some id)) w = true := fun _ => rfl
  rw [Service.run_append, Service.run_cons, Service.run_nil, Arrived, Service.step,
    if_pos (haccepts _), hi]
  simp [service, Call.body, ← hi]

/-- Along every run each event is applied at most once; and if the payment of a success
event is there while a delivery has still to read it, and the delivery ends with
success, then a commit has settled the payment. -/
theorem webhooks_once_settled (hs : s.Fresh) :
    (service cfg).Always
      (fun t => ∀ id, (t.world.history.filter fun e => e.Applies id).length ≤ 1) s as ∧
    ∀ pre rest, as = pre ++ rest → ∀ i id, Arrived cfg ((service cfg).run s pre) i id →
      (cfg.event id).type = .succeeded → ∀ p ∈ ((service cfg).run s pre).world.db.payments,
      p.stripePaymentIntentId = (cfg.event id).intent →
      ((service cfg).run s as).Ended i (.handleWebhook (some id)) (.ok .success) →
      ∃ e ∈ ((service cfg).run s as).world.history, e.Settles p := by
  constructor
  · exact (hs.initial.always (stable_ledger cfg) hs.ledger).mono fun t ht => ht.inv.2.once
  · rintro pre rest rfl i id harrived htype p hp hi hended
    have hsound : Sys.Keeps cfg (World.Ledger cfg) ((service cfg).run s pre) :=
      (hs.initial.always (stable_ledger cfg) hs.ledger).last
    rw [Service.run_append] at hended ⊢
    obtain ⟨l, hset⟩ := Service.sound_ends hsound (rules_lawful (stable_ledger cfg))
      (starts (stable_ledger cfg)) (Service.each_of_forall permits_any _ rest) harrived
      (handleWebhook_settles rfl htype hsound.inv.1.valid hp hi) hended
    exact (hset rfl).entry

/-- User 7 has booked and paid, and the success event is delivered once more. -/
def Arena.redelivered : List Act := sold ++ [.spawn (.handleWebhook (some 1))]

/-- The payment of that booking. -/
def Arena.paid : Payment :=
  PaymentChange.set (newPayment 102 101 1000 "usd" ⟨101⟩ ⟨⟨101⟩⟩) (.paid none 0)

theorem webhooks_once_settled_redelivered :
    ∃ e ∈ ((service (Arena.cfg true)).run Arena.sys
      (Arena.redelivered ++ ([.run 3] : List Act))).world.history, e.Settles Arena.paid := by
  have harrived : Arrived (Arena.cfg true)
      ((service (Arena.cfg true)).run Arena.sys Arena.redelivered) 3 1 :=
    arrived_spawn 1 (by decide +kernel)
  exact (webhooks_once_settled Arena.fresh).2 Arena.redelivered [.run 3] rfl 3 1 harrived rfl
    Arena.paid (by decide +kernel) rfl (by decide +kernel)

end TurfSync
