import TurfSync.Protocol.Booking

/-! The payment operations keep to the protocol, and so does the completion of a
booking. `createPaymentIntent` and the completions write on the strength of what they
read before, so little is known of the rows they find. -/

namespace TurfSync

open Txn

variable {cfg : Config} {J : World → Prop}
  {allow : Session Call → Local Key Write → World → Cmd Stmt → Bool → Prop} {c : Session Call}
  {w : World}

namespace PaymentService

/-- What `payment.upsert` does: it fails, changes the booking's payment, or inserts
one. -/
theorem plan_paymentUpsert (cfg : Config) (db : Db) (uuid : ℕ) (now : Time) (bookingId : BookingId) (amount : ℚ)
    (currency : String) (intent : IntentId) (secret : ClientSecret) :
    let plan := (Update.paymentUpsert bookingId amount currency intent secret).plan cfg db uuid now
    (∃ e ks, plan = .fail e ks) ∨
    (∃ p, db.paymentOf? bookingId = some p ∧
      plan = ⟨.ok ((PaymentChange.initiated intent secret).set p), [.payment p.id],
        [.paymentSet [p.id] (.initiated intent secret)], 0⟩) ∨
    (db.paymentOf? bookingId = none ∧ (∃ b ∈ db.bookings, b.id = bookingId) ∧
      plan = ⟨.ok (newPayment uuid bookingId amount currency intent secret), [.payment uuid],
        [.paymentInsert (newPayment uuid bookingId amount currency intent secret)], 1⟩) := by
  simp only [Update.plan]
  by_cases hu : ∃ p ∈ db.payments, p.stripePaymentIntentId = intent ∧ p.bookingId ≠ bookingId
  · rw [if_pos hu]
    exact .inl ⟨_, _, rfl⟩
  rw [if_neg hu]
  cases hp : db.paymentOf? bookingId with
  | some p => exact .inr (.inl ⟨p, rfl, rfl⟩)
  | none =>
    cases hb : db.booking? bookingId with
    | none => exact .inl ⟨_, _, rfl⟩
    | some b => exact .inr (.inr ⟨rfl, ⟨b, Db.mem_of_booking? hb⟩, rfl⟩)

theorem createPaymentIntent_wp {bookingId : BookingId} {userId : UserId}
    (call : c.call = .createPaymentIntent bookingId userId) :
    wp (engine cfg) (rules cfg J allow) c (createPaymentIntent cfg bookingId userId)
      (fun _ _ _ => True) .idle w := by
  unfold createPaymentIntent
  simp only [Prog.bind_eq, Prog.pure_eq]
  refine wp_query (fun w₁ h₁ => ?_) fun w' _ _ => wp_throw fun _ _ => trivial
  cases hfound : (Query.bookingDetail bookingId).eval w₁.db with
  | none => exact wp_throw fun _ _ => trivial
  | some d =>
    have hid : d.booking.id = bookingId := by
      simp only [Query.eval, Db.bookingDetail?, Option.bind_eq_bind, Option.bind_eq_some_iff,
        Option.some.injEq] at hfound
      obtain ⟨b, hb, t, -, s, -, rfl⟩ := hfound
      exact (Db.mem_of_booking? hb).2
    simp only []
    split_ifs
    · exact wp_throw fun _ _ => trivial
    · exact wp_throw fun _ _ => trivial
    cases d.payment.bind Payment.openSecret with
    | some row => exact fun _ _ _ => trivial
    | none =>
      refine wp_external (fun w₂ h₂ => ?_) fun w' _ _ => wp_throw fun _ _ => trivial
      simp only [External.eval, hid]
      split_ifs
      swap
      · exact wp_throw fun _ _ => trivial
      refine wp_update (fun w₃ p h₃ hp => ?_) fun w' _ _ => wp_throw fun _ _ => trivial
      rcases plan_paymentUpsert cfg w₃.db w₃.out.uuid w₃.out.now bookingId
        d.booking.totalAmount cfg.currency ⟨bookingId⟩ ⟨⟨bookingId⟩⟩ with
        ⟨e, ks, hp'⟩ | ⟨p', hpay, hp'⟩ | ⟨hnone, hb, hp'⟩
      · obtain rfl := hp.symm.trans hp'
        exact ⟨fun _ => wp_throw fun _ _ => trivial, fun h => absurd rfl h⟩
      · obtain rfl := hp.symm.trans hp'
        obtain ⟨hm, hbid⟩ := Db.mem_of_paymentOf? hpay
        refine ⟨fun h => (by cases h), fun _ => ⟨⟨?_, by simp [Write.keys]⟩, fun _ _ _ => trivial⟩⟩
        exact .reinitiate call hbid hm
      · obtain rfl := hp.symm.trans hp'
        refine ⟨fun h => (by cases h), fun _ => ⟨⟨?_, by simp [Write.keys, newPayment]⟩,
          fun _ _ _ => trivial⟩⟩
        refine .initiate call rfl rfl (Nat.lt_succ_self _) ⟨fun p' hp' => ⟨?_, ?_⟩, hb, rfl⟩
        · exact Nat.ne_of_lt (h₃.wellFormed.paymentIds p' hp')
        · exact Rows.lookup_none.mp hnone p' hp'

/-! ### Webhooks -/

/-- The payment of an intent, as a webhook reads it. -/
theorem paymentByIntent_found {intent : IntentId} {payment : Payment} {booking : Booking}
    (h : (Query.paymentByIntent intent).eval w.db = some (payment, booking)) :
    payment ∈ w.db.payments ∧ payment.stripePaymentIntentId = intent ∧
      w.db.booking? payment.bookingId = some booking := by
  simp only [Query.eval, Option.bind_eq_bind, Option.bind_eq_some_iff, Option.some.injEq,
    Prod.mk.injEq] at h
  obtain ⟨p, hp, b, hb, rfl, rfl⟩ := h
  obtain ⟨hm, hi⟩ := Db.mem_of_paymentByIntent? hp
  exact ⟨hm, hi, hb⟩

theorem paymentByIntent_wp {β : Type} {intent : IntentId} {f : Option (Payment × Booking) → Op β}
    {Q : Post Err Key Write World β}
    (hsome : ∀ payment booking w₁, Found cfg J c [] w w₁ → payment ∈ w₁.db.payments →
      payment.stripePaymentIntentId = intent →
      wp (engine cfg) (rules cfg J allow) c (f (some (payment, booking))) Q .idle w₁)
    (hnone : ∀ w₁, Found cfg J c [] w w₁ →
      wp (engine cfg) (rules cfg J allow) c (f none) Q .idle w₁)
    (hf : ∀ w₁, Found cfg J c [] w w₁ →
      wp (engine cfg) (rules cfg J allow) c (.throw .infrastructure) Q .idle w₁) :
    wp (engine cfg) (rules cfg J allow) c ((query (.paymentByIntent intent)).bind f) Q .idle w := by
  refine wp_query (fun w₁ h₁ => ?_) fun w₁ h₁ _ => hf w₁ h₁
  cases hfound : (Query.paymentByIntent intent).eval w₁.db with
  | none => exact hnone w₁ h₁
  | some row =>
    obtain ⟨payment, booking⟩ := row
    obtain ⟨hp, hi, -⟩ := paymentByIntent_found hfound
    exact hsome payment booking w₁ h₁ hp hi

/-- A webhook finds the payment of its intent. -/
theorem paymentByIntent_eval {db : Db} {p : Payment} (hv : db.Valid cfg) (hp : p ∈ db.payments) :
    ∃ b, (Query.paymentByIntent p.stripePaymentIntentId).eval db = some (p, b) := by
  have hfound : db.paymentByIntent? p.stripePaymentIntentId = some p := by
    cases h : db.paymentByIntent? p.stripePaymentIntentId with
    | none => exact absurd rfl (Rows.lookup_none.mp h p hp)
    | some p' =>
      obtain ⟨hp', hi⟩ := Db.mem_of_paymentByIntent? h
      rw [hv.eq_of_intent hp hp' hi]
  obtain ⟨b, hb, hbid⟩ := hv.paymentBooking p hp
  refine ⟨b, ?_⟩
  simp [Query.eval, hfound, hv.booking?_iff.mpr ⟨hb, hbid⟩]

/-- An event registered under its lock is new when the transaction commits. -/
theorem Found.newEvent {ks : List Key} {w' : World} (h : Found cfg J c ks w w') {id : EventId}
    (hk : .event id ∈ ks) (hn : id ∉ w.db.webhookEvents) : id ∉ w'.db.webhookEvents :=
  fun hm => hn (h.rely.db.eventLock id hk hm)

theorem plan_webhookEventCreate (cfg : Config) (db : Db) (uuid : ℕ) (now : Time) (id : EventId) :
    (id ∈ db.webhookEvents ∧
      (Update.webhookEventCreate id).plan cfg db uuid now = .fail .P2002 [.event id]) ∨
    (id ∉ db.webhookEvents ∧ (Update.webhookEventCreate id).plan cfg db uuid now =
      ⟨.ok (), [.event id], [.eventInsert id], 0⟩) := by
  by_cases h : id ∈ db.webhookEvents
  · exact .inl ⟨h, if_pos h⟩
  · exact .inr ⟨h, if_neg h⟩

/-- The first statement of every webhook transaction. -/
theorem webhookEventCreate_wp {eventId : EventId} {f : Unit → Op Unit}
    {Q : Post Err Key Write World Unit}
    (h : ∀ w', Found cfg J c [] w w' → eventId ∉ w'.db.webhookEvents →
      wp (engine cfg) (rules cfg J allow) c (f ()) (TxPost (engine cfg) (rules cfg J allow) c Q)
        ⟨some [.eventInsert eventId], [.event eventId]⟩ w')
    (hdup : ∀ w', Found cfg J c [] w w' → eventId ∈ w'.db.webhookEvents →
      Q (.error .P2002) .idle w')
    (herr : ∀ e w', e ≠ .P2002 → Found cfg J c [] w w' → Q (.error e) .idle w') :
    wp (engine cfg) (rules cfg J allow) c ((update (.webhookEventCreate eventId)).bind f)
      (TxPost (engine cfg) (rules cfg J allow) c Q) ⟨some [], []⟩ w := by
  refine wp_update_tx (fun w₁ h₁ => ?_) (wp_fault_tx herr)
  rcases plan_webhookEventCreate cfg w₁.db w₁.out.uuid w₁.out.now eventId with
    ⟨hdone, hp⟩ | ⟨hnew, hp⟩
  · rw [Db.applyAll_nil, hp]
    exact wp_throw_tx fun w'' h' => hdup _ (h₁.trans h') (h'.rely.db.events _ hdone)
  · rw [Db.applyAll_nil, hp]
    exact h w₁ h₁ hnew

/-- `paidAt: new Date()` and the update of the payment. -/
theorem paid_wp {id : PaymentId} {charge : Option String} {ws : List Write} {ks : List Key}
    {f : Time → Unit → Op Unit} {Q : Post Err Key Write World Unit}
    (h : ∀ time w', Found cfg J c ks w w' →
      wp (engine cfg) (rules cfg J allow) c (f time ())
        (TxPost (engine cfg) (rules cfg J allow) c Q)
        ⟨some (ws ++ [.paymentSet [id] (.paid charge time)]), [.payment id] ++ ks⟩ w')
    (herr : ∀ e w', e ≠ .P2002 → Found cfg J c [] w w' → Q (.error e) .idle w') :
    wp (engine cfg) (rules cfg J allow) c
      ((external .dateNow).bind fun time =>
        (update (.paymentUpdate id (.paid charge time))).bind (f time))
      (TxPost (engine cfg) (rules cfg J allow) c Q) ⟨some ws, ks⟩ w := by
  refine wp_external_tx (fun w₁ h₁ => ?_) (wp_fault_tx herr)
  have herr₁ : ∀ e w', e ≠ .P2002 → Found cfg J c [] w₁ w' → Q (.error e) .idle w' :=
    fun e w' he h' => herr e w' he (h₁.forget.trans h')
  exact wp_row_tx herr₁ (plan_paymentUpdate cfg id _) fun w₂ h₂ => h _ w₂ (h₁.trans h₂)

/-- Under the locks of the event and the booking, the commit is the success of the event. -/
theorem succeeded_commits {w₀ w' : World} {eventId : EventId} {payment : Payment} {b : Booking}
    (call : c.call = .handleWebhook (some eventId)) (type : (cfg.event eventId).type = .succeeded)
    (hv : w₀.db.Valid cfg) (hp : payment ∈ w₀.db.payments)
    (hi : payment.stripePaymentIntentId = (cfg.event eventId).intent) (h₀ : Found cfg J c [] w₀ w)
    (hnew : eventId ∉ w.db.webhookEvents) (hb : w.db.booking? payment.bookingId = some b)
    (h : Found cfg J c [.event eventId, .booking payment.bookingId] w w') :
    ∃ p ∈ w'.db.payments, p.id = payment.id ∧ b ∈ w'.db.bookings ∧ b.id = p.bookingId ∧
      payment.bookingId = b.id ∧ ∀ charge time, Commits cfg c w'
        (.eventInsert eventId :: .paymentSet [p.id] (.paid charge time) ::
          if b.status = .PENDING then [.bookingSet [b.id] .CONFIRMED] else []) := by
  obtain ⟨p, hmem, hid, hbid, hint⟩ := (h₀.trans h.forget).payment hv hp
  obtain ⟨hb', hbid'⟩ := Db.mem_of_booking? ((h.booking? (by simp)).trans hb)
  have hnew' : eventId ∉ w'.db.webhookEvents := Found.newEvent h (by simp) hnew
  exact ⟨p, hmem, hid, hb', hbid'.trans hbid.symm, hbid'.symm, fun charge time =>
    .succeeded call type hnew' hmem (hint.trans hi) hb' (hbid'.trans hbid.symm)⟩

/-- The transaction of a success webhook: it applies the event, finds it registered, or
fails otherwise. -/
theorem paymentSuccessTx_wp (hJ : Stable cfg J) {eventId : EventId} {payment : Payment}
    {booking : Booking} {Q : Post Err Key Write World Unit}
    (call : c.call = .handleWebhook (some eventId)) (type : (cfg.event eventId).type = .succeeded)
    (hv : w.db.Valid cfg) (hp : payment ∈ w.db.payments)
    (hi : payment.stripePaymentIntentId = (cfg.event eventId).intent)
    (hok : ∀ p b charge time w₁ w', Found cfg J c [] w w₁ → p ∈ w₁.db.payments →
      p.id = payment.id → b ∈ w₁.db.bookings → b.id = p.bookingId →
      let ws := .eventInsert eventId :: .paymentSet [p.id] (.paid charge time) ::
        if b.status = .PENDING then [.bookingSet [b.id] .CONFIRMED] else []
      Commits cfg c w₁ ws → Found cfg J c [] (Commits.result c ws w₁) w' → Q (.ok ()) .idle w')
    (hdup : ∀ w', Found cfg J c [] w w' → eventId ∈ w'.db.webhookEvents →
      Q (.error .P2002) .idle w')
    (herr : ∀ e w', e ≠ .P2002 → Found cfg J c [] w w' → Q (.error e) .idle w') :
    wp (engine cfg) (rules cfg J allow) c
      (Script.transaction (paymentSuccessTx eventId (cfg.event eventId) payment booking)) Q
      .idle w := by
  refine wp_tx (fun w₀ h₀ => ?_) fun w' h _ w'' hr hi => herr _ _ (by simp)
    (h.trans ⟨hr, hi.1, hi.2⟩)
  unfold paymentSuccessTx
  simp only [Prog.bind_eq]
  refine webhookEventCreate_wp (fun w₁ h₁ hnew => ?_) (fun w' h => hdup w' (h₀.trans h))
    fun e w' he h => herr e w' he (h₀.trans h)
  have h₁ := h₀.trans h₁
  refine wp_lock_tx (fun w₂ h₂ _ => ?_)
    (wp_fault_tx fun e w' he h => herr e w' he (h₁.trans h))
  have hw₂ := h₁.trans h₂.forget
  have hnew₂ := Found.newEvent h₂ (by simp) hnew
  have herr₂ : ∀ e w', e ≠ .P2002 → Found cfg J c [] w₂ w' → Q (.error e) .idle w' :=
    fun e w' he h => herr e w' he (hw₂.trans h)
  simp only [RowLock.eval]
  cases hb : (w₂.db.applyAll [.eventInsert eventId]).booking? payment.bookingId with
  | none => exact wp_throw_tx fun w'' h' => herr₂ _ w'' (by simp) h'
  | some b =>
    simp only []
    by_cases hstatus : b.status = .PENDING
    · simp only [hstatus, ne_eq, not_true_eq_false, if_false]
      refine paid_wp (fun time w₃ h₃ => ?_) herr₂
      have herr₃ : ∀ e w', e ≠ .P2002 → Found cfg J c [] w₃ w' → Q (.error e) .idle w' :=
        fun e w' he h => herr₂ e w' he (h₃.forget.trans h)
      refine wp_row_tx herr₃ (plan_bookingUpdate cfg payment.bookingId .CONFIRMED) fun w₄ h₄ => ?_
      rw [← Prog.bind_ret (quietly _)]
      refine wp_quietly hJ (external_found_tx hJ) fun w₅ h₅ => ?_
      have h₅ : Found cfg J c [.event eventId, .booking payment.bookingId] w₂ w₅ :=
        (h₃.weaken (by simp)).trans ((h₄.weaken (by simp)).trans (h₅.weaken (by simp)))
      refine wp_ret_tx (fun w₆ h₆ => ?_) fun w₆ w' h₆ _ h' =>
        herr₂ _ _ (by simp) (h₅.forget.trans (h₆.forget.trans h'))
      obtain ⟨p, hmem, hid, hbmem, hbid, hbook, hc⟩ := succeeded_commits call type hv hp hi hw₂
        hnew₂ hb (h₅.trans (h₆.weaken (by simp)))
      have hc := hc (cfg.event eventId).latestCharge time
      refine ⟨⟨?_, by simp [Write.keys]⟩, fun w' h' => ?_⟩
      · rw [if_pos hstatus, hid, ← hbook] at hc
        exact hc
      · refine hok p b _ _ w₆ w' (hw₂.trans (h₅.forget.trans h₆.forget)) hmem hid hbmem hbid hc ?_
        rw [if_pos hstatus, hid, ← hbook]
        exact h'
    · simp only [hstatus, ne_eq, not_false_eq_true, if_true]
      have hlast : (external .dateNow).bind (fun paidAt : Time => update (.paymentUpdate payment.id
          (.paid (cfg.event eventId).latestCharge paidAt))) =
          (external .dateNow).bind fun paidAt : Time => (update (.paymentUpdate payment.id
            (.paid (cfg.event eventId).latestCharge paidAt))).bind .ret := by
        simp only [Prog.bind_ret]
      rw [hlast]
      refine paid_wp (fun time w₃ h₃ => ?_) herr₂
      refine wp_ret_tx (fun w₄ h₄ => ?_) fun w₄ w' h₄ _ h' =>
        herr₂ _ _ (by simp) (h₃.forget.trans (h₄.forget.trans h'))
      obtain ⟨p, hmem, hid, hbmem, hbid, -, hc⟩ := succeeded_commits call type hv hp hi hw₂
        hnew₂ hb ((h₃.trans (h₄.weaken (by simp))).weaken (by simp))
      have hc := hc (cfg.event eventId).latestCharge time
      refine ⟨⟨?_, by simp [Write.keys]⟩, fun w' h' => ?_⟩
      · rw [if_neg hstatus, hid] at hc
        exact hc
      · refine hok p b _ _ w₄ w' (hw₂.trans (h₃.forget.trans h₄.forget)) hmem hid hbmem hbid hc ?_
        rw [if_neg hstatus, hid]
        exact h'

theorem handlePaymentSuccess_wp (hJ : Stable cfg J) {eventId : EventId}
    (call : c.call = .handleWebhook (some eventId)) (type : (cfg.event eventId).type = .succeeded) :
    wp (engine cfg) (rules cfg J allow) c (handlePaymentSuccess eventId (cfg.event eventId))
      (fun _ l _ => l = .idle) .idle w := by
  unfold handlePaymentSuccess
  simp only [Prog.bind_eq, Prog.pure_eq]
  refine paymentByIntent_wp (fun payment booking w₁ h₁ hp hi => ?_) (fun _ _ _ _ _ => rfl)
    fun _ _ _ _ _ => rfl
  simp only []
  split_ifs
  · exact fun _ _ _ => rfl
  · exact paymentSuccessTx_wp hJ call type h₁.valid hp hi (fun _ _ _ _ _ _ _ _ _ _ _ _ _ => rfl)
      (fun _ _ _ => rfl) fun _ _ _ _ => rfl

theorem paymentFailedTx_wp {eventId : EventId} {payment : Payment} {reason : String}
    (call : c.call = .handleWebhook (some eventId))
    (type : (cfg.event eventId).type = .payment_failed) (hv : w.db.Valid cfg)
    (hp : payment ∈ w.db.payments)
    (hi : payment.stripePaymentIntentId = (cfg.event eventId).intent) :
    wp (engine cfg) (rules cfg J allow) c
      (Script.transaction (paymentFailedTx eventId payment.id reason)) (fun _ l _ => l = .idle)
      .idle w := by
  refine wp_tx (fun w₀ h₀ => ?_) fun _ _ _ _ _ _ => rfl
  unfold paymentFailedTx
  simp only [Prog.bind_eq]
  refine webhookEventCreate_wp (fun w₁ h₁ hnew => ?_) (fun _ _ _ => rfl) fun _ _ _ _ => rfl
  rw [← Prog.bind_ret (update _)]
  refine wp_row_tx (fun _ _ _ _ => rfl) (plan_paymentUpdate cfg payment.id (.failed reason))
    fun w₂ h₂ => ?_
  refine wp_ret_tx (fun w₃ h₃ => ⟨⟨?_, by simp [Write.keys]⟩, fun _ _ => rfl⟩) fun _ _ _ _ _ => rfl
  obtain ⟨p, hmem, hid, -, hint⟩ :=
    (h₀.trans (h₁.trans (h₂.forget.trans h₃.forget))).payment hv hp
  have hnew' := Found.newEvent (h₂.trans (h₃.weaken (by simp))) (by simp) hnew
  have hc : Commits cfg c w₃ [.eventInsert eventId, .paymentSet [p.id] (.failed reason)] :=
    .failed call type hnew' hmem (hint.trans hi)
  rw [hid] at hc
  exact hc

theorem handlePaymentFailed_wp (hJ : Stable cfg J) {eventId : EventId}
    (call : c.call = .handleWebhook (some eventId))
    (type : (cfg.event eventId).type = .payment_failed) :
    wp (engine cfg) (rules cfg J allow) c (handlePaymentFailed eventId (cfg.event eventId))
      (fun _ l _ => l = .idle) .idle w := by
  have hP : (rules cfg J allow).Lawful (engine cfg) := rules_lawful hJ
  unfold handlePaymentFailed
  simp only [Prog.bind_eq, Prog.pure_eq]
  refine paymentByIntent_wp (fun payment booking w₁ h₁ hp hi => ?_) (fun _ _ _ _ _ => rfl)
    fun _ _ _ _ _ => rfl
  simp only []
  refine wp_bind hP (wp_mono (paymentFailedTx_wp call type h₁.valid hp hi) ?_)
  rintro (e | _) l w₂ - rfl
  · rfl
  rw [← Prog.bind_ret (quietly _)]
  exact wp_quietly hJ (external_found hJ) fun _ _ _ _ _ => rfl

theorem handlePaymentProcessing_wp {eventId : EventId}
    (call : c.call = .handleWebhook (some eventId))
    (type : (cfg.event eventId).type = .processing) :
    wp (engine cfg) (rules cfg J allow) c (handlePaymentProcessing eventId (cfg.event eventId))
      (fun _ l _ => l = .idle) .idle w := by
  unfold handlePaymentProcessing
  refine wp_tx (fun w₀ h₀ => ?_) fun _ _ _ _ _ _ => rfl
  unfold paymentProcessingTx
  simp only [Prog.bind_eq]
  refine webhookEventCreate_wp (fun w₁ h₁ hnew => ?_) (fun _ _ _ => rfl) fun _ _ _ _ => rfl
  rw [← Prog.bind_ret (update _)]
  refine wp_update_tx (fun w₂ h₂ => ?_) fun _ _ _ =>
    wp_throw_tx (Q := fun _ l _ => l = .idle) fun _ _ => rfl
  simp only [Update.plan]
  generalize hrows : ((w₂.db.applyAll [.eventInsert eventId]).payments.filter fun p =>
    p.stripePaymentIntentId = (cfg.event eventId).intent).map (·.id) = rows
  refine wp_ret_tx (Q := fun _ l _ => l = .idle) (fun w₃ h₃ => ⟨⟨?_, ?_⟩, fun _ _ => rfl⟩)
    fun _ _ _ _ _ => rfl
  · refine .processing call type
      (Found.newEvent (h₂.trans (h₃.weaken (by simp))) (by simp) hnew) fun p hp hid => ?_
    -- the row is locked, so it is the one the update found
    have hkey : Key.payment p.id ∈ rows.map Key.payment ++ ([.event eventId] ++ []) := by
      simp [hid]
    have hsome := h₃.valid.payment?_of_mem hp
    rw [h₃.rely.db.paymentLock _ hkey] at hsome
    obtain ⟨p', hp', he⟩ := List.mem_map.mp (hrows ▸ hid)
    obtain ⟨hm, hint⟩ := List.mem_filter.mp hp'
    have heq := Rows.eq_of_key h₂.valid.payments (Db.mem_of_payment? hsome).1 hm he.symm
    rw [heq]
    simpa using hint
  · simp [Write.keys]

theorem handleWebhook_wp (hJ : Stable cfg J) {event : Option EventId}
    (call : c.call = .handleWebhook event) :
    wp (engine cfg) (rules cfg J allow) c (handleWebhook cfg event) (fun _ _ _ => True) .idle w := by
  have hP : (rules cfg J allow).Lawful (engine cfg) := rules_lawful hJ
  cases event with
  | none => exact wp_throw fun _ _ => trivial
  | some eventId =>
    have hevent : wp (engine cfg) (rules cfg J allow) c (handleEvent eventId (cfg.event eventId))
        (fun _ l _ => l = .idle) .idle w := by
      unfold handleEvent
      split
      · exact handlePaymentSuccess_wp hJ call ‹_›
      · exact handlePaymentFailed_wp hJ call ‹_›
      · exact handlePaymentProcessing_wp call ‹_›
      · exact fun _ _ _ => rfl
    unfold handleWebhook
    simp only [Prog.bind_eq, Prog.pure_eq]
    refine wp_bind hP (wp_tryCatch hP (wp_mono hevent ?_))
    rintro (e | _) l w₁ - rfl
    · cases e with
      | P2002 => exact fun _ _ _ _ _ _ => trivial
      | _ => exact fun _ _ _ => trivial
    · exact fun _ _ _ => trivial

/-! ### Refunds -/

/-- The booking row is locked, the slot row is not: what is read of the other bookings
may be out of date when the transaction commits. -/
theorem refundTx_wp {b : Booking} {userId : UserId} {payment : Payment}
    (call : c.call = .refund b.id userId) (hv : w.db.Valid cfg) (hb : b ∈ w.db.bookings)
    (hp : payment ∈ w.db.payments) (hpb : payment.bookingId = b.id) :
    wp (engine cfg) (rules cfg J allow) c
      (Script.transaction (refundTx b.id payment.id b.slotId)) (fun _ l _ => l = .idle) .idle w := by
  refine wp_tx (fun w₀ h₀ => ?_) fun _ _ _ _ _ _ => rfl
  unfold refundTx
  simp only [Prog.bind_eq, Prog.pure_eq]
  refine wp_lock_tx (fun w₁ h₁ _ => ?_) fun _ _ _ => wp_throw_tx fun _ _ => rfl
  have h₁ := h₀.trans h₁
  obtain ⟨b₁, hb₁, hages⟩ := h₁.rely.db.booking b.id b (hv.booking?_of_mem hb)
  simp only [RowLock.eval, Db.applyAll_nil, hb₁]
  refine wp_row_tx (fun _ _ _ _ => rfl) (plan_paymentUpdate cfg payment.id .refunded)
    fun w₂ h₂ => ?_
  refine wp_row_tx (fun _ _ _ _ => rfl) (plan_bookingUpdate cfg b.id .CANCELLED) fun w₃ h₃ => ?_
  refine wp_query_tx (fun w₄ h₄ => ?_) fun _ _ _ => wp_throw_tx fun _ _ => rfl
  have h₄ : Found cfg J c [.booking b.id] w₁ w₄ :=
    (h₂.weaken (by simp)).trans ((h₃.weaken (by simp)).trans (h₄.weaken (by simp)))
  generalize hA : (Query.bookingFindActive [b.slotId] [b.id]).eval (w₄.db.applyAll
    ([] ++ [.paymentSet [payment.id] .refunded] ++ [.bookingSet [b.id] .CANCELLED])) = A
  have hactive : ∀ b', b' ∈ A → b' ∈ w₄.db.bookings ∧ b'.slotId = b.slotId ∧ b'.id ≠ b.id := by
    intro b' hb'
    rw [← hA] at hb'
    have hmem : b' ∈ ((w₄.db.apply (.paymentSet [payment.id] .refunded)).apply
        (.bookingSet [b.id] .CANCELLED)).activeOn [b.slotId] [b.id] := hb'
    obtain ⟨hm, hs, -, hid⟩ := BookingService.mem_activeOn.mp hmem
    exact ⟨hm, List.mem_singleton.mp hs, fun he => hid (List.mem_singleton.mpr he)⟩
  -- whatever is freed, the commit is the refund of `b`
  have hcommit : ∀ freed w', Found cfg J c [.booking b.id] w₄ w' →
      (freed = [] ∨ freed = [b.slotId]) →
      (freed = [] → A ≠ []) →
      Commits cfg c w' (.paymentSet [payment.id] .refunded :: .bookingSet [b.id] .CANCELLED ::
        release freed) := by
    intro freed w' h hs hfreed
    obtain ⟨p', hp', hid, hbid, -⟩ := (h₁.trans (h₄.trans h).forget).payment hv hp
    have hsome := ((h₄.trans h).booking? (by simp)).trans hb₁
    obtain ⟨hmem, hbid'⟩ := Db.mem_of_booking? hsome
    have hc : Commits cfg c w' (.paymentSet [p'.id] .refunded ::
        .bookingSet [b₁.id] .CANCELLED :: release freed) := by
      refine .refund (hages.id_eq ▸ call) hp' (hbid.trans (hpb.trans hages.id_eq.symm)) hmem
        (hages.slotId ▸ hs) fun he => ?_
      obtain ⟨b', hb'⟩ := List.exists_mem_of_ne_nil A (hfreed he)
      obtain ⟨hm, hslot, hne⟩ := hactive b' hb'
      obtain ⟨b'', hb'', ha⟩ := h.booking h₄.valid hm
      exact ⟨b'', hb'', ha.slotId.trans (hslot.trans hages.slotId.symm),
        fun he => hne (ha.id_eq.symm.trans (he.trans hages.id_eq))⟩
    rw [hid, hages.id_eq] at hc
    exact hc
  split_ifs with hnone
  · rw [← Prog.bind_ret (update _)]
    refine wp_row_tx (fun _ _ _ _ => rfl) (plan_slotUpdate cfg b.slotId false) fun w₅ h₅ => ?_
    refine wp_ret_tx (fun w₆ h₆ => ⟨⟨?_, by simp [Write.keys]⟩, fun _ _ => rfl⟩)
      fun _ _ _ _ _ => rfl
    exact hcommit [b.slotId] w₆ ((h₅.weaken (by simp)).trans (h₆.weaken (by simp))) (by simp)
      (by simp)
  · refine wp_ret_tx (fun w₅ h₅ => ⟨⟨?_, by simp [Write.keys]⟩, fun _ _ => rfl⟩)
      fun _ _ _ _ _ => rfl
    exact hcommit [] w₅ (h₅.weaken (by simp)) (by simp) fun _ => hnone

theorem refund_wp (hJ : Stable cfg J) {bookingId : BookingId} {userId : UserId}
    (call : c.call = .refund bookingId userId) :
    wp (engine cfg) (rules cfg J allow) c (refund bookingId userId) (fun _ _ _ => True) .idle w := by
  have hP : (rules cfg J allow).Lawful (engine cfg) := rules_lawful hJ
  unfold refund
  simp only [Prog.bind_eq, Prog.pure_eq]
  refine wp_query (fun w₁ h₁ => ?_) fun w' _ _ => wp_throw fun _ _ => trivial
  cases hfound : (Query.paymentDetail bookingId).eval w₁.db with
  | none => exact wp_throw fun _ _ => trivial
  | some d =>
    obtain ⟨hp, hpb, hb, hbid, hslot⟩ : d.payment ∈ w₁.db.payments ∧
        d.payment.bookingId = bookingId ∧ d.booking ∈ w₁.db.bookings ∧
        d.booking.id = bookingId ∧ d.slot.id = d.booking.slotId := by
      simp only [Query.eval, Db.paymentDetail?, Option.bind_eq_bind, Option.bind_eq_some_iff,
        Option.some.injEq] at hfound
      obtain ⟨p, hp, b, hb, s, hs, rfl⟩ := hfound
      obtain ⟨hp, hpb⟩ := Db.mem_of_paymentOf? hp
      obtain ⟨hb, hbid⟩ := Db.mem_of_booking? hb
      exact ⟨hp, hpb, hb, hbid.trans hpb, (Db.mem_of_slot? hs).2⟩
    simp only []
    by_cases huser : d.booking.userId ≠ userId
    · rw [if_pos huser]
      exact wp_throw fun _ _ => trivial
    rw [if_neg huser]
    by_cases hstatus : d.payment.status ≠ .PAID
    · rw [if_pos hstatus]
      exact wp_throw fun _ _ => trivial
    rw [if_neg hstatus]
    refine wp_external (fun w₂ h₂ => ?_) fun w' _ _ => wp_throw fun _ _ => trivial
    simp only [External.eval, resume_ok]
    split_ifs
    · exact wp_throw fun _ _ => trivial
    refine wp_external (fun w₃ h₃ => ?_) fun w' _ _ => wp_throw fun _ _ => trivial
    have h₄ := (h₁.trans h₂).trans
      (h₃.out hJ ((External.createRefund d.payment.stripePaymentIntentId).uuid_le w₃.out))
    have hback := h₂.trans
      (h₃.out hJ ((External.createRefund d.payment.stripePaymentIntentId).uuid_le w₃.out))
    obtain ⟨b, hbm, hages⟩ := hback.booking h₁.valid hb
    obtain ⟨p, hpm, hpid, hpbid, -⟩ := hback.payment h₁.valid hp
    cases ((External.createRefund d.payment.stripePaymentIntentId).eval w₃.out).1 with
    | error e => exact wp_throw fun _ _ => trivial
    | ok refundId =>
      have hid : b.id = bookingId := hages.id_eq.trans hbid
      rw [← hid, ← hpid, hslot, ← hages.slotId]
      refine wp_bind hP (wp_mono (refundTx_wp (hid ▸ call) h₄.valid hbm hpm
        (hpbid.trans (hpb.trans hid.symm))) ?_)
      rintro (e | _) l w₅ - rfl
      · trivial
      · exact fun _ _ _ => trivial

end PaymentService

/-! ### Completion -/

namespace AdminService

theorem completeBooking_wp {bookingId : BookingId} {adminId : UserId}
    (call : c.call = .completeBooking bookingId adminId) :
    wp (engine cfg) (rules cfg J allow) c (completeBooking bookingId adminId)
      (fun _ _ _ => True) .idle w := by
  unfold completeBooking
  simp only [Prog.bind_eq, Prog.pure_eq]
  refine wp_query (fun w₁ h₁ => ?_) fun w' _ _ => wp_throw fun _ _ => trivial
  cases hfound : (Query.bookingFindUnique bookingId).eval w₁.db with
  | none => exact wp_throw fun _ _ => trivial
  | some booking =>
    simp only []
    split_ifs with hstatus
    · exact wp_throw fun _ _ => trivial
    have hstatus : booking.status = .CONFIRMED := not_not.mp hstatus
    refine wp_update (fun w₂ p h₂ hp => ?_) fun w' _ _ => wp_throw fun _ _ => trivial
    rcases plan_bookingUpdate cfg bookingId .COMPLETED w₂.db w₂.out.uuid w₂.out.now with hp' | hp'
    · obtain rfl := hp.symm.trans hp'
      exact ⟨fun _ => wp_throw fun _ _ => trivial, fun h => absurd rfl h⟩
    obtain rfl := hp.symm.trans hp'
    obtain ⟨b', hb', hages⟩ := h₂.rely.db.booking bookingId booking hfound
    obtain ⟨hmem, rfl⟩ := Db.mem_of_booking? hb'
    refine ⟨fun h => (by cases h), fun _ => ⟨⟨?_, by simp [Write.keys]⟩, ?_⟩⟩
    · refine .complete (.inl ⟨adminId, call⟩) hmem (fun he => ?_) ?_
      · rw [hages.pending he] at hstatus
        cases hstatus
      · have hid : booking.id = b'.id := hages.id_eq.symm
        exact hid ▸ h₁.wellFormed.confirmed (hid ▸ hfound) hstatus h₂.rely.since
    refine wp_update (fun w₃ p h₃ hp => ?_) fun w' _ _ => wp_throw fun _ _ => trivial
    obtain rfl := hp.symm
    exact ⟨fun h => (by cases h), fun _ => ⟨⟨.audit call, by simp [Update.plan, Write.keys]⟩,
      fun _ _ _ => trivial⟩⟩

end AdminService

namespace BookingCompleteJob

/-- The rows a run of the job goes through: they were CONFIRMED in the world `w₀` in
which it read them. -/
structure Expired (w₀ : World) (rows : List (Booking × Slot)) (l : Local Key Write)
    (w : World) : Prop where
  idle : l = .idle
  db : w₀.db.Rely [] w.db
  since : w₀.Since w
  read : ∀ row ∈ rows, w₀.db.booking? row.1.id = some row.1 ∧ row.1.status = .CONFIRMED

theorem Expired.later {w₀ : World} {rows : List (Booking × Slot)} {l : Local Key Write}
    {w' : World} (h : Expired w₀ rows l w) (hdb : w.db.Rely [] w'.db) (hs : w.Since w') :
    Expired w₀ rows l w' :=
  { h with
    db := h.db.trans hdb
    since := h.since.trans h.db hs }

theorem complete_wp {now : Time} {w₀ : World} {rows : List (Booking × Slot)}
    {row : Booking × Slot} {l : Local Key Write} (call : c.call = .autoCompleteBookings now)
    (hw₀ : w₀.WellFormed cfg) (hrow : row ∈ rows) (h : Expired w₀ rows l w) :
    wp (engine cfg) (rules cfg J allow) c (complete now row)
      (Keeps (fun _ => Expired w₀ rows) fun _ _ _ => True) l w := by
  obtain rfl := h.idle
  unfold complete
  split_ifs
  swap
  · exact fun w' hr _ => h.later hr.db hr.since
  rw [← Prog.bind_ret (update _)]
  refine wp_update (fun w₁ p h₁ hp => ?_) fun _ _ _ _ _ _ => trivial
  have h₂ := h.later h₁.rely.db h₁.rely.since
  rcases plan_bookingUpdate cfg row.1.id .COMPLETED w₁.db w₁.out.uuid w₁.out.now with hp' | hp'
  · obtain rfl := hp.symm.trans hp'
    exact ⟨fun _ _ _ _ => trivial, fun h => absurd rfl h⟩
  obtain rfl := hp.symm.trans hp'
  obtain ⟨hread, hs⟩ := h.read row hrow
  obtain ⟨b, hb, hages⟩ := h₂.db.booking row.1.id row.1 hread
  obtain ⟨hmem, hid⟩ := Db.mem_of_booking? hb
  have hpending : b.status ≠ .PENDING := by
    intro he
    rw [hages.pending he] at hs
    cases hs
  have hconfirmed := hw₀.confirmed hread hs h₂.since
  have hc : Commits cfg c w₁ [.bookingSet [row.1.id] .COMPLETED] :=
    hid ▸ .complete (.inr ⟨now, call⟩) hmem hpending (hid ▸ hconfirmed)
  have h₃ : Expired w₀ rows .idle (Commits.result c [.bookingSet [row.1.id] .COMPLETED] w₁) :=
    h₂.later ((hc.fits h₁.valid).rely (by simp)) (Commits.since _ _ _)
  exact ⟨fun h => (by cases h), fun _ => ⟨⟨hc, by simp [Write.keys]⟩, fun w' hr hi =>
    h₃.later hr.db hr.since⟩⟩

theorem autoCompleteBookings_wp (hJ : Stable cfg J) {now : Time}
    (call : c.call = .autoCompleteBookings now) :
    wp (engine cfg) (rules cfg J allow) c (autoCompleteBookings now) (fun _ _ _ => True)
      .idle w := by
  have hP : (rules cfg J allow).Lawful (engine cfg) := rules_lawful hJ
  unfold autoCompleteBookings
  simp only [Prog.bind_eq, Prog.pure_eq]
  refine wp_query (fun w₁ h₁ => ?_) fun w' _ _ => wp_throw fun _ _ => trivial
  generalize hrows : (Query.bookingFindExpired now).eval w₁.db = rows
  have hstart : Expired w₁ rows .idle w₁ := by
    refine ⟨rfl, .refl _ _, fun _ => .inl, fun row hrow => ?_⟩
    rw [← hrows] at hrow
    simp only [Query.eval, List.mem_filter, List.mem_filterMap, Option.map_eq_some_iff,
      decide_eq_true_eq] at hrow
    obtain ⟨⟨b, hb, s, -, rfl⟩, hs, -⟩ := hrow
    exact ⟨h₁.valid.booking?_of_mem hb, hs⟩
  refine wp_bind hP (wp_mono (wp_forEach hP (J := fun _ => Expired w₁ rows)
    (Z := fun _ _ _ => True) (fun row hrow _ l w h => complete_wp call h₁.wellFormed hrow h)
    (fun _ _ _ _ h hr _ => h.later (hr.db.weaken (by simp)) hr.since) hstart) ?_)
  rintro (e | _) l w₂ - -
  · trivial
  · exact fun _ _ _ => trivial

end BookingCompleteJob

end TurfSync
