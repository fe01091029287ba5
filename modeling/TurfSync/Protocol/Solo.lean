import TurfSync.Txn.Solo
import TurfSync.Protocol.Payment

/-! What `handleWebhook` and `create` do when nothing interferes and no statement fails.
Here the outcome is exact. -/

namespace TurfSync

open Txn

variable {cfg : Config} {c : Session Call} {w : World} {ws : List Write} {ks : List Key}

/-! ### Statements -/

@[simp] theorem solo_query (q : Query) :
    (engine cfg).solo c (query q) .idle w = (.ok (q.eval w.db), .idle, w) :=
  Engine.solo_perform_read (S := Stmt) (engine cfg) c (.query q) w rfl

@[simp] theorem solo_external (x : External) :
    (engine cfg).solo c (external x) .idle w =
      ((x.eval w.out).1, .idle, { w with out := (x.eval w.out).2 }) :=
  Engine.solo_perform_read (S := Stmt) (engine cfg) c (.external x) w rfl

@[simp] theorem solo_query_tx (q : Query) :
    (engine cfg).solo c (query q) ⟨some ws, ks⟩ w =
      (.ok (q.eval (w.db.applyAll ws)), ⟨some ws, ks⟩, w) := by
  rw [query, Engine.solo_perform_tx, view_db]
  simp only [act_query, List.append_nil, List.nil_append]

@[simp] theorem solo_lock_tx (r : RowLock) :
    (engine cfg).solo c (lockRow r) ⟨some ws, ks⟩ w =
      (.ok (r.eval (w.db.applyAll ws)).1, ⟨some ws, (r.eval (w.db.applyAll ws)).2 ++ ks⟩, w) := by
  rw [lockRow, Engine.solo_perform_tx, view_db]
  simp only [act_lock, List.append_nil]

@[simp] theorem solo_external_tx (x : External) :
    (engine cfg).solo c (external x) ⟨some ws, ks⟩ w =
      ((x.eval w.out).1, ⟨some ws, ks⟩, { w with out := (x.eval w.out).2 }) := by
  rw [external, Engine.solo_perform_tx, view_db]
  simp only [act_external, List.append_nil, List.nil_append]

/-- A write statement outside any transaction, with the plan `p`. -/
theorem solo_update {u : Update} {p : Planned u.Reply}
    (hp : u.plan cfg w.db w.out.uuid w.out.now = p) :
    (engine cfg).solo c (update u) .idle w = (p.reply, .idle,
      if p.writes.isEmpty then w.took p.used else Commits.result c p.writes (w.took p.used)) := by
  subst hp
  exact Engine.solo_perform_auto (S := Stmt) (engine cfg) c (.update u) w

/-- A write statement with the plan `p`. -/
theorem solo_update_tx {u : Update} {p : Planned u.Reply}
    (hp : u.plan cfg (w.db.applyAll ws) w.out.uuid w.out.now = p) :
    (engine cfg).solo c (update u) ⟨some ws, ks⟩ w =
      (p.reply, ⟨some (ws ++ p.writes), p.locks ++ ks⟩, w.took p.used) := by
  subst hp
  rw [update, Engine.solo_perform_tx, view_db]
  simp only [act_update]

@[simp] theorem solo_quietly (p : Op Unit) (l : Local Key Write) :
    (engine cfg).solo c (quietly p) l w = (.ok (), ((engine cfg).solo c p l w).2) := by
  rw [quietly, Engine.solo_tryCatch]
  rcases (engine cfg).solo c p l w with ⟨e | a, l', w'⟩
  · rfl
  · rfl

/-! ### Webhooks -/

namespace PaymentService

variable {id : EventId} {p : Payment} {b : Booking}

theorem plan_registered (hid : id ∈ w.db.webhookEvents) :
    (Update.webhookEventCreate id).plan cfg (w.db.applyAll []) w.out.uuid w.out.now =
      .fail .P2002 [.event id] := if_pos hid

theorem plan_new (hid : id ∉ w.db.webhookEvents) :
    (Update.webhookEventCreate id).plan cfg (w.db.applyAll []) w.out.uuid w.out.now =
      ⟨.ok (), [.event id], [.eventInsert id], 0⟩ := if_neg hid

theorem plan_payment (hp : w.db.payment? p.id = some p) (change : PaymentChange) :
    (Update.paymentUpdate p.id change).plan cfg (w.db.applyAll [.eventInsert id]) w.out.uuid
      w.out.now = ⟨.ok (), [.payment p.id], [.paymentSet [p.id] change], 0⟩ := by
  have hp' : (w.db.applyAll [.eventInsert id]).payment? p.id = some p := hp
  simp only [Update.plan, hp']

/-- A success event that is not registered yet. -/
theorem solo_paymentSuccessTx (hnew : id ∉ w.db.webhookEvents)
    (hp : w.db.payment? p.id = some p) (hb : w.db.booking? p.bookingId = some b) (event : StripeEvent)
    (booking : Booking) : ∃ w' time,
      (engine cfg).solo c (Script.transaction (paymentSuccessTx id event p booking)) .idle w =
        (.ok (), .idle, w') ∧
      w'.db = w.db.applyAll (.eventInsert id :: .paymentSet [p.id] (.paid event.latestCharge time) ::
        if b.status = .PENDING then [.bookingSet [p.bookingId] .CONFIRMED] else []) := by
  have hlock : (RowLock.booking p.bookingId).eval (w.db.applyAll [.eventInsert id]) =
      (some b, [.booking p.bookingId]) := by
    have hb' : (w.db.applyAll [.eventInsert id]).booking? p.bookingId = some b := hb
    simp only [RowLock.eval, hb']
  rw [Engine.solo_transaction]
  unfold paymentSuccessTx
  simp only [Prog.bind_eq, Engine.solo_bind, solo_update_tx (plan_new hnew), Engine.andThen_ok,
    solo_lock_tx (.booking p.bookingId), List.nil_append, World.took_zero, hlock]
  by_cases hpend : b.status = .PENDING
  · have hconfirm : ∀ time, (Update.bookingUpdate p.bookingId .CONFIRMED).plan cfg (w.db.applyAll
        ([.eventInsert id] ++ [.paymentSet [p.id] (.paid event.latestCharge time)])) w.out.uuid
        w.out.now = ⟨.ok (), [.booking p.bookingId], [.bookingSet [p.bookingId] .CONFIRMED], 0⟩ := by
      intro time
      have hb' : (w.db.applyAll ([.eventInsert id] ++
        [.paymentSet [p.id] (.paid event.latestCharge time)])).booking? p.bookingId = some b := hb
      simp only [Update.plan, hb']
    simp only [hpend, ne_eq, not_true_eq_false, if_false, if_true, Engine.solo_bind,
      solo_external_tx .dateNow, External.eval, Engine.andThen_ok, solo_update_tx (plan_payment hp _),
      World.took_zero, solo_update_tx (hconfirm _), solo_quietly]
    exact ⟨_, w.out.now, rfl, by rw [solo_external_tx]; rfl⟩
  · simp only [hpend, ne_eq, not_false_eq_true, if_true, if_false, Engine.solo_bind,
      solo_external_tx .dateNow, External.eval, Engine.andThen_ok,
      solo_update_tx (plan_payment hp _), World.took_zero]
    exact ⟨_, w.out.now, rfl, rfl⟩

/-- A registered event changes nothing. -/
theorem solo_registered (hid : id ∈ w.db.webhookEvents) (f : Unit → Op Unit) :
    (engine cfg).solo c (Script.transaction ((update (.webhookEventCreate id)).bind f)) .idle w =
      (.error .P2002, .idle, w) := by
  rw [Engine.solo_transaction, Engine.solo_bind, solo_update_tx (plan_registered hid)]
  rfl

theorem solo_paymentFailedTx (hnew : id ∉ w.db.webhookEvents)
    (hp : w.db.payment? p.id = some p) (reason : String) : ∃ w',
      (engine cfg).solo c (Script.transaction (paymentFailedTx id p.id reason)) .idle w =
        (.ok (), .idle, w') ∧
      w'.db = w.db.applyAll [.eventInsert id, .paymentSet [p.id] (.failed reason)] := by
  rw [Engine.solo_transaction]
  unfold paymentFailedTx
  simp only [Prog.bind_eq, Engine.solo_bind, solo_update_tx (plan_new hnew), Engine.andThen_ok,
    List.nil_append, World.took_zero, solo_update_tx (plan_payment hp _)]
  exact ⟨_, rfl, rfl⟩

theorem solo_paymentProcessingTx (hnew : id ∉ w.db.webhookEvents) (hp : p ∈ w.db.payments)
    {event : StripeEvent} (hi : p.stripePaymentIntentId = event.intent) : ∃ w' ids, p.id ∈ ids ∧
      (engine cfg).solo c (Script.transaction (paymentProcessingTx id event)) .idle w =
        (.ok (), .idle, w') ∧
      w'.db = w.db.applyAll [.eventInsert id, .paymentSet ids .processing] := by
  rw [Engine.solo_transaction]
  unfold paymentProcessingTx
  simp only [Prog.bind_eq, Engine.solo_bind, solo_update_tx (plan_new hnew), Engine.andThen_ok,
    List.nil_append, World.took_zero, solo_update_tx rfl]
  refine ⟨_, _, ?_, rfl, rfl⟩
  exact List.mem_map_of_mem (List.mem_filter.mpr ⟨hp, by simpa using hi⟩)

/-- What a delivery of event `id` that runs alone does to the database, `p` being the
payment of its intent. -/
inductive Delivered (cfg : Config) (id : EventId) (p : Payment) (db : Db) : Db → Prop
  | ignored (why : id ∈ db.webhookEvents ∨ (cfg.event id).type = .succeeded ∧ p.status = .PAID ∨
      (cfg.event id).type = .other) : Delivered cfg id p db db
  | succeeded {b charge time} (type : (cfg.event id).type = .succeeded) (new : id ∉ db.webhookEvents)
      (unpaid : p.status ≠ .PAID) (booking : db.booking? p.bookingId = some b) :
      Delivered cfg id p db (db.applyAll (.eventInsert id :: .paymentSet [p.id] (.paid charge time) ::
        if b.status = .PENDING then [.bookingSet [p.bookingId] .CONFIRMED] else []))
  | failed {reason} (type : (cfg.event id).type = .payment_failed) (new : id ∉ db.webhookEvents) :
      Delivered cfg id p db (db.applyAll [.eventInsert id, .paymentSet [p.id] (.failed reason)])
  | processing {ids} (type : (cfg.event id).type = .processing) (new : id ∉ db.webhookEvents)
      (mem : p.id ∈ ids) :
      Delivered cfg id p db (db.applyAll [.eventInsert id, .paymentSet ids .processing])

theorem solo_handleEvent (hv : w.db.Valid cfg) (hp : p ∈ w.db.payments)
    (hi : p.stripePaymentIntentId = (cfg.event id).intent) : ∃ r w',
      (engine cfg).solo c (handleEvent id (cfg.event id)) .idle w = (r, .idle, w') ∧
      (r = .ok () ∨ r = .error .P2002) ∧ Delivered cfg id p w.db w'.db := by
  obtain ⟨booking, hread⟩ := paymentByIntent_eval hv hp
  obtain ⟨b, hb, hbid⟩ := hv.paymentBooking p hp
  have hpay := hv.payment?_of_mem hp
  have hbook := hv.booking?_iff.mpr ⟨hb, hbid⟩
  rw [hi] at hread
  unfold handleEvent
  split
  · rename_i htype
    unfold handlePaymentSuccess
    simp only [Prog.bind_eq, Prog.pure_eq, Engine.solo_bind, solo_query (.paymentByIntent _), hread,
      Engine.andThen_ok]
    by_cases hpaid : p.status = .PAID
    · rw [if_pos hpaid]
      exact ⟨_, _, rfl, .inl rfl, .ignored (.inr (.inl ⟨htype, hpaid⟩))⟩
    rw [if_neg hpaid]
    by_cases hid : id ∈ w.db.webhookEvents
    · exact ⟨_, _, solo_registered hid _, .inr rfl, .ignored (.inl hid)⟩
    · obtain ⟨w', time, hs, hdb⟩ := solo_paymentSuccessTx hid hpay hbook (cfg.event id) booking
      exact ⟨_, _, hs, .inl rfl, hdb ▸ .succeeded htype hid hpaid hbook⟩
  · rename_i htype
    unfold handlePaymentFailed
    simp only [Prog.bind_eq, Prog.pure_eq, Engine.solo_bind, solo_query (.paymentByIntent _), hread,
      Engine.andThen_ok]
    by_cases hid : id ∈ w.db.webhookEvents
    · have hs : ∀ reason, (engine cfg).solo c (Script.transaction
          (paymentFailedTx id p.id reason)) .idle w = (.error .P2002, .idle, w) :=
        fun _ => solo_registered hid _
      rw [hs]
      exact ⟨_, _, rfl, .inr rfl, .ignored (.inl hid)⟩
    · obtain ⟨w', hs, hdb⟩ := solo_paymentFailedTx hid hpay _
      rw [hs, Engine.andThen_ok, solo_quietly, solo_external]
      refine ⟨_, _, rfl, .inl rfl, ?_⟩
      rw [show ({ w' with out := _ } : World).db = _ from hdb]
      exact .failed htype hid
  · rename_i htype
    by_cases hid : id ∈ w.db.webhookEvents
    · exact ⟨_, _, solo_registered hid _, .inr rfl, .ignored (.inl hid)⟩
    · obtain ⟨w', ids, hm, hs, hdb⟩ := solo_paymentProcessingTx hid hp hi
      exact ⟨_, _, hs, .inl rfl, hdb ▸ .processing htype hid hm⟩
  · rename_i htype
    exact ⟨_, _, rfl, .inl rfl, .ignored (.inr (.inr htype))⟩

theorem solo_handleWebhook (hv : w.db.Valid cfg) (hp : p ∈ w.db.payments)
    (hi : p.stripePaymentIntentId = (cfg.event id).intent) : ∃ w',
      (engine cfg).solo c (handleWebhook cfg (some id)) .idle w = (.ok .success, .idle, w') ∧
      Delivered cfg id p w.db w'.db := by
  obtain ⟨r, w', hs, hr, hd⟩ := solo_handleEvent (c := c) hv hp hi
  refine ⟨w', ?_, hd⟩
  unfold handleWebhook
  simp only [Prog.bind_eq, Prog.pure_eq, Engine.solo_bind, Engine.solo_tryCatch, hs]
  rcases hr with rfl | rfl
  · rfl
  · rfl

end PaymentService

/-! ### Bookings -/

namespace BookingService

variable {dto : CreateBookingDto} {userId : UserId} {slot : Slot} {turf : Turf}

/-- A slot that `create` does not turn down: it belongs to an active turf, is free, and
has no booking that is not cancelled. -/
structure Offered (db : Db) (slot : Slot) (turf : Turf) : Prop where
  slot? : db.slot? slot.id = some slot
  turf? : db.turf? slot.turfId = some turf
  active : turf.isActive = true
  free : slot.isBooked = false
  cancelled : ∀ b ∈ db.bookings, b.slotId = slot.id → b.status = .CANCELLED

/-- The statements of the transaction of `create` up to the insertion. -/
theorem solo_createTx (h : Offered w.db slot turf) (hslot : dto.slotId = slot.id)
    (hturf : dto.turfId = slot.turfId) :
    (engine cfg).solo c (createTx dto userId none) ⟨some [], []⟩ w =
      (engine cfg).andThen c ((engine cfg).solo c (update (.bookingCreate {
          userId := userId
          turfId := dto.turfId
          slotId := dto.slotId
          totalAmount := some turf.pricePerHour
          notes := dto.notes }))
        ⟨some [.slotSet [slot.id] true], [.slot slot.id, .slot slot.id]⟩ w)
        fun booking => .ret (booking, { slot with isBooked := true }) := by
  have hrow : (RowLock.slotWithTurf dto.slotId dto.turfId).eval (w.db.applyAll []) =
      (some (slot, turf), [.slot slot.id]) := by
    have hs : w.db.slotWithTurf? dto.slotId dto.turfId = some (slot, turf) := by
      simp [Db.slotWithTurf?, hslot, hturf, h.slot?, h.turf?]
    simp only [RowLock.eval, Db.applyAll_nil, hs]
    rw [hslot]
  have hnone : (Query.bookingFindFirst userId dto.slotId).eval (w.db.applyAll []) = none := by
    simp only [Query.eval, Db.applyAll_nil, List.find?_eq_none]
    intro b hb
    have := h.cancelled b hb
    simp only [decide_eq_true_eq]
    rintro ⟨-, hs, hst⟩
    exact hst (this (hs.trans hslot))
  have hflag : (Update.slotUpdate dto.slotId true).plan cfg (w.db.applyAll []) w.out.uuid w.out.now =
      ⟨.ok (), [.slot slot.id], [.slotSet [slot.id] true], 0⟩ := by
    simp only [Update.plan, Db.applyAll_nil, hslot, h.slot?]
  unfold createTx
  simp only [Prog.bind_eq, Prog.pure_eq, Engine.solo_bind, solo_lock_tx (.slotWithTurf _ _), hrow,
    Engine.andThen_ok, h.active, h.free, Bool.true_eq_false, Bool.false_eq_true, if_false,
    solo_query_tx (.bookingFindFirst _ _), hnone, solo_update_tx hflag, List.nil_append,
    List.append_nil, World.took_zero]
  rfl

/-- The columns of the booking without a coupon. -/
def plainBooking (dto : CreateBookingDto) (userId : UserId) (turf : Turf) : NewBooking where
  userId := userId
  turfId := dto.turfId
  slotId := dto.slotId
  totalAmount := some turf.pricePerHour
  notes := dto.notes

/-- The transaction, on a slot that is offered. -/
theorem solo_createTx_cases (h : Offered w.db slot turf) (hslot : dto.slotId = slot.id)
    (hturf : dto.turfId = slot.turfId) :
    if cfg.slotIdUnique ∧ ∃ b ∈ w.db.bookings, b.slotId = slot.id then
      (engine cfg).solo c (Script.transaction (createTx dto userId none)) .idle w =
        (.error .P2002, .idle, w)
    else ∃ w' id time, (engine cfg).solo c (Script.transaction (createTx dto userId none)) .idle w =
        (.ok ((plainBooking dto userId turf).row turf.pricePerHour id time,
          { slot with isBooked := true }), .idle, w') ∧
      w'.db = w.db.applyAll [.slotSet [slot.id] true,
        .bookingInsert ((plainBooking dto userId turf).row turf.pricePerHour id time)] := by
  have hs : ((w.db.applyAll [.slotSet [slot.id] true]).slot? dto.slotId).isNone = false := by
    rw [Db.slot?_set (show (w.db.applyAll [.slotSet [slot.id] true]).slots =
      Db.setSlots [slot.id] true w.db.slots from rfl), if_pos (by simp [hslot]), hslot, h.slot?]
    rfl
  have ht : ((w.db.applyAll [.slotSet [slot.id] true]).turf? dto.turfId).isNone = false := by
    have ht' : (w.db.applyAll [.slotSet [slot.id] true]).turf? dto.turfId = some turf := by
      rw [hturf]
      exact h.turf?
    rw [ht']
    rfl
  have hplan : (Update.bookingCreate (plainBooking dto userId turf)).plan cfg
      (w.db.applyAll [.slotSet [slot.id] true]) w.out.uuid w.out.now =
      if cfg.slotIdUnique ∧ ∃ b ∈ w.db.bookings, b.slotId = dto.slotId then
        .fail .P2002 [.bookingSlot dto.slotId]
      else
        { reply := .ok ((plainBooking dto userId turf).row turf.pricePerHour w.out.uuid w.out.now)
          locks := [.booking w.out.uuid, .bookingSlot dto.slotId]
          writes := [.bookingInsert
            ((plainBooking dto userId turf).row turf.pricePerHour w.out.uuid w.out.now)]
          used := 1 } := by
    simp only [Update.plan, plainBooking, hs, ht, Bool.false_eq_true, or_self, if_false]
    rfl
  rw [Engine.solo_transaction, solo_createTx h hslot hturf, ← plainBooking, solo_update_tx hplan,
    hslot]
  split_ifs with htaken
  · rfl
  · exact ⟨_, _, _, rfl, rfl⟩

/-- What follows the transaction of `create` does not touch the database. -/
theorem solo_createLocked {r : Except Err (Booking × Slot)} {w₁ : World}
    (h : (engine cfg).solo c (Script.transaction (createTx dto userId none)) .idle w =
      (r, .idle, w₁)) : ∃ w₂,
    (engine cfg).solo c (createLocked dto userId none) .idle w =
      (r.map fun row => .booking row.1, .idle, w₂) ∧ w₂.db = w₁.db := by
  unfold createLocked
  simp only [Prog.bind_eq, Prog.pure_eq, Engine.solo_bind, h]
  cases r with
  | error e => exact ⟨w₁, rfl, rfl⟩
  | ok row =>
    simp only [Engine.andThen_ok, Engine.solo_bind, delByPattern, solo_quietly,
      solo_external (.delByPattern _), solo_external (.queueAdd _)]
    exact ⟨_, rfl, rfl⟩

/-- The call, when neither the date nor the Redis lock keeps it from the transaction. -/
theorem solo_create (hcode : dto.couponCode = none) {now : Time}
    (hpast : ∀ d ∈ dto.date, startOfUTCDay now ≤ startOfUTCDay d)
    (hfuture : ∀ d ∈ dto.date, startOfUTCDay d ≤ startOfUTCDay now + 30 * dayMs)
    (hlock : w.out.slotLocks dto.slotId = none) : ∃ o, ∀ r w₁,
    (engine cfg).solo c (createLocked dto userId none) .idle { w with out := o } =
      (r, .idle, w₁) →
    ∃ w₂, (engine cfg).solo c (create cfg dto userId now) .idle w = (r, .idle, w₂) ∧
      w₂.db = w₁.db := by
  have hdata : couponData cfg dto userId = .ret none := by
    simp only [couponData, hcode]
    rfl
  obtain ⟨o, hacquire⟩ : ∃ o, (External.acquireLock dto.slotId).eval w.out =
      (.ok (some w.out.uuid), o) := by
    simp only [External.eval, hlock, Option.isNone_none, if_true]
    exact ⟨_, rfl⟩
  refine ⟨o, fun r w₁ h => ?_⟩
  have hnear : ¬ ∃ d ∈ dto.date.map startOfUTCDay, d < startOfUTCDay now := by
    simpa using hpast
  have hfar : ¬ ∃ d ∈ dto.date.map startOfUTCDay, startOfUTCDay now + 30 * dayMs < d := by
    simpa using hfuture
  unfold create
  simp only [Prog.bind_eq, if_neg hnear, if_neg hfar, hdata,
    Engine.solo_bind, Engine.solo_ret, Engine.andThen_ok, solo_external (.acquireLock _), hacquire,
    Engine.solo_tryFinally, h, solo_external (.releaseLock _ _)]
  obtain ⟨released, hrelease⟩ := External.releaseLock_ok w₁.out dto.slotId w.out.uuid
  rw [hrelease]
  refine ⟨{ w₁ with out := ((External.releaseLock dto.slotId w.out.uuid).eval w₁.out).2 }, ?_, rfl⟩
  cases r <;> rfl

end BookingService

end TurfSync
