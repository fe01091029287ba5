import TurfSync.System
import TurfSync.Txn.Rely
import TurfSync.Protocol.Tables

/-! What the services commit. `Commits` lists every kind of transaction and single
write that reaches the database, with what is known of the database it finds. The
rules of the protocol are that every commit is one of these and is made under the
locks of its rows; from this alone follow the constraints of the schema and all that
the sessions rely on. An arbitrary further invariant of the commits may be added. -/

namespace TurfSync

open Txn

namespace World

/-- Session `n` has committed the booking `id`. -/
def Booked (w : World) (n : ℕ) (id : BookingId) : Prop :=
  ∃ e ∈ w.history, e.session.id = n ∧ ∃ b, .bookingInsert b ∈ e.writes ∧ b.id = id

/-- The constraints of the schema, ids not yet given out, and what became of the
bookings that the history records as inserted or cancelled. -/
structure WellFormed (cfg : Config) (w : World) : Prop where
  valid : w.db.Valid cfg
  bookingIds : ∀ b ∈ w.db.bookings, b.id < w.out.uuid
  paymentIds : ∀ p ∈ w.db.payments, p.id < w.out.uuid
  recorded : ∀ e ∈ w.history, ∀ b, .bookingInsert b ∈ e.writes →
    ∃ b' ∈ w.db.bookings, b.Ages b'
  once : ∀ e ∈ w.history, ∀ e' ∈ w.history, ∀ b b', .bookingInsert b ∈ e.writes →
    .bookingInsert b' ∈ e'.writes → b.id = b'.id → e.session = e'.session
  cancelled : ∀ e ∈ w.history, ∀ ids, .bookingSet ids .CANCELLED ∈ e.writes → ∀ id ∈ ids,
    ∃ b, w.db.booking? id = some b ∧ ¬ b.Active

/-- Every commit since `w` found the bookings of `w`, or what became of them. -/
def Since (w w' : World) : Prop :=
  ∀ e ∈ w'.history, e ∈ w.history ∨ ∀ id b, w.db.booking? id = some b →
    ∃ b', e.before.booking? id = some b' ∧ b.Ages b'

theorem Since.trans {w w' w'' : World} (h : w.Since w') (hdb : w.db.Rely [] w'.db)
    (h' : w'.Since w'') : w.Since w'' := by
  intro e he
  rcases h' e he with he | hsince
  · exact h e he
  · refine .inr fun id b hb => ?_
    obtain ⟨b', hb', ha⟩ := hdb.booking id b hb
    obtain ⟨b'', hb'', ha'⟩ := hsince id b' hb'
    exact ⟨b'', hb'', ha.trans ha'⟩

/-- What session `n`, holding the locks `ks`, relies on. -/
structure Rely (n : ℕ) (ks : List Key) (w w' : World) : Prop where
  db : w.db.Rely ks w'.db
  uuid : w.out.uuid ≤ w'.out.uuid
  history : ∀ e ∈ w.history, e ∈ w'.history
  own : ∀ e ∈ w'.history, e.session.id = n → e ∈ w.history
  usages : ∀ u ∈ w'.db.couponUsages, w'.Booked n u.bookingId → u ∈ w.db.couponUsages
  since : w.Since w'

theorem Rely.refl (n : ℕ) (ks : List Key) (w : World) : w.Rely n ks w :=
  ⟨.refl ks w.db, Nat.le_refl _, fun _ h => h, fun _ h _ => h, fun _ h _ => h, fun _ h => .inl h⟩

theorem Booked.of_own {n : ℕ} {ks : List Key} {w w' : World} {id : BookingId}
    (h : w.Rely n ks w') (hb : w'.Booked n id) : w.Booked n id := by
  obtain ⟨e, he, hn, hi⟩ := hb
  exact ⟨e, h.own e he hn, hn, hi⟩

theorem Rely.trans {n : ℕ} {ks : List Key} {w w' w'' : World} (h : w.Rely n ks w')
    (h' : w'.Rely n ks w'') : w.Rely n ks w'' where
  db := h.db.trans h'.db
  uuid := Nat.le_trans h.uuid h'.uuid
  history e he := h'.history e (h.history e he)
  own e he hn := h.own e (h'.own e he hn) hn
  usages u hu hb := h.usages u (h'.usages u hu hb) (hb.of_own h')
  since := h.since.trans (h.db.weaken (by simp)) h'.since

/-- No commit has cancelled the booking while it was PENDING. -/
def Confirmed (w : World) (id : BookingId) : Prop :=
  ∀ e ∈ w.history, ∀ ids, .bookingSet ids .CANCELLED ∈ e.writes → id ∈ ids →
    ∀ b, e.before.booking? id = some b → b.status ≠ .PENDING

/-- A booking that a session has seen CONFIRMED. -/
theorem WellFormed.confirmed {cfg : Config} {w w' : World} {b : Booking}
    (hw : w.WellFormed cfg) (hb : w.db.booking? b.id = some b) (hs : b.status = .CONFIRMED)
    (hsince : w.Since w') : w'.Confirmed b.id := by
  intro e he ids hws hid b₀ hb₀ hp
  rcases hsince e he with he | hsince
  · obtain ⟨b', hb', hn⟩ := hw.cancelled e he ids hws b.id hid
    rw [hb] at hb'
    obtain rfl := Option.some.inj hb'
    exact hn (.inr hs)
  · obtain ⟨b', hb', ha⟩ := hsince b.id b hb
    rw [hb₀] at hb'
    obtain rfl := Option.some.inj hb'
    rw [ha.pending hp] at hs
    cases hs

end World

/-- The write that frees some slots; none when there are none. -/
def release (ids : List SlotId) : List Write := if ids = [] then [] else [.slotSet ids false]

@[simp] theorem mem_release {ids : List SlotId} {x : Write} :
    x ∈ release ids ↔ ids ≠ [] ∧ x = .slotSet ids false := by
  unfold release
  by_cases h : ids = []
  · simp [h]
  · simp [h]

section

variable (db : Db) (ids : List SlotId)

@[simp] theorem slots_release :
    (db.applyAll (release ids)).slots = Db.setSlots ids false db.slots := by
  unfold release
  split_ifs with h
  · subst h
    exact Rows.update_nil.symm
  · rfl

@[simp] theorem bookings_release : (db.applyAll (release ids)).bookings = db.bookings := by
  unfold release
  split_ifs <;> rfl

theorem slots_vacate (status : BookingStatus) (bs : List BookingId) :
    (db.applyAll (.bookingSet bs status :: release ids)).slots =
      Db.setSlots ids false db.slots := slots_release _ ids

theorem bookings_vacate (status : BookingStatus) (bs : List BookingId) :
    (db.applyAll (.bookingSet bs status :: release ids)).bookings =
      Db.setBookings bs status db.bookings := bookings_release _ ids

@[simp] theorem payments_release : (db.applyAll (release ids)).payments = db.payments := by
  unfold release
  split_ifs <;> rfl

end

/-- Taking the bookings `ids` off their slots frees the slots `freed`: those on which
nothing else is active, and a slot that stays has another booking. -/
structure Db.Vacates (db : Db) (ids : List BookingId) (freed : List SlotId) : Prop where
  slots : ∀ s ∈ freed, ∃ b ∈ db.bookings, b.id ∈ ids ∧ b.slotId = s
  alone : ∀ s ∈ freed, ∀ b ∈ db.bookings, b.slotId = s → b.Active → b.id ∈ ids
  shared : ∀ b ∈ db.bookings, b.id ∈ ids → b.slotId ∉ freed →
    ∃ b' ∈ db.bookings, b'.slotId = b.slotId ∧ b'.id ∉ ids

/-- The commits of session `c` on the world `w`. -/
inductive Commits (cfg : Config) (c : Session Call) (w : World) : List Write → Prop
  /-- a clean-up that found nothing stale under its locks -/
  | nothing {now} (call : c.call = .cleanupStalePendingBookings now) : Commits cfg c w []
  | book {dto userId now b slot} (call : c.call = .create dto userId now)
      (slotId : b.slotId = dto.slotId) (user : b.userId = userId) (status : b.status = .PENDING)
      (slot? : w.db.slot? b.slotId = some slot) (free : slot.isBooked = false)
      (id : b.id < w.out.uuid) (fits : (Write.bookingInsert b).Fits cfg w.db)
      (turfId : slot.turfId = b.turfId) (turf : (w.db.turf? b.turfId).isSome) :
      Commits cfg c w [.slotSet [b.slotId] true, .bookingInsert b]
  | applyCoupon {dto userId now u coupon} (call : c.call = .create dto userId now)
      (user : u.userId = userId) (booked : w.Booked c.id u.bookingId)
      (coupon? : w.db.coupon? u.couponId = some coupon) (limit : ¬ coupon.LimitReached)
      (userLimit : (w.db.usagesOf u.couponId u.userId).length < coupon.userUsageLimit)
      (fits : (Write.usageInsert u).Fits cfg w.db) :
      Commits cfg c w [.usageInsert u, .couponIncrement u.couponId]
  | cancel {userId b freed} (call : c.call = .cancel b.id userId) (mem : b ∈ w.db.bookings)
      (status : b.status ≠ .CANCELLED) (vacates : w.db.Vacates [b.id] freed) :
      Commits cfg c w (.bookingSet [b.id] .CANCELLED :: release freed)
  | cleanup {now ids freed} (call : c.call = .cleanupStalePendingBookings now)
      (stale : ∀ id ∈ ids, ∃ b ∈ w.db.bookings, b.id = id ∧ b.status = .PENDING ∧
        b.createdAt < now - 15 * 60 * 1000)
      (vacates : w.db.Vacates ids freed) :
      Commits cfg c w (.bookingSet ids .CANCELLED :: release freed)
  | initiate {bookingId userId p} (call : c.call = .createPaymentIntent bookingId userId)
      (booking : p.bookingId = bookingId) (status : p.status = .INITIATED)
      (id : p.id < w.out.uuid) (fits : (Write.paymentInsert p).Fits cfg w.db) :
      Commits cfg c w [.paymentInsert p]
  | reinitiate {bookingId userId p} (call : c.call = .createPaymentIntent bookingId userId)
      (booking : p.bookingId = bookingId) (mem : p ∈ w.db.payments) :
      Commits cfg c w [.paymentSet [p.id] (.initiated ⟨bookingId⟩ ⟨⟨bookingId⟩⟩)]
  | succeeded {id p b charge time} (call : c.call = .handleWebhook (some id))
      (type : (cfg.event id).type = .succeeded) (new : id ∉ w.db.webhookEvents)
      (payment : p ∈ w.db.payments) (intent : p.stripePaymentIntentId = (cfg.event id).intent)
      (booking : b ∈ w.db.bookings) (bookingId : b.id = p.bookingId) :
      Commits cfg c w (.eventInsert id :: .paymentSet [p.id] (.paid charge time) ::
        if b.status = .PENDING then [.bookingSet [b.id] .CONFIRMED] else [])
  | failed {id p reason} (call : c.call = .handleWebhook (some id))
      (type : (cfg.event id).type = .payment_failed) (new : id ∉ w.db.webhookEvents)
      (payment : p ∈ w.db.payments) (intent : p.stripePaymentIntentId = (cfg.event id).intent) :
      Commits cfg c w [.eventInsert id, .paymentSet [p.id] (.failed reason)]
  | processing {id ids} (call : c.call = .handleWebhook (some id))
      (type : (cfg.event id).type = .processing) (new : id ∉ w.db.webhookEvents)
      (intents : ∀ p ∈ w.db.payments, p.id ∈ ids →
        p.stripePaymentIntentId = (cfg.event id).intent) :
      Commits cfg c w [.eventInsert id, .paymentSet ids .processing]
  | refund {userId p b freed} (call : c.call = .refund b.id userId) (payment : p ∈ w.db.payments)
      (bookingId : p.bookingId = b.id) (booking : b ∈ w.db.bookings)
      (slots : freed = [] ∨ freed = [b.slotId])
      (shared : freed = [] → ∃ b' ∈ w.db.bookings, b'.slotId = b.slotId ∧ b'.id ≠ b.id) :
      Commits cfg c w (.paymentSet [p.id] .refunded :: .bookingSet [b.id] .CANCELLED ::
        release freed)
  | complete {b} (call : (∃ adminId, c.call = .completeBooking b.id adminId) ∨
        ∃ now, c.call = .autoCompleteBookings now)
      (mem : b ∈ w.db.bookings) (status : b.status ≠ .PENDING)
      (confirmed : w.Confirmed b.id) :
      Commits cfg c w [.bookingSet [b.id] .COMPLETED]
  | audit {bookingId adminId a} (call : c.call = .completeBooking bookingId adminId) :
      Commits cfg c w [.auditInsert a]

namespace Commits

variable {cfg : Config} {c : Session Call} {w : World} {ws : List Write}

/-! ### The commits of a call -/

theorem of_cleanup (hc : Commits cfg c w ws) {now : Time}
    (call : c.call = .cleanupStalePendingBookings now) : ws = [] ∨ ∃ ids freed,
      ws = .bookingSet ids .CANCELLED :: release freed ∧ w.db.Vacates ids freed ∧
      ∀ id ∈ ids, ∃ b ∈ w.db.bookings, b.id = id ∧ b.status = .PENDING ∧
        b.createdAt < now - 15 * 60 * 1000 := by
  cases hc with
  | nothing => exact .inl rfl
  | @cleanup now' ids freed call' hstale hvac =>
    obtain rfl := Call.cleanupStalePendingBookings.inj (call.symm.trans call')
    exact .inr ⟨ids, freed, rfl, hvac, hstale⟩
  | complete call' =>
    rcases call' with ⟨_, call'⟩ | ⟨_, call'⟩
    · exact absurd (call.symm.trans call') (by simp)
    · exact absurd (call.symm.trans call') (by simp)
  | book call' | applyCoupon call' | cancel call' | initiate call' | reinitiate call'
  | succeeded call' | failed call' | processing call' | refund call' | audit call' =>
    exact absurd (call.symm.trans call') (by simp)

/-- A delivery commits at most once, by the handler of its type. -/
theorem of_webhook (hc : Commits cfg c w ws) {id : EventId}
    (call : c.call = .handleWebhook (some id)) : id ∉ w.db.webhookEvents ∧
      (((cfg.event id).type = .succeeded ∧ ∃ p ∈ w.db.payments, ∃ b ∈ w.db.bookings,
          p.stripePaymentIntentId = (cfg.event id).intent ∧ b.id = p.bookingId ∧
          ∃ charge time, ws = .eventInsert id :: .paymentSet [p.id] (.paid charge time) ::
            if b.status = .PENDING then [.bookingSet [b.id] .CONFIRMED] else []) ∨
        ((cfg.event id).type = .payment_failed ∧ ∃ p ∈ w.db.payments, ∃ reason,
          p.stripePaymentIntentId = (cfg.event id).intent ∧
          ws = [.eventInsert id, .paymentSet [p.id] (.failed reason)]) ∨
        ((cfg.event id).type = .processing ∧ ∃ ids, ws = [.eventInsert id,
          .paymentSet ids .processing])) := by
  cases hc with
  | @succeeded id' p b charge time call' htype hnew hp hintent hb hid =>
    obtain rfl := Option.some.inj (Call.handleWebhook.inj (call.symm.trans call'))
    exact ⟨hnew, .inl ⟨htype, p, hp, b, hb, hintent, hid, charge, time, rfl⟩⟩
  | @failed id' p reason call' htype hnew hp hintent =>
    obtain rfl := Option.some.inj (Call.handleWebhook.inj (call.symm.trans call'))
    exact ⟨hnew, .inr (.inl ⟨htype, p, hp, reason, hintent, rfl⟩)⟩
  | @processing id' ids call' htype hnew _ =>
    obtain rfl := Option.some.inj (Call.handleWebhook.inj (call.symm.trans call'))
    exact ⟨hnew, .inr (.inr ⟨htype, ids, rfl⟩)⟩
  | complete call' =>
    rcases call' with ⟨_, call'⟩ | ⟨_, call'⟩
    · exact absurd (call.symm.trans call') (by simp)
    · exact absurd (call.symm.trans call') (by simp)
  | nothing call' | cleanup call' | book call' | applyCoupon call' | cancel call'
  | initiate call' | reinitiate call' | refund call' | audit call' =>
    exact absurd (call.symm.trans call') (by simp)

/-- What session `c` leaves behind. -/
def result (c : Session Call) (ws : List Write) (w : World) : World :=
  { w with db := w.db.applyAll ws, history := w.history ++ [⟨c, ws, w.db⟩] }

theorem fits_release (db : Db) (ids : List SlotId) : db.FitsAll cfg (release ids) := by
  unfold release
  split_ifs
  · trivial
  · exact ⟨trivial, trivial⟩

theorem fits (hv : w.db.Valid cfg) (hc : Commits cfg c w ws) : w.db.FitsAll cfg ws := by
  cases hc with
  | nothing => trivial
  | @book _ _ _ b _ _ _ _ _ _ _ _ hf _ _ =>
    obtain ⟨hid, ⟨s, hs, he⟩, hu⟩ := hf
    have hk : (w.db.apply (.slotSet [b.slotId] true)).slots.map (·.id) = w.db.slots.map (·.id) :=
      Rows.keys_update fun _ => rfl
    have hm : b.slotId ∈ (w.db.apply (.slotSet [b.slotId] true)).slots.map (·.id) :=
      hk ▸ he ▸ List.mem_map_of_mem hs
    obtain ⟨s', hs', he'⟩ := List.mem_map.mp hm
    exact ⟨trivial, ⟨hid, ⟨s', hs', he'⟩, hu⟩, trivial⟩
  | applyCoupon _ _ _ _ _ _ hf => exact ⟨hf, trivial, trivial⟩
  | cancel => exact ⟨⟨by simp, by simp⟩, fits_release _ _⟩
  | cleanup => exact ⟨⟨by simp, by simp⟩, fits_release _ _⟩
  | initiate _ _ _ _ hf => exact ⟨hf, trivial⟩
  | @reinitiate bookingId _ p _ hb hp =>
    refine ⟨fun p' hp' hid => ?_, trivial⟩
    obtain rfl := Rows.eq_of_key hv.payments hp' hp (List.mem_singleton.mp hid)
    rw [hv.intents p' hp', hb]
    rfl
  | @succeeded _ p b _ _ _ _ _ _ _ hb hid =>
    refine ⟨trivial, fun _ _ _ => rfl, ?_⟩
    split_ifs with hp
    · refine ⟨⟨by simp, fun _ b' hb' he => ?_⟩, trivial⟩
      obtain rfl := Rows.eq_of_key hv.bookings hb' hb (List.mem_singleton.mp he)
      exact hp
    · trivial
  | failed => exact ⟨trivial, fun _ _ _ => rfl, trivial⟩
  | processing => exact ⟨trivial, fun _ _ _ => rfl, trivial⟩
  | refund => exact ⟨fun _ _ _ => rfl, ⟨by simp, by simp⟩, fits_release _ _⟩
  | complete => exact ⟨⟨by simp, by simp⟩, trivial⟩
  | audit => exact ⟨trivial, trivial⟩

theorem valid (hv : w.db.Valid cfg) (hc : Commits cfg c w ws) : (w.db.applyAll ws).Valid cfg :=
  (hc.fits hv).valid hv

/-- A booking stays, and only ages. -/
theorem ages (hv : w.db.Valid cfg) (hc : Commits cfg c w ws) {id : BookingId} {b : Booking}
    (hb : w.db.booking? id = some b) :
    ∃ b', (w.db.applyAll ws).booking? id = some b' ∧ b.Ages b' := by
  have hrely : w.db.Rely [] (w.db.applyAll ws) := (hc.fits hv).rely (by simp)
  exact hrely.booking id b hb

/-! ### What a commit inserts -/

theorem insert_booking (hc : Commits cfg c w ws) {b : Booking} (hb : .bookingInsert b ∈ ws) :
    ws = [.slotSet [b.slotId] true, .bookingInsert b] ∧ b.id < w.out.uuid ∧
      ∀ b' ∈ w.db.bookings, b'.id ≠ b.id := by
  cases hc with
  | book _ _ _ _ _ _ hid hf =>
    simp only [List.mem_cons, reduceCtorEq, Write.bookingInsert.injEq, List.not_mem_nil, or_false,
      false_or] at hb
    subst hb
    exact ⟨rfl, hid, hf.1⟩
  | _ => simp at hb

/-- A booking is the caller's. -/
theorem insert_booking_call (hc : Commits cfg c w ws) {b : Booking} (hb : .bookingInsert b ∈ ws) :
    ∃ dto now, c.call = .create dto b.userId now := by
  cases hc with
  | @book dto _ now b' _ call _ huser =>
    simp only [List.mem_cons, reduceCtorEq, Write.bookingInsert.injEq, List.not_mem_nil,
      or_false, false_or] at hb
    subst hb
    exact ⟨dto, now, huser ▸ call⟩
  | _ => simp at hb

theorem insert_payment (hc : Commits cfg c w ws) {p : Payment} (hp : .paymentInsert p ∈ ws) :
    p.id < w.out.uuid ∧ p.status = .INITIATED := by
  cases hc with
  | initiate _ _ hstatus hid _ =>
    simp only [List.mem_singleton, Write.paymentInsert.injEq] at hp
    exact hp ▸ ⟨hid, hstatus⟩
  | _ => simp at hp

/-- A booking that a commit cancels is there, and not active any more. -/
theorem cancelled (hv : w.db.Valid cfg) (hc : Commits cfg c w ws) {ids : List BookingId}
    (hws : .bookingSet ids .CANCELLED ∈ ws) {id : BookingId} (hid : id ∈ ids) :
    ∃ b, (w.db.applyAll ws).booking? id = some b ∧ ¬ b.Active := by
  have hset : ∀ db : Db, db.bookings = Db.setBookings ids .CANCELLED w.db.bookings →
      (∃ b ∈ w.db.bookings, b.id = id) → ∃ b, db.booking? id = some b ∧ ¬ b.Active := by
    rintro db hdb ⟨b, hb, rfl⟩
    refine ⟨{ b with status := .CANCELLED }, ?_, by simp [Booking.Active]⟩
    rw [Db.booking?_set hdb, if_pos hid, hv.booking?_of_mem hb]
    rfl
  cases hc with
  | cancel _ hb | refund _ _ _ hb =>
    simp only [List.mem_cons, reduceCtorEq, Write.bookingSet.injEq, and_true, false_or, mem_release,
      and_false, or_false] at hws
    subst hws
    exact hset _ (bookings_vacate _ _ _ _) ⟨_, hb, (List.mem_singleton.mp hid).symm⟩
  | cleanup _ hstale =>
    simp only [List.mem_cons, reduceCtorEq, Write.bookingSet.injEq, and_true, mem_release, and_false,
      or_false] at hws
    subst hws
    obtain ⟨b, hb, he, -⟩ := hstale id hid
    exact hset _ (bookings_vacate _ _ _ _) ⟨b, hb, he⟩
  | succeeded =>
    split_ifs at hws <;> simp at hws
  | _ => simp at hws

theorem insert_usage (hc : Commits cfg c w ws) {u : CouponUsage} (hu : .usageInsert u ∈ ws) :
    w.Booked c.id u.bookingId := by
  cases hc with
  | applyCoupon _ _ hb _ _ _ _ =>
    simp only [List.mem_cons, Write.usageInsert.injEq, reduceCtorEq, List.not_mem_nil,
      or_false] at hu
    exact hu ▸ hb
  | _ => simp at hu

/-- An event is registered by its own deliveries only. -/
theorem insert_event (hc : Commits cfg c w ws) {id : EventId} (hid : .eventInsert id ∈ ws) :
    c.call = .handleWebhook (some id) := by
  cases hc with
  | @succeeded id' _ b _ _ call =>
    have hid : id = id' := by
      split_ifs at hid <;> simpa using hid
    exact hid ▸ call
  | @failed id' _ _ call =>
    have hid : id = id' := by simpa using hid
    exact hid ▸ call
  | @processing id' _ call =>
    have hid : id = id' := by simpa using hid
    exact hid ▸ call
  | _ => simp at hid

end Commits

namespace Db

theorem booking_of_applyAll {db : Db} {ws : List Write} {b : Booking}
    (hb : b ∈ (db.applyAll ws).bookings) :
    (∃ b' ∈ db.bookings, b'.id = b.id) ∨ ∃ b', .bookingInsert b' ∈ ws ∧ b'.id = b.id := by
  induction ws generalizing db with
  | nil => exact .inl ⟨b, hb, rfl⟩
  | cons x ws ih =>
    rcases ih hb with ⟨b', hb', he⟩ | ⟨b', hb', he⟩
    · cases x with
      | bookingInsert b'' =>
        rcases List.mem_append.mp hb' with hb' | hb'
        · exact .inl ⟨b', hb', he⟩
        · rw [List.mem_singleton.mp hb'] at he
          exact .inr ⟨b'', by simp, he⟩
      | bookingSet ids st =>
        obtain ⟨b'', hb'', rfl⟩ := Rows.mem_update.mp hb'
        refine .inl ⟨b'', hb'', ?_⟩
        rw [← he]
        split_ifs <;> rfl
      | _ => exact .inl ⟨b', hb', he⟩
    · exact .inr ⟨b', by simp [hb'], he⟩

theorem payment_of_applyAll {db : Db} {ws : List Write} {p : Payment}
    (hp : p ∈ (db.applyAll ws).payments) :
    (∃ p' ∈ db.payments, p'.id = p.id) ∨ ∃ p', .paymentInsert p' ∈ ws ∧ p'.id = p.id := by
  induction ws generalizing db with
  | nil => exact .inl ⟨p, hp, rfl⟩
  | cons x ws ih =>
    rcases ih hp with ⟨p', hp', he⟩ | ⟨p', hp', he⟩
    · cases x with
      | paymentInsert p'' =>
        rcases List.mem_append.mp hp' with hp' | hp'
        · exact .inl ⟨p', hp', he⟩
        · rw [List.mem_singleton.mp hp'] at he
          exact .inr ⟨p'', by simp, he⟩
      | paymentSet ids ch =>
        obtain ⟨p'', hp'', rfl⟩ := Rows.mem_update.mp hp'
        refine .inl ⟨p'', hp'', ?_⟩
        rw [← he]
        split_ifs
        · exact (ch.set_id p'').symm
        · rfl
      | _ => exact .inl ⟨p', hp', he⟩
    · exact .inr ⟨p', by simp [hp'], he⟩

theorem usage_of_applyAll {db : Db} {ws : List Write} {u : CouponUsage}
    (hu : u ∈ (db.applyAll ws).couponUsages) : u ∈ db.couponUsages ∨ .usageInsert u ∈ ws := by
  induction ws generalizing db with
  | nil => exact .inl hu
  | cons x ws ih =>
    rcases ih hu with hu' | hu'
    · cases x with
      | usageInsert u' =>
        rcases List.mem_append.mp hu' with hu' | hu'
        · exact .inl hu'
        · exact .inr (by rw [List.mem_singleton.mp hu']; simp)
      | _ => exact .inl hu'
    · exact .inr (by simp [hu'])

theorem event_of_applyAll {db : Db} {ws : List Write} {id : EventId} :
    id ∈ (db.applyAll ws).webhookEvents ↔ id ∈ db.webhookEvents ∨ .eventInsert id ∈ ws := by
  induction ws generalizing db with
  | nil => simp
  | cons x ws ih =>
    rw [applyAll_cons, ih]
    cases x with
    | eventInsert id' => simp [apply, or_assoc]
    | _ => simp [apply]

end Db

/-! ### The rules -/

namespace Commits

variable {cfg : Config} {c : Session Call} {w : World} {ws : List Write}

theorem wellFormed (hw : w.WellFormed cfg) (hc : Commits cfg c w ws) :
    (result c ws w).WellFormed cfg := by
  have hkept : ∀ b ∈ w.db.bookings, ∃ b' ∈ (w.db.applyAll ws).bookings, b.Ages b' := by
    intro b hb
    obtain ⟨b', hb', ha⟩ := hc.ages hw.valid (hw.valid.booking?_of_mem hb)
    exact ⟨b', (Db.mem_of_booking? hb').1, ha⟩
  -- a booking recorded before is not the one inserted now
  have hfresh : ∀ e ∈ w.history, ∀ b b', .bookingInsert b ∈ e.writes → .bookingInsert b' ∈ ws →
      b.id ≠ b'.id := by
    intro e he b b' hb hb' heq
    obtain ⟨b₁, hb₁, ha⟩ := hw.recorded e he b hb
    exact (hc.insert_booking hb').2.2 b₁ hb₁ (ha.id_eq.trans heq)
  refine ⟨hc.valid hw.valid, fun b hb => ?_, fun p hp => ?_, fun e he b hb => ?_,
    fun e he e' he' b b' hb hb' hid => ?_, fun e he ids hws id hid => ?_⟩
  · rcases Db.booking_of_applyAll hb with ⟨b', hb', hid⟩ | ⟨b', hb', hid⟩
    · exact hid ▸ hw.bookingIds b' hb'
    · exact hid ▸ (hc.insert_booking hb').2.1
  · rcases Db.payment_of_applyAll hp with ⟨p', hp', hid⟩ | ⟨p', hp', hid⟩
    · exact hid ▸ hw.paymentIds p' hp'
    · exact hid ▸ (hc.insert_payment hp').1
  · rcases List.mem_append.mp he with he | he
    · obtain ⟨b', hb', ha⟩ := hw.recorded e he b hb
      obtain ⟨b'', hb'', ha'⟩ := hkept b' hb'
      exact ⟨b'', hb'', ha.trans ha'⟩
    · rw [List.mem_singleton.mp he] at hb
      obtain ⟨hws, -⟩ := hc.insert_booking hb
      exact ⟨b, by simp [result, hws, Db.apply], .refl b⟩
  · rcases List.mem_append.mp he with he | he
    · rcases List.mem_append.mp he' with he' | he'
      · exact hw.once e he e' he' b b' hb hb' hid
      · rw [List.mem_singleton.mp he'] at hb'
        exact absurd hid (hfresh e he b b' hb hb')
    · rw [List.mem_singleton.mp he] at hb ⊢
      rcases List.mem_append.mp he' with he' | he'
      · exact absurd hid.symm (hfresh e' he' b' b hb' hb)
      · rw [List.mem_singleton.mp he']
  · rcases List.mem_append.mp he with he | he
    · obtain ⟨b, hb, hn⟩ := hw.cancelled e he ids hws id hid
      obtain ⟨b', hb', ha⟩ := hc.ages hw.valid hb
      exact ⟨b', hb', fun hactive => hn (ha.active hactive)⟩
    · rw [List.mem_singleton.mp he] at hws
      exact hc.cancelled hw.valid hws hid

theorem since (c : Session Call) (ws : List Write) (w : World) : w.Since (result c ws w) := by
  intro e he
  rcases List.mem_append.mp he with he | he
  · exact .inl he
  · rw [List.mem_singleton.mp he]
    exact .inr fun _ b hb => ⟨b, hb, .refl b⟩

theorem rely (hw : w.WellFormed cfg) (hc : Commits cfg c w ws) {n : ℕ} {ks : List Key}
    (hn : n ≠ c.id) (hk : ∀ k ∈ ks, ∀ x ∈ ws, k ∉ x.keys) : w.Rely n ks (result c ws w) where
  db := (hc.fits hw.valid).rely hk
  uuid := Nat.le_refl _
  history e he := List.mem_append_left _ he
  own e he hid := by
    rcases List.mem_append.mp he with he | he
    · exact he
    · rw [List.mem_singleton.mp he] at hid
      exact absurd hid.symm hn
  usages u hu hb := by
    rcases Db.usage_of_applyAll hu with hu | hu
    · exact hu
    · -- the usage is for a booking of session `c`, not of session `n`
      obtain ⟨e, he, hid, b, hb, hbid⟩ := hb
      obtain ⟨e', he', hid', b', hb', hbid'⟩ := hc.insert_usage hu
      rcases List.mem_append.mp he with he | he
      · have heq := hw.once e he e' he' b b' hb hb' (hbid.trans hbid'.symm)
        exact absurd (hid ▸ hid' ▸ congrArg Session.id heq) hn
      · rw [List.mem_singleton.mp he] at hid
        exact absurd hid.symm hn
  since := since c ws w

end Commits

/-- A property of worlds that effects outside the database and commits keep. -/
structure Stable (cfg : Config) (J : World → Prop) : Prop where
  out : ∀ w o, J w → J { w with out := o }
  commit : ∀ {c w ws}, w.WellFormed cfg → J w → Commits cfg c w ws → J (Commits.result c ws w)

/-- The rules of the booking services, with a further invariant `J`, over the steps
that `allow` admits. -/
def rules (cfg : Config) (J : World → Prop)
    (allow : Session Call → Local Key Write → World → Cmd Stmt → Bool → Prop) :
    Rules Stmt Key Write World Call where
  inv w := w.WellFormed cfg ∧ J w
  rely := World.Rely
  start n w := ∀ e ∈ w.history, e.session.id ≠ n
  allow := allow
  post c held ws w := Commits cfg c w ws ∧ ∀ x ∈ ws, ∀ k ∈ x.keys, k ∈ held

section

variable {cfg : Config} {J : World → Prop}
  {allow : Session Call → Local Key Write → World → Cmd Stmt → Bool → Prop}

/-- Effects outside the database only take fresh ids. -/
theorem wellFormed_out {w : World} {o : Outside} (h : w.WellFormed cfg)
    (ho : w.out.uuid ≤ o.uuid) : World.WellFormed cfg { w with out := o } :=
  { h with
    bookingIds := fun b hb => Nat.lt_of_lt_of_le (h.bookingIds b hb) ho
    paymentIds := fun p hp => Nat.lt_of_lt_of_le (h.paymentIds p hp) ho }

theorem rely_out {w : World} {o : Outside} (n : ℕ) (ks : List Key)
    (ho : w.out.uuid ≤ o.uuid) : w.Rely n ks { w with out := o } :=
  { World.Rely.refl n ks w with uuid := ho }

theorem External.uuid_le (o : Outside) (x : External) : o.uuid ≤ (x.eval o).2.uuid := by
  cases x with
  | acquireLock id =>
    simp only [External.eval]
    split_ifs <;> simp
  | releaseLock id v =>
    simp only [External.eval]
    split_ifs <;> simp
  | createRefund i =>
    simp only [External.eval]
    split_ifs <;> simp
  | _ => exact Nat.le_refl _

/-- Redis answers. -/
theorem External.acquireLock_ok (o : Outside) (id : SlotId) :
    ∃ value, ((External.acquireLock id).eval o).1 = .ok value := by
  simp only [External.eval]
  split_ifs
  · exact ⟨_, rfl⟩
  · exact ⟨_, rfl⟩

theorem External.releaseLock_ok (o : Outside) (id : SlotId) (value : ℕ) :
    ∃ released, ((External.releaseLock id value).eval o).1 = .ok released := by
  simp only [External.eval]
  split_ifs
  · exact ⟨_, rfl⟩
  · exact ⟨_, rfl⟩

theorem act_out (cfg : Config) (s : Stmt) (v w : World) :
    ∃ o, ((engine cfg).act s v w).world = { w with out := o } ∧ w.out.uuid ≤ o.uuid := by
  cases s with
  | query q => exact ⟨w.out, rfl, Nat.le_refl _⟩
  | lock l => exact ⟨w.out, rfl, Nat.le_refl _⟩
  | update u => exact ⟨_, rfl, Nat.le_add_right _ _⟩
  | external x => exact ⟨_, rfl, x.uuid_le w.out⟩

theorem rules_lawful (hJ : Stable cfg J) : (rules cfg J allow).Lawful (engine cfg) where
  refl := World.Rely.refl
  trans := World.Rely.trans
  start hs hr e he hid := hs e (hr.own e he hid) hid
  act_inv s v w hw := by
    obtain ⟨o, ho, hu⟩ := act_out cfg s v w
    rw [ho]
    exact ⟨wellFormed_out hw.1 hu, hJ.out w o hw.2⟩
  act_rely s v w n ks _ := by
    obtain ⟨o, ho, hu⟩ := act_out cfg s v w
    rw [ho]
    exact rely_out n ks hu
  commit_inv hw hc := ⟨hc.1.wellFormed hw.1, hJ.commit hw.1 hw.2 hc.1⟩
  commit_rely hw hc hn hk := hc.1.rely hw.1 hn fun k hm x hx hkey => hk k hm (hc.2 x hx k hkey)

end

end TurfSync
