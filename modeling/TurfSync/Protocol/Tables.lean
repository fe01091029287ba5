import TurfSync.Store.Statements

/-! The row writes one by one: the constraints of the schema, the rows and index
entries a write has to lock, and what a session that holds row locks can rely on
while others write. A booking never becomes active again, and no booking appears on
a slot whose row is locked. -/

namespace TurfSync

open Txn

/-- The constraints that the schema declares, and one Stripe intent for each
booking. -/
structure Db.Valid (cfg : Config) (db : Db) : Prop where
  slots : (db.slots.map (·.id)).Nodup
  bookings : (db.bookings.map (·.id)).Nodup
  bookingSlots : cfg.slotIdUnique = true → (db.bookings.map (·.slotId)).Nodup
  bookingSlot : ∀ b ∈ db.bookings, ∃ s ∈ db.slots, s.id = b.slotId
  payments : (db.payments.map (·.id)).Nodup
  paymentBookings : (db.payments.map (·.bookingId)).Nodup
  paymentBooking : ∀ p ∈ db.payments, ∃ b ∈ db.bookings, b.id = p.bookingId
  intents : ∀ p ∈ db.payments, p.stripePaymentIntentId = ⟨p.bookingId⟩
  coupons : (db.coupons.map (·.id)).Nodup
  codes : (db.coupons.map (·.code)).Nodup
  usageBookings : (db.couponUsages.map (·.bookingId)).Nodup
  usageBooking : ∀ u ∈ db.couponUsages, ∃ b ∈ db.bookings, b.id = u.bookingId

/-- The locks a write is made under: its rows, for a booking also the slot, for a
usage also the coupon. -/
def Write.keys : Write → List Key
  | .slotSet ids _ => ids.map .slot
  | .bookingInsert b => [.booking b.id, .slot b.slotId]
  | .bookingSet ids _ => ids.map .booking
  | .paymentInsert p => [.payment p.id]
  | .paymentSet ids _ => ids.map .payment
  | .eventInsert id => [.event id]
  | .usageInsert u => [.usageBooking u.bookingId, .coupon u.couponId]
  | .couponIncrement id => [.coupon id]
  | .auditInsert _ => []

/-- What a write has to find so that the constraints stay, a payment keeps its
intent, and only a PENDING booking is confirmed. -/
def Write.Fits (cfg : Config) (db : Db) : Write → Prop
  | .bookingInsert b =>
    (∀ b' ∈ db.bookings, b'.id ≠ b.id) ∧ (∃ s ∈ db.slots, s.id = b.slotId) ∧
      (cfg.slotIdUnique = true → ∀ b' ∈ db.bookings, b'.slotId ≠ b.slotId)
  | .bookingSet ids status =>
    status ≠ .PENDING ∧
      (status = .CONFIRMED → ∀ b ∈ db.bookings, b.id ∈ ids → b.status = .PENDING)
  | .paymentInsert p =>
    (∀ p' ∈ db.payments, p'.id ≠ p.id ∧ p'.bookingId ≠ p.bookingId) ∧
      (∃ b ∈ db.bookings, b.id = p.bookingId) ∧ p.stripePaymentIntentId = ⟨p.bookingId⟩
  | .paymentSet ids change =>
    ∀ p ∈ db.payments, p.id ∈ ids →
      (change.set p).stripePaymentIntentId = p.stripePaymentIntentId
  | .usageInsert u =>
    (∀ u' ∈ db.couponUsages, u'.bookingId ≠ u.bookingId) ∧ ∃ b ∈ db.bookings, b.id = u.bookingId
  | _ => True

/-- What becomes of a booking: only its status changes, and it never gets back to
being active or PENDING. -/
structure Booking.Ages (b b' : Booking) : Prop where
  row : b' = { b with status := b'.status }
  active : b'.Active → b.Active
  pending : b'.status = .PENDING → b.status = .PENDING

namespace Booking.Ages

variable {b b' b'' : Booking}

theorem refl (b : Booking) : b.Ages b := ⟨rfl, fun h => h, fun h => h⟩

theorem trans (h : b.Ages b') (h' : b'.Ages b'') : b.Ages b'' where
  row := by
    rw [h'.row, h.row]
  active ha := h.active (h'.active ha)
  pending hp := h.pending (h'.pending hp)

theorem slotId (h : b.Ages b') : b'.slotId = b.slotId := by rw [h.row]

theorem userId (h : b.Ages b') : b'.userId = b.userId := by rw [h.row]

theorem id_eq (h : b.Ages b') : b'.id = b.id := by rw [h.row]

theorem createdAt (h : b.Ages b') : b'.createdAt = b.createdAt := by rw [h.row]

end Booking.Ages

@[simp] theorem PaymentChange.set_id (p : Payment) (ch : PaymentChange) : (ch.set p).id = p.id := by
  cases ch <;> rfl

@[simp] theorem PaymentChange.set_bookingId (p : Payment) (ch : PaymentChange) :
    (ch.set p).bookingId = p.bookingId := by
  cases ch <;> rfl

@[simp] theorem PaymentChange.set_status (p : Payment) (ch : PaymentChange) :
    (ch.set p).status = ch.status := by
  cases ch <;> rfl

/-- What a session that holds the locks `ks` can rely on while others commit. -/
structure Db.Rely (ks : List Key) (db db' : Db) : Prop where
  turfs : db'.turfs = db.turfs
  slotLock : ∀ id, .slot id ∈ ks → db'.slot? id = db.slot? id
  bookingLock : ∀ id, .booking id ∈ ks → db'.booking? id = db.booking? id
  booking : ∀ id b, db.booking? id = some b → ∃ b', db'.booking? id = some b' ∧ b.Ages b'
  newBooking : ∀ id b', db'.booking? id = some b' → db.booking? id = none →
    .slot b'.slotId ∉ ks
  paymentLock : ∀ id, .payment id ∈ ks → db'.payment? id = db.payment? id
  payment : ∀ id p, db.payment? id = some p → ∃ p', db'.payment? id = some p' ∧
    p'.bookingId = p.bookingId ∧ p'.stripePaymentIntentId = p.stripePaymentIntentId
  events : ∀ id ∈ db.webhookEvents, id ∈ db'.webhookEvents
  eventLock : ∀ id, .event id ∈ ks → id ∈ db'.webhookEvents → id ∈ db.webhookEvents
  couponLock : ∀ id, .coupon id ∈ ks → db'.coupon? id = db.coupon? id
  coupon : ∀ id c, db.coupon? id = some c → ∃ n, db'.coupon? id = some { c with usedCount := n }
  usages : ∀ u ∈ db.couponUsages, u ∈ db'.couponUsages
  usageLock : ∀ id, .coupon id ∈ ks →
    db'.couponUsages.filter (·.couponId = id) = db.couponUsages.filter (·.couponId = id)
  usageBookingLock : ∀ id, .usageBooking id ∈ ks → ∀ u ∈ db'.couponUsages, u.bookingId = id →
    u ∈ db.couponUsages

namespace Db.Rely

variable {ks ks' : List Key} {db db' db'' : Db}

theorem refl (ks : List Key) (db : Db) : db.Rely ks db where
  turfs := rfl
  slotLock _ _ := rfl
  bookingLock _ _ := rfl
  booking _ b h := ⟨b, h, .refl b⟩
  newBooking id b' h h' := by rw [h] at h'; cases h'
  paymentLock _ _ := rfl
  payment _ p h := ⟨p, h, rfl, rfl⟩
  events _ h := h
  eventLock _ _ h := h
  couponLock _ _ := rfl
  coupon _ c h := ⟨c.usedCount, h⟩
  usages _ h := h
  usageLock _ _ := rfl
  usageBookingLock _ _ _ h _ := h

theorem trans (h : db.Rely ks db') (h' : db'.Rely ks db'') : db.Rely ks db'' where
  turfs := h'.turfs.trans h.turfs
  slotLock id hk := (h'.slotLock id hk).trans (h.slotLock id hk)
  bookingLock id hk := (h'.bookingLock id hk).trans (h.bookingLock id hk)
  booking id b hb := by
    obtain ⟨b', hb', ha⟩ := h.booking id b hb
    obtain ⟨b'', hb'', ha'⟩ := h'.booking id b' hb'
    exact ⟨b'', hb'', ha.trans ha'⟩
  newBooking id b'' hb'' hn := by
    cases hb' : db'.booking? id with
    | none => exact h'.newBooking id b'' hb'' hb'
    | some b' =>
      obtain ⟨c, hc, ha⟩ := h'.booking id b' hb'
      rw [hb''] at hc
      obtain rfl := Option.some.inj hc
      rw [ha.slotId]
      exact h.newBooking id b' hb' hn
  paymentLock id hk := (h'.paymentLock id hk).trans (h.paymentLock id hk)
  payment id p hp := by
    obtain ⟨p', hp', h1, h2⟩ := h.payment id p hp
    obtain ⟨p'', hp'', h3, h4⟩ := h'.payment id p' hp'
    exact ⟨p'', hp'', h3.trans h1, h4.trans h2⟩
  events id hid := h'.events id (h.events id hid)
  eventLock id hk hid := h.eventLock id hk (h'.eventLock id hk hid)
  couponLock id hk := (h'.couponLock id hk).trans (h.couponLock id hk)
  coupon id c hc := by
    obtain ⟨n, hn⟩ := h.coupon id c hc
    obtain ⟨m, hm⟩ := h'.coupon id _ hn
    exact ⟨m, hm⟩
  usages u hu := h'.usages u (h.usages u hu)
  usageLock id hk := (h'.usageLock id hk).trans (h.usageLock id hk)
  usageBookingLock id hk u hu hid :=
    h.usageBookingLock id hk u (h'.usageBookingLock id hk u hu hid) hid

/-- Fewer locks, fewer promises. -/
theorem weaken (h : db.Rely ks db') (hk : ∀ k ∈ ks', k ∈ ks) : db.Rely ks' db' where
  turfs := h.turfs
  slotLock id hm := h.slotLock id (hk _ hm)
  bookingLock id hm := h.bookingLock id (hk _ hm)
  booking := h.booking
  newBooking id b hb hn hm := h.newBooking id b hb hn (hk _ hm)
  paymentLock id hm := h.paymentLock id (hk _ hm)
  payment := h.payment
  events := h.events
  eventLock id hm := h.eventLock id (hk _ hm)
  couponLock id hm := h.couponLock id (hk _ hm)
  coupon := h.coupon
  usages := h.usages
  usageLock id hm := h.usageLock id (hk _ hm)
  usageBookingLock id hm := h.usageBookingLock id (hk _ hm)

end Db.Rely

namespace Db

variable {cfg : Config} {db db' : Db} {ks : List Key}

/-! ### Rows and lookups of a valid database -/

theorem mem_of_booking? {id : BookingId} {b : Booking} (h : db.booking? id = some b) :
    b ∈ db.bookings ∧ b.id = id := Rows.lookup_some h

theorem mem_of_payment? {id : PaymentId} {p : Payment} (h : db.payment? id = some p) :
    p ∈ db.payments ∧ p.id = id := Rows.lookup_some h

theorem mem_of_paymentOf? {id : BookingId} {p : Payment} (h : db.paymentOf? id = some p) :
    p ∈ db.payments ∧ p.bookingId = id := Rows.lookup_some h

theorem mem_of_paymentByIntent? {intent : IntentId} {p : Payment}
    (h : db.paymentByIntent? intent = some p) :
    p ∈ db.payments ∧ p.stripePaymentIntentId = intent := Rows.lookup_some h

theorem mem_of_slot? {id : SlotId} {s : Slot} (h : db.slot? id = some s) :
    s ∈ db.slots ∧ s.id = id := Rows.lookup_some h

theorem mem_of_coupon? {id : CouponId} {c : Coupon} (h : db.coupon? id = some c) :
    c ∈ db.coupons ∧ c.id = id := Rows.lookup_some h

/-! ### Lookups after a write -/

theorem booking?_set {ids : List BookingId} {status : BookingStatus}
    (h : db'.bookings = setBookings ids status db.bookings) (id : BookingId) :
    db'.booking? id = if id ∈ ids then (db.booking? id).map fun b => { b with status := status }
      else db.booking? id := by
  rw [booking?, h]
  exact Rows.lookup_update fun _ => rfl

theorem booking?_insert {b : Booking} (h : db'.bookings = db.bookings ++ [b]) (id : BookingId) :
    db'.booking? id = (db.booking? id).or (if b.id = id then some b else none) := by
  rw [booking?, h]
  exact Rows.lookup_append

theorem slot?_set {ids : List SlotId} {v : Bool} (h : db'.slots = setSlots ids v db.slots)
    (id : SlotId) : db'.slot? id =
      if id ∈ ids then (db.slot? id).map fun s => { s with isBooked := v } else db.slot? id := by
  rw [slot?, h]
  exact Rows.lookup_update fun _ => rfl

theorem payment?_set {ids : List PaymentId} {change : PaymentChange}
    (h : db'.payments = setPayments ids change db.payments) (id : PaymentId) :
    db'.payment? id =
      if id ∈ ids then (db.payment? id).map fun p => change.set p else db.payment? id := by
  rw [payment?, h]
  exact Rows.lookup_update fun p => change.set_id p

theorem payment?_insert {p : Payment} (h : db'.payments = db.payments ++ [p]) (id : PaymentId) :
    db'.payment? id = (db.payment? id).or (if p.id = id then some p else none) := by
  rw [payment?, h]
  exact Rows.lookup_append

theorem coupon?_increment {id' : CouponId} (h : db'.coupons = incrementCoupon id' db.coupons)
    (id : CouponId) : db'.coupon? id =
      if id ∈ [id'] then (db.coupon? id).map fun c => { c with usedCount := c.usedCount + 1 }
      else db.coupon? id := by
  rw [coupon?, h]
  exact Rows.lookup_update fun _ => rfl

namespace Valid

theorem booking?_iff (hv : db.Valid cfg) {id : BookingId} {b : Booking} :
    db.booking? id = some b ↔ b ∈ db.bookings ∧ b.id = id := Rows.lookup_iff hv.bookings

theorem booking?_of_mem (hv : db.Valid cfg) {b : Booking} (hb : b ∈ db.bookings) :
    db.booking? b.id = some b := hv.booking?_iff.mpr ⟨hb, rfl⟩

theorem payment?_of_mem (hv : db.Valid cfg) {p : Payment} (hp : p ∈ db.payments) :
    db.payment? p.id = some p := (Rows.lookup_iff hv.payments).mpr ⟨hp, rfl⟩

theorem coupon?_of_mem (hv : db.Valid cfg) {c : Coupon} (hc : c ∈ db.coupons) :
    db.coupon? c.id = some c := (Rows.lookup_iff hv.coupons).mpr ⟨hc, rfl⟩

/-- Without another booking on the slot, a booking is the only one there. -/
theorem eq_of_slotId (hv : db.Valid cfg) (hu : cfg.slotIdUnique = true) {b b' : Booking}
    (hb : b ∈ db.bookings) (hb' : b' ∈ db.bookings) (h : b'.slotId = b.slotId) : b' = b :=
  Rows.eq_of_key (hv.bookingSlots hu) hb' hb h

theorem eq_of_bookingId (hv : db.Valid cfg) {p p' : Payment} (hp : p ∈ db.payments)
    (hp' : p' ∈ db.payments) (h : p'.bookingId = p.bookingId) : p' = p :=
  Rows.eq_of_key hv.paymentBookings hp' hp h

/-- An intent belongs to one payment. -/
theorem eq_of_intent (hv : db.Valid cfg) {p p' : Payment} (hp : p ∈ db.payments)
    (hp' : p' ∈ db.payments) (h : p'.stripePaymentIntentId = p.stripePaymentIntentId) : p' = p := by
  rw [hv.intents p hp, hv.intents p' hp'] at h
  exact hv.eq_of_bookingId hp hp' (IntentId.mk.inj h)

theorem intent_bookingId (hv : db.Valid cfg) {p : Payment} (hp : p ∈ db.payments) {intent : IntentId}
    (h : p.stripePaymentIntentId = intent) : intent.bookingId = p.bookingId := by
  rw [← h, hv.intents p hp]

/-- The intent of a booking is on no payment of another one. -/
theorem intent_own (hv : db.Valid cfg) (id : BookingId) :
    ¬ ∃ p ∈ db.payments, p.stripePaymentIntentId = ⟨id⟩ ∧ p.bookingId ≠ id := by
  rintro ⟨p, hp, hi, hne⟩
  rw [hv.intents p hp] at hi
  exact hne (IntentId.mk.inj hi)

end Valid

end Db

/-! ### One write -/

namespace Write.Fits

variable {cfg : Config} {db : Db} {ks : List Key} {x : Write}

theorem valid (hv : db.Valid cfg) (hf : x.Fits cfg db) : (db.apply x).Valid cfg := by
  cases x with
  | slotSet ids v =>
    have hk : (db.apply (.slotSet ids v)).slots.map (·.id) = db.slots.map (·.id) :=
      Rows.keys_update fun _ => rfl
    refine { hv with slots := hk ▸ hv.slots, bookingSlot := fun b hb => ?_ }
    obtain ⟨s, hs, he⟩ := hv.bookingSlot b hb
    have hm : b.slotId ∈ (db.apply (.slotSet ids v)).slots.map (·.id) :=
      hk ▸ he ▸ List.mem_map_of_mem hs
    obtain ⟨s', hs', he'⟩ := List.mem_map.mp hm
    exact ⟨s', hs', he'⟩
  | bookingInsert b =>
    obtain ⟨hid, hslot, hu⟩ := hf
    refine { hv with
      bookings := Rows.nodup_insert hv.bookings hid
      bookingSlots := fun h => Rows.nodup_insert (hv.bookingSlots h) (hu h)
      bookingSlot := fun b' hb' => ?_
      paymentBooking := fun p hp => ?_
      usageBooking := fun u hu => ?_ }
    · rcases List.mem_append.mp hb' with hb' | hb'
      · exact hv.bookingSlot b' hb'
      · rw [List.mem_singleton.mp hb']
        exact hslot
    · obtain ⟨b', hb', he⟩ := hv.paymentBooking p hp
      exact ⟨b', List.mem_append_left _ hb', he⟩
    · obtain ⟨b', hb', he⟩ := hv.usageBooking u hu
      exact ⟨b', List.mem_append_left _ hb', he⟩
  | bookingSet ids st =>
    have hk : (db.apply (.bookingSet ids st)).bookings.map (·.id) = db.bookings.map (·.id) :=
      Rows.keys_update fun _ => rfl
    have hs : (db.apply (.bookingSet ids st)).bookings.map (·.slotId) =
        db.bookings.map (·.slotId) := Rows.keys_update fun _ => rfl
    have hex : ∀ {id}, (∃ b ∈ db.bookings, b.id = id) →
        ∃ b ∈ (db.apply (.bookingSet ids st)).bookings, b.id = id := by
      rintro id ⟨b, hb, rfl⟩
      have hm : b.id ∈ (db.apply (.bookingSet ids st)).bookings.map (·.id) :=
        hk ▸ List.mem_map_of_mem hb
      obtain ⟨b', hb', he⟩ := List.mem_map.mp hm
      exact ⟨b', hb', he⟩
    refine { hv with
      bookings := hk ▸ hv.bookings
      bookingSlots := fun h => hs ▸ hv.bookingSlots h
      bookingSlot := fun b' hb' => ?_
      paymentBooking := fun p hp => hex (hv.paymentBooking p hp)
      usageBooking := fun u hu => hex (hv.usageBooking u hu) }
    obtain ⟨b, hb, rfl⟩ := Rows.mem_update.mp hb'
    obtain ⟨s, hs, he⟩ := hv.bookingSlot b hb
    refine ⟨s, hs, he.trans ?_⟩
    split_ifs <;> rfl
  | paymentInsert p =>
    obtain ⟨hnew, hb, hi⟩ := hf
    refine { hv with
      payments := Rows.nodup_insert hv.payments fun p' hp' => (hnew p' hp').1
      paymentBookings := Rows.nodup_insert hv.paymentBookings fun p' hp' => (hnew p' hp').2
      paymentBooking := fun p' hp' => ?_
      intents := fun p' hp' => ?_ }
    · rcases List.mem_append.mp hp' with hp' | hp'
      · exact hv.paymentBooking p' hp'
      · rw [List.mem_singleton.mp hp']
        exact hb
    · rcases List.mem_append.mp hp' with hp' | hp'
      · exact hv.intents p' hp'
      · rw [List.mem_singleton.mp hp']
        exact hi
  | paymentSet ids ch =>
    have hk : (db.apply (.paymentSet ids ch)).payments.map (·.id) = db.payments.map (·.id) :=
      Rows.keys_update fun p => ch.set_id p
    have hb : (db.apply (.paymentSet ids ch)).payments.map (·.bookingId) =
        db.payments.map (·.bookingId) := Rows.keys_update fun p => ch.set_bookingId p
    refine { hv with
      payments := hk ▸ hv.payments
      paymentBookings := hb ▸ hv.paymentBookings
      paymentBooking := fun p' hp' => ?_
      intents := fun p' hp' => ?_ }
    · obtain ⟨p, hp, rfl⟩ := Rows.mem_update.mp hp'
      obtain ⟨b, hb, he⟩ := hv.paymentBooking p hp
      refine ⟨b, hb, he.trans ?_⟩
      split_ifs
      · exact (ch.set_bookingId p).symm
      · rfl
    · obtain ⟨p, hp, rfl⟩ := Rows.mem_update.mp hp'
      split_ifs with hid
      · rw [hf p hp hid, hv.intents p hp, ch.set_bookingId]
      · exact hv.intents p hp
  | eventInsert id => exact { hv with }
  | usageInsert u =>
    obtain ⟨hnew, hb⟩ := hf
    refine { hv with
      usageBookings := Rows.nodup_insert hv.usageBookings hnew
      usageBooking := fun u' hu' => ?_ }
    rcases List.mem_append.mp hu' with hu' | hu'
    · exact hv.usageBooking u' hu'
    · rw [List.mem_singleton.mp hu']
      exact hb
  | couponIncrement id =>
    have hk : (db.apply (.couponIncrement id)).coupons.map (·.id) = db.coupons.map (·.id) :=
      Rows.keys_update fun _ => rfl
    have hc : (db.apply (.couponIncrement id)).coupons.map (·.code) = db.coupons.map (·.code) :=
      Rows.keys_update fun _ => rfl
    exact { hv with coupons := hk ▸ hv.coupons, codes := hc ▸ hv.codes }
  | auditInsert a => exact { hv with }

/-- A write under its locks leaves alone what a session with other locks relies on. -/
theorem rely (hf : x.Fits cfg db) (hk : ∀ k ∈ ks, k ∉ x.keys) : db.Rely ks (db.apply x) := by
  cases x with
  | slotSet ids v =>
    have hlook : ∀ id, (db.apply (.slotSet ids v)).slot? id = _ := Db.slot?_set rfl
    refine { Db.Rely.refl ks db with slotLock := fun id hid => ?_ }
    have hn : id ∉ ids := fun hm => hk _ hid (List.mem_map_of_mem hm)
    rw [hlook, if_neg hn]
  | bookingInsert b =>
    have hlook : ∀ id, (db.apply (.bookingInsert b)).booking? id = _ := Db.booking?_insert rfl
    refine { Db.Rely.refl ks db with
      bookingLock := fun id hid => ?_
      booking := fun id b' hb' => ⟨b', by rw [hlook, hb']; rfl, .refl b'⟩
      newBooking := fun id b' hb' hn hm => ?_ }
    · have hne : b.id ≠ id := fun e => hk _ hid (by simp [Write.keys, e])
      simp [hlook, hne]
    · simp only [hlook, hn, Option.none_or] at hb'
      split_ifs at hb' with he
      obtain rfl := Option.some.inj hb'
      exact hk _ hm (by simp [Write.keys])
  | bookingSet ids st =>
    obtain ⟨hst, hconf⟩ := hf
    have hlook : ∀ id, (db.apply (.bookingSet ids st)).booking? id = _ := Db.booking?_set rfl
    refine { Db.Rely.refl ks db with
      bookingLock := fun id hid => ?_
      booking := fun id b hb => ?_
      newBooking := fun id b' hb' hn => ?_ }
    · have hn : id ∉ ids := fun hm => hk _ hid (List.mem_map_of_mem hm)
      rw [hlook, if_neg hn]
    · rw [hlook]
      split_ifs with hid
      · refine ⟨{ b with status := st }, by rw [hb]; rfl, rfl, fun ha => ?_, fun hp => ?_⟩
        · rcases ha with ha | ha
          · exact absurd ha hst
          · obtain ⟨hm, he⟩ := Db.mem_of_booking? hb
            exact .inl (hconf ha b hm (he ▸ hid))
        · exact absurd hp hst
      · exact ⟨b, hb, .refl b⟩
    · rw [hlook, hn] at hb'
      split_ifs at hb'
      cases hb'
  | paymentInsert p =>
    have hlook : ∀ id, (db.apply (.paymentInsert p)).payment? id = _ := Db.payment?_insert rfl
    refine { Db.Rely.refl ks db with
      paymentLock := fun id hid => ?_
      payment := fun id p' hp' => ⟨p', by rw [hlook, hp']; rfl, rfl, rfl⟩ }
    have hne : p.id ≠ id := fun e => hk _ hid (by simp [Write.keys, e])
    simp [hlook, hne]
  | paymentSet ids ch =>
    have hlook : ∀ id, (db.apply (.paymentSet ids ch)).payment? id = _ := Db.payment?_set rfl
    refine { Db.Rely.refl ks db with
      paymentLock := fun id hid => ?_
      payment := fun id p hp => ?_ }
    · have hn : id ∉ ids := fun hm => hk _ hid (List.mem_map_of_mem hm)
      rw [hlook, if_neg hn]
    · rw [hlook]
      split_ifs with hid
      · obtain ⟨hm, he⟩ := Db.mem_of_payment? hp
        exact ⟨ch.set p, by rw [hp]; rfl, ch.set_bookingId p, hf p hm (he ▸ hid)⟩
      · exact ⟨p, hp, rfl, rfl⟩
  | eventInsert id =>
    refine { Db.Rely.refl ks db with
      events := fun id' h => List.mem_append_left _ h
      eventLock := fun id' hid h => ?_ }
    rcases List.mem_append.mp h with h | h
    · exact h
    · rw [List.mem_singleton.mp h] at hid
      exact absurd (by simp [Write.keys]) (hk _ hid)
  | usageInsert u =>
    refine { Db.Rely.refl ks db with
      usages := fun u' h => List.mem_append_left _ h
      usageLock := fun id hid => ?_
      usageBookingLock := fun id hid u' h he => ?_ }
    · have hne : u.couponId ≠ id := fun e => hk _ hid (by simp [Write.keys, e])
      simp [Db.apply, List.filter_append, hne]
    · rcases List.mem_append.mp h with h | h
      · exact h
      · rw [List.mem_singleton.mp h] at he
        exact absurd (by simp [Write.keys, he]) (hk _ hid)
  | couponIncrement id =>
    have hlook := Db.coupon?_increment (show (db.apply (.couponIncrement id)).coupons = _ from rfl)
    refine { Db.Rely.refl ks db with
      couponLock := fun id' hid => ?_
      coupon := fun id' c hc => ?_ }
    · have hn : id' ∉ [id] := fun hm => hk _ hid (by simpa [Write.keys] using hm)
      rw [hlook, if_neg hn]
    · rw [hlook]
      split_ifs with hid
      · exact ⟨c.usedCount + 1, by rw [hc]; rfl⟩
      · exact ⟨c.usedCount, hc⟩
  | auditInsert a => exact { Db.Rely.refl ks db with }

end Write.Fits

/-! ### Several writes -/

/-- Every write fits the database it finds. -/
def Db.FitsAll (cfg : Config) : Db → List Write → Prop
  | _, [] => True
  | db, x :: ws => x.Fits cfg db ∧ FitsAll cfg (db.apply x) ws

namespace Db.FitsAll

variable {cfg : Config} {db : Db} {ks : List Key} {ws : List Write}

theorem valid (hv : db.Valid cfg) (hf : db.FitsAll cfg ws) : (db.applyAll ws).Valid cfg := by
  induction ws generalizing db with
  | nil => exact hv
  | cons x ws ih => exact ih (hf.1.valid hv) hf.2

theorem rely (hf : db.FitsAll cfg ws) (hk : ∀ k ∈ ks, ∀ x ∈ ws, k ∉ x.keys) :
    db.Rely ks (db.applyAll ws) := by
  induction ws generalizing db with
  | nil => exact .refl ks db
  | cons x ws ih =>
    have hx : db.Rely ks (db.apply x) := hf.1.rely fun k hm => hk k hm x (by simp)
    have hws := ih hf.2 fun k hm y hy => hk k hm y (by simp [hy])
    exact hx.trans hws

end Db.FitsAll

end TurfSync
