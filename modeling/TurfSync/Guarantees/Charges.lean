import TurfSync.Guarantees.Intents
import TurfSync.Protocol.Footprints
import TurfSync.Txn.Buffers

/-! What `createPaymentIntent` copies. It reads a booking with its turf and its slot, sends
Stripe a request made of them and stores a payment, in three statements; nothing else asks
for an intent or inserts a payment. The booking and the slot do not change in what is
copied, so the requests and the payments of a booking say what the booking says; the name
of the turf is the exception. -/

namespace TurfSync

open Txn

/-! ### The stages of a call -/

/-- Where a call is: nothing asked yet; a booking read, by `createPaymentIntent`; its
request taken by Stripe, for a positive amount; or anything else. -/
inductive Stage where
  | fresh
  | read (d : BookingDetail)
  | taken (d : BookingDetail) (positive : 0 < mathRound (d.booking.totalAmount * 100))
  | other

/-- What the call has read and may still use. -/
def Stage.detail? : Stage → Option BookingDetail
  | .read d => some d
  | .taken d _ => some d
  | _ => none

/-- A statement that is not one of the three of `createPaymentIntent`. -/
def Stmt.ordinary : Stmt → Bool
  | .query (.bookingDetail _) => false
  | .external (.createIntent _) => false
  | .update (.paymentUpsert _ _ _ _ _) => false
  | _ => true

/-- A request is for the booking that was read, and a payment for the booking whose request
was taken. -/
def charging (cfg : Config) : Automaton Stmt Stmt.Reply Err Stage where
  init := .fresh
  may g
    | .stmt (.query (.bookingDetail _)) => g = .fresh
    | .stmt (.external (.createIntent r)) => ∃ d, g = .read d ∧ r = intentRequest cfg d
    | .stmt (.update (.paymentUpsert id amount _ _ _)) => ∃ d h, g = .taken d h ∧
      id = d.booking.id ∧ amount = d.booking.totalAmount
    | _ => g = .fresh ∨ g = .other
  answers
    | .stmt (.query (.bookingDetail id)), .ok (some d) => d.booking.id = id
    | .stmt (.external (.createIntent r)), .ok _ => 0 < r.amount
    | _, _ => True
  next g
    | .stmt (.query (.bookingDetail _)), .ok (some d) => .read d
    | .stmt (.external (.createIntent _)), .ok _ => match g with
      | .read d => if h : 0 < mathRound (d.booking.totalAmount * 100) then .taken d h else .other
      | _ => .other
    | _, _ => .other

/-- Every other call is ordinary. -/
theorem ordinary_of_issues {c : Call} (hc : ∀ bookingId userId, c ≠ .createPaymentIntent bookingId userId)
    {s : Stmt} (h : c.issues s = true) : s.ordinary = true := by
  cases s with
  | query q =>
    cases q with
    | bookingDetail id =>
      cases c with
      | createPaymentIntent bookingId userId => exact absurd rfl (hc bookingId userId)
      | _ => cases h
    | _ => rfl
  | external x =>
    cases x with
    | createIntent r =>
      cases c with
      | createPaymentIntent bookingId userId => exact absurd rfl (hc bookingId userId)
      | _ => cases h
    | _ => rfl
  | update u =>
    cases u with
    | paymentUpsert id amount currency intent secret =>
      cases c with
      | createPaymentIntent bookingId userId => exact absurd rfl (hc bookingId userId)
      | _ => cases h
    | _ => rfl
  | lock l => rfl

theorem may_ordinary {cfg : Config} {g : Stage} {s : Stmt} (hs : s.ordinary = true) :
    (charging cfg).may g (.stmt s) ↔ g = .fresh ∨ g = .other := by
  cases s with
  | query q => cases q <;> first | exact Iff.rfl | cases hs
  | external x => cases x <;> first | exact Iff.rfl | cases hs
  | update u => cases u <;> first | exact Iff.rfl | cases hs
  | lock l => exact Iff.rfl

theorem next_ordinary {cfg : Config} {g : Stage} {s : Stmt} (hs : s.ordinary = true)
    (r : Except Err s.Reply) : (charging cfg).next g (.stmt s) r = .other := by
  cases s with
  | query q => cases q <;> first | rfl | cases hs
  | external x => cases x <;> first | rfl | cases hs
  | update u => cases u <;> rfl
  | lock l => rfl

theorem createPaymentIntent_obeys (cfg : Config) (bookingId : BookingId) (userId : UserId) :
    (PaymentService.createPaymentIntent cfg bookingId userId).Obeys (charging cfg) .fresh
      fun _ _ => True := by
  refine Script.obeys_stmt rfl (fun found hfound => ?_) fun _ => trivial
  cases found with
  | none => exact trivial
  | some d =>
    have hid : d.booking.id = bookingId := hfound
    simp only
    split_ifs with huser hpaid
    · exact trivial
    · exact trivial
    split
    · exact trivial
    have huserId : d.booking.userId = userId := not_not.mp huser
    refine Script.obeys_stmt ⟨d, rfl, by rw [intentRequest, huserId]⟩ (fun intent hintent => ?_)
      fun _ => trivial
    have hpositive : 0 < mathRound (d.booking.totalAmount * 100) := hintent
    refine Script.obeys_stmt ⟨d, hpositive, ?_, hid.symm, rfl⟩ (fun _ _ => trivial) fun _ => trivial
    exact dif_pos hpositive

theorem body_obeys_charging (cfg : Config) (c : Call) :
    (c.body cfg).Obeys (charging cfg) .fresh fun _ _ => True := by
  by_cases hc : ∃ bookingId userId, c = .createPaymentIntent bookingId userId
  · obtain ⟨bookingId, userId, rfl⟩ := hc
    exact createPaymentIntent_obeys cfg bookingId userId
  · refine Script.obeys_mono (Script.obeys_of_uses (J := fun g => g = .fresh ∨ g = .other) ?_
      (c.body_stays cfg) (.inl rfl)) fun _ _ _ => trivial
    intro g m hm hg
    cases m with
    | stmt s =>
      have hs := ordinary_of_issues (fun b u hbu => hc ⟨b, u, hbu⟩) hm
      exact ⟨(may_ordinary hs).mpr hg, fun r => .inr (next_ordinary hs r)⟩
    | _ => exact ⟨hg, fun r => .inr rfl⟩

/-! ### What does not change -/

/-- An amount with at most two decimals. -/
def InCents (amount : ℚ) : Prop := (mathRound (amount * 100) : ℚ) = amount * 100

instance : DecidablePred InCents := fun _ => inferInstanceAs (Decidable (_ = _))

theorem mathRound_intCast (n : ℤ) : mathRound n = n := by
  rw [mathRound, add_comm, Int.floor_add_intCast]
  norm_num

theorem inCents_decimal2 (x : ℚ) : InCents (decimal2 x) := by
  have hint : ∀ n : ℤ, InCents ((n : ℚ) / 100) := fun n => by
    have hn : (n : ℚ) / 100 * 100 = n := by ring
    rw [InCents, hn, mathRound_intCast]
  unfold decimal2
  split_ifs
  · exact hint _
  · have hneg : -((⌊-x * 100 + 1 / 2⌋ : ℚ) / 100) = ((-⌊-x * 100 + 1 / 2⌋ : ℤ) : ℚ) / 100 := by
      push_cast
      ring
    rw [hneg]
    exact hint _

/-- Bookings and slots stay, but for the status of a booking and the flag of a slot. -/
structure Db.Retains (db db' : Db) : Prop where
  booking : ∀ id b, db.booking? id = some b →
    ∃ status, db'.booking? id = some { b with status := status }
  slot : ∀ id s, db.slot? id = some s → ∃ v, db'.slot? id = some { s with isBooked := v }

theorem Db.Retains.refl (db : Db) : db.Retains db := ⟨fun _ b h => ⟨b.status, h⟩, fun _ s h => ⟨s.isBooked, h⟩⟩

theorem Db.Retains.of_tables {db db' : Db} (hb : db'.bookings = db.bookings)
    (hs : db'.slots = db.slots) : db.Retains db' where
  booking id b h := ⟨b.status, by rw [booking?, hb]; exact h⟩
  slot id s h := ⟨s.isBooked, by rw [slot?, hs]; exact h⟩

theorem Db.retains_apply (db : Db) (x : Write) : db.Retains (db.apply x) where
  booking id b hb := by
    cases x with
    | bookingInsert b' =>
      have hinsert : (db.apply (.bookingInsert b')).bookings = db.bookings ++ [b'] := rfl
      refine ⟨b.status, ?_⟩
      rw [booking?_insert hinsert, hb]
      rfl
    | bookingSet ids status =>
      have hset : (db.apply (.bookingSet ids status)).bookings = setBookings ids status db.bookings := rfl
      rw [booking?_set hset, hb]
      split_ifs
      · exact ⟨status, rfl⟩
      · exact ⟨b.status, rfl⟩
    | _ => exact ⟨b.status, hb⟩
  slot id s hs := by
    cases x with
    | slotSet ids v =>
      have hset : (db.apply (.slotSet ids v)).slots = setSlots ids v db.slots := rfl
      rw [slot?_set hset, hs]
      split_ifs
      · exact ⟨v, rfl⟩
      · exact ⟨s.isBooked, rfl⟩
    | _ => exact ⟨s.isBooked, hs⟩

/-- But for the name of the turf, the request says what its booking and the slot say. -/
def Db.Asks (cfg : Config) (db : Db) (r : IntentRequest) : Prop :=
  ∃ b, db.booking? r.bookingId = some b ∧ ∃ slot, db.slot? b.slotId = some slot ∧
    r = ⟨b.id, mathRound (b.totalAmount * 100), cfg.currency, b.userId, r.turfName,
      (slot.startTime, slot.endTime)⟩

/-- The request has the name of the turf. -/
def Db.Names (db : Db) (r : IntentRequest) : Prop :=
  ∃ b, db.booking? r.bookingId = some b ∧ ∃ turf, db.turf? b.turfId = some turf ∧
    r.turfName = turf.name

/-- Stripe has taken the amount of the payment, which is the amount of its booking. -/
def Db.Pays (db : Db) (p : Payment) : Prop :=
  ∃ b, db.booking? p.bookingId = some b ∧ p.amount = b.totalAmount ∧
    0 < mathRound (b.totalAmount * 100)

/-- The booking that was read has its amount still. -/
def Db.Bills (cfg : Config) (db : Db) (d : BookingDetail) : Prop :=
  db.Asks cfg (intentRequest cfg d) ∧
    ∃ b, db.booking? d.booking.id = some b ∧ b.totalAmount = d.booking.totalAmount

section

variable {cfg : Config} {db db' : Db} {r r' : IntentRequest}

theorem Db.Asks.retains (h : db.Asks cfg r) (hdb : db.Retains db') : db'.Asks cfg r := by
  obtain ⟨b, hb, slot, hslot, hr⟩ := h
  obtain ⟨status, hb'⟩ := hdb.booking _ b hb
  obtain ⟨v, hslot'⟩ := hdb.slot _ slot hslot
  exact ⟨_, hb', _, hslot', hr⟩

theorem Db.Pays.retains {p : Payment} (h : db.Pays p) (hdb : db.Retains db') : db'.Pays p := by
  obtain ⟨b, hb, hp⟩ := h
  obtain ⟨status, hb'⟩ := hdb.booking _ b hb
  exact ⟨_, hb', hp⟩

theorem Db.Bills.retains {d : BookingDetail} (h : db.Bills cfg d) (hdb : db.Retains db') :
    db'.Bills cfg d := by
  obtain ⟨hasks, b, hb, hamount⟩ := h
  obtain ⟨status, hb'⟩ := hdb.booking _ b hb
  exact ⟨hasks.retains hdb, _, hb', hamount⟩

theorem Db.Names.retains (h : db.Names r) (hdb : db.Retains db') (hturfs : ∀ b turf,
      db.booking? r.bookingId = some b → db.turf? b.turfId = some turf →
      ∃ turf', db'.turf? b.turfId = some turf' ∧ turf'.name = turf.name) : db'.Names r := by
  obtain ⟨b, hb, turf, hturf, hr⟩ := h
  obtain ⟨status, hb'⟩ := hdb.booking _ b hb
  obtain ⟨turf', hturf', hname⟩ := hturfs b turf hb hturf
  exact ⟨_, hb', turf', hturf', hr.trans hname.symm⟩

/-- Requests for one booking that say what it says are the same. -/
theorem Db.Asks.eq (h : db.Asks cfg r) (h' : db.Asks cfg r') (hname : db.Names r)
    (hname' : db.Names r') (hid : r.bookingId = r'.bookingId) : r = r' := by
  obtain ⟨b, hb, slot, hslot, hr⟩ := h
  obtain ⟨b', hb', slot', hslot', hr'⟩ := h'
  obtain ⟨c, hc, turf, hturf, hn⟩ := hname
  obtain ⟨c', hc', turf', hturf', hn'⟩ := hname'
  rw [hid] at hb hc
  obtain rfl := Option.some.inj (hb.symm.trans hb')
  obtain rfl := Option.some.inj (hb.symm.trans hc)
  obtain rfl := Option.some.inj (hb.symm.trans hc')
  obtain rfl := Option.some.inj (hslot.symm.trans hslot')
  obtain rfl := Option.some.inj (hturf.symm.trans hturf')
  rw [hr, hr', hn, hn']

/-- A booking that has just been read. -/
theorem Db.bills_of_detail {d : BookingDetail} {id : BookingId} (h : db.bookingDetail? id = some d) :
    db.Bills cfg d ∧ db.Names (intentRequest cfg d) := by
  simp only [Db.bookingDetail?, Option.bind_eq_bind, Option.bind_eq_some_iff] at h
  obtain ⟨b, hb, turf, hturf, slot, hslot, hd⟩ := h
  obtain rfl := Option.some.inj hd
  have hb' : db.booking? b.id = some b := by rw [(Db.mem_of_booking? hb).2, hb]
  exact ⟨⟨⟨b, hb', slot, hslot, rfl⟩, b, hb', rfl⟩, b, hb', turf, hturf, rfl⟩

end

/-! ### What has been copied -/

/-- What the calls have read, what Stripe has been asked and what is stored say what the
bookings say. -/
structure Charged (cfg : Config) (seen : BookingDetail → Prop) (db : Db)
    (requests : List IntentRequest) : Prop where
  cents : ∀ b ∈ db.bookings, InCents b.totalAmount
  seen : ∀ d, seen d → db.Bills cfg d
  requests : ∀ r ∈ requests, db.Asks cfg r
  payments : ∀ p ∈ db.payments, db.Pays p

/-- A write that can be held back: no payment is inserted, and a booking in cents. -/
def Write.Proper : Write → Prop
  | .bookingInsert b => InCents b.totalAmount
  | .paymentInsert _ => False
  | _ => True

section

variable {cfg : Config} {seen seen' : BookingDetail → Prop} {db : Db}
  {requests : List IntentRequest} {x : Write}

theorem PaymentChange.set_amount (ch : PaymentChange) (p : Payment) : (ch.set p).amount = p.amount := by
  cases ch <;> rfl

theorem Charged.mono (h : Charged cfg seen db requests) (hseen : ∀ d, seen' d → seen d) :
    Charged cfg seen' db requests :=
  { h with seen := fun d hd => h.seen d (hseen d hd) }

theorem Charged.read (h : Charged cfg seen db requests) {d : BookingDetail} (hd : db.Bills cfg d) :
    Charged cfg (fun d' => seen d' ∨ d' = d) db requests :=
  { h with
    seen := by
      rintro d' (hd' | rfl)
      · exact h.seen d' hd'
      · exact hd }

theorem Charged.ask (h : Charged cfg seen db requests) {r : IntentRequest} (hr : db.Asks cfg r) :
    Charged cfg seen db (requests ++ [r]) :=
  { h with
    requests := by
      intro r' hr'
      rcases List.mem_append.mp hr' with hr' | hr'
      · exact h.requests r' hr'
      · rw [List.mem_singleton.mp hr']
        exact hr }

/-- A write of rows; a payment that is inserted pays its booking. -/
theorem Charged.apply (h : Charged cfg seen db requests)
    (hbooking : ∀ b, x = .bookingInsert b → InCents b.totalAmount)
    (hpayment : ∀ p, x = .paymentInsert p → db.Pays p) : Charged cfg seen (db.apply x) requests where
  cents := by
    intro b hb
    cases x with
    | bookingInsert b' =>
      rcases List.mem_append.mp hb with hb | hb
      · exact h.cents b hb
      · rw [List.mem_singleton.mp hb]
        exact hbooking b' rfl
    | bookingSet ids status =>
      obtain ⟨b', hb', rfl⟩ := Rows.mem_update.mp hb
      split_ifs
      · exact h.cents b' hb'
      · exact h.cents b' hb'
    | _ => exact h.cents b hb
  seen d hd := (h.seen d hd).retains (db.retains_apply x)
  requests r hr := (h.requests r hr).retains (db.retains_apply x)
  payments := by
    intro p hp
    cases x with
    | paymentInsert p' =>
      rcases List.mem_append.mp hp with hp | hp
      · exact (h.payments p hp).retains (db.retains_apply _)
      · rw [List.mem_singleton.mp hp]
        exact (hpayment p' rfl).retains (db.retains_apply _)
    | paymentSet ids change =>
      obtain ⟨p', hp', rfl⟩ := Rows.mem_update.mp hp
      refine Db.Pays.retains ?_ (db.retains_apply _)
      have hpays := h.payments p' hp'
      split_ifs
      · rw [Db.Pays, change.set_bookingId, change.set_amount]
        exact hpays
      · exact hpays
    | _ => exact (h.payments p hp).retains (db.retains_apply _)

theorem Charged.of_tables (h : Charged cfg seen db requests) {db' : Db}
    (hb : db'.bookings = db.bookings) (hs : db'.slots = db.slots) (hp : db'.payments = db.payments) :
    Charged cfg seen db' requests :=
  have hdb := Db.Retains.of_tables hb hs
  { cents := hb ▸ h.cents
    seen := fun d hd => (h.seen d hd).retains hdb
    requests := fun r hr => (h.requests r hr).retains hdb
    payments := fun p hm => (h.payments p (hp ▸ hm)).retains hdb }

theorem Charged.proper (h : Charged cfg seen db requests) (hx : x.Proper) :
    Charged cfg seen (db.apply x) requests :=
  h.apply (fun b hb => by subst hb; exact hx) fun p hp => by subst hp; exact hx.elim

theorem Charged.properAll (h : Charged cfg seen db requests) {ws : List Write}
    (hws : ∀ x ∈ ws, x.Proper) : Charged cfg seen (db.applyAll ws) requests := by
  induction ws generalizing db with
  | nil => exact h
  | cons x ws ih =>
    exact ih (h.proper (hws x List.mem_cons_self)) fun y hy => hws y (List.mem_cons_of_mem x hy)

end

/-! ### One statement -/

section

variable {cfg : Config} {g : Stage} {seen : BookingDetail → Prop} {s : Stmt} {view w : World}

/-- What is not one of the three statements asks for nothing and inserts no payment. -/
theorem act_ordinary (hs : s.ordinary = true) :
    (Stmt.act cfg s view w).world.db = w.db ∧
      (Stmt.act cfg s view w).world.out.intentRequests = w.out.intentRequests ∧
      ∀ x ∈ (Stmt.act cfg s view w).writes, x.Proper := by
  cases s with
  | query q => exact ⟨rfl, rfl, by simp [Stmt.act]⟩
  | lock l => exact ⟨rfl, rfl, by simp [Stmt.act]⟩
  | external x =>
    refine ⟨rfl, ?_, by simp [Stmt.act]⟩
    cases x with
    | createIntent r => cases hs
    | _ =>
      simp only [Stmt.act, External.eval]
      try split_ifs <;> rfl
  | update u =>
    refine ⟨rfl, rfl, fun x hx => ?_⟩
    have hputs := puts_of_mem hx
    cases u with
    | paymentUpsert id amount currency intent secret => cases hs
    | bookingCreate d =>
      obtain ⟨amount, rfl⟩ := hputs
      exact inCents_decimal2 _
    | bookingUpdateManyPending | paymentUpdateMany | couponUsageCreate =>
      obtain ⟨_, rfl⟩ := hputs
      trivial
    | _ =>
      obtain rfl := hputs
      trivial

theorem ordinary_of_other (hmay : (charging cfg).may .other (.stmt s)) : s.ordinary = true := by
  by_contra hs
  cases s with
  | query q => cases q <;> first | exact hs rfl | cases hmay
  | external x =>
    cases x with
    | createIntent r =>
      obtain ⟨d, hd, -⟩ := hmay
      cases hd
    | _ => exact hs rfl
  | update u =>
    cases u with
    | paymentUpsert id amount currency intent secret =>
      obtain ⟨d, h, hd, -⟩ := hmay
      cases hd
    | _ => exact hs rfl
  | lock l => exact hs rfl

/-- After the reading comes the request. -/
theorem eq_of_may_read {d : BookingDetail} {m : Cmd Stmt} (hmay : (charging cfg).may (.read d) m) :
    m = .stmt (.external (.createIntent (intentRequest cfg d))) := by
  cases m with
  | stmt s =>
    by_cases hs : s.ordinary = true
    · rcases (may_ordinary hs).mp hmay with h | h
      · cases h
      · cases h
    cases s with
    | query q => cases q <;> first | exact absurd rfl hs | cases hmay
    | external x =>
      cases x with
      | createIntent r =>
        obtain ⟨d', hd, rfl⟩ := hmay
        rw [Stage.read.inj hd]
      | _ => exact absurd rfl hs
    | update u =>
      cases u with
      | paymentUpsert id amount currency intent secret =>
        obtain ⟨d', h, hd, -⟩ := hmay
        cases hd
      | _ => exact absurd rfl hs
    | lock l => exact absurd rfl hs
  | _ =>
    rcases hmay with h | h
    · cases h
    · cases h

theorem charging_gated (cfg : Config) : (charging cfg).Gated (· ≠ .other) where
  init := nofun
  stays g m r hmay hnext := by
    cases m with
    | stmt s =>
      refine ⟨?_, s, rfl⟩
      rintro rfl
      exact hnext (next_ordinary (ordinary_of_other hmay) r)
    | _ => exact absurd rfl hnext

theorem charging_withholds (cfg : Config) {E : Engine Stmt Stmt.Reply Err Key Write World Call}
    (hE : E.act = Stmt.act cfg) : (charging cfg).Withholds E (· ≠ .other) Write.Proper := by
  intro g s hg hmay view w
  obtain rfl := not_not.mp hg
  rw [hE]
  exact (act_ordinary (ordinary_of_other hmay)).2.2

/-- A statement outside any transaction, by a call in the stage `g`. -/
inductive Copies (cfg : Config) (g next : Stage) (w w' : World) (ws : List Write) : Prop
  | reads (d : BookingDetail) (id : BookingId) (found : w.db.bookingDetail? id = some d)
      (stage : next = .read d) (writes : ws = [])
      (requests : w'.out.intentRequests = w.out.intentRequests)
  | asks (d : BookingDetail) (stage : g = .read d) (kept : ∀ d', next.detail? = some d' → d' = d)
      (writes : ws = [])
      (requests : w'.out.intentRequests = w.out.intentRequests ++ [intentRequest cfg d])
  | stores (d : BookingDetail) (h : 0 < mathRound (d.booking.totalAmount * 100))
      (stage : g = .taken d h) (last : next = .other) (x : Write) (writes : ws = [] ∨ ws = [x])
      (payment : x.Proper ∨ ∃ p, x = .paymentInsert p ∧ p.bookingId = d.booking.id ∧
        p.amount = d.booking.totalAmount)
      (requests : w'.out.intentRequests = w.out.intentRequests)
  | ordinary (last : next = .other) (writes : ∀ x ∈ ws, x.Proper)
      (requests : w'.out.intentRequests = w.out.intentRequests)

theorem act_db (cfg : Config) (s : Stmt) (view w : World) : (Stmt.act cfg s view w).world.db = w.db := by
  cases s <;> rfl

theorem copies_of_may (hmay : (charging cfg).may g (.stmt s)) : Copies cfg g
    ((charging cfg).next g (.stmt s) (Stmt.act cfg s w w).reply) w (Stmt.act cfg s w w).world
    (Stmt.act cfg s w w).writes := by
  by_cases hs : s.ordinary = true
  · obtain ⟨-, hrequests, hproper⟩ := @act_ordinary cfg s w w hs
    exact .ordinary (next_ordinary hs _) hproper hrequests
  cases s with
  | lock l => exact absurd rfl hs
  | query q =>
    cases q with
    | bookingDetail id =>
      cases hfound : w.db.bookingDetail? id with
      | none =>
        refine .ordinary ?_ (by simp [Stmt.act]) rfl
        simp only [Stmt.act, Query.eval, hfound]
        rfl
      | some d =>
        refine .reads d id hfound ?_ rfl rfl
        simp only [Stmt.act, Query.eval, hfound]
        rfl
    | _ => exact absurd rfl hs
  | external x =>
    cases x with
    | createIntent r =>
      obtain ⟨d, rfl, rfl⟩ := hmay
      refine .asks d rfl (fun d' hd' => ?_) rfl rfl
      cases hreply : (Stmt.act cfg (.external (.createIntent (intentRequest cfg d))) w w).reply with
      | error e =>
        rw [hreply] at hd'
        cases hd'
      | ok intent =>
        rw [hreply] at hd'
        simp only [charging] at hd'
        split_ifs at hd'
        · exact (Option.some.inj hd').symm
        · cases hd'
    | _ => exact absurd rfl hs
  | update u =>
    cases u with
    | paymentUpsert id amount currency intent secret =>
      obtain ⟨d, h, rfl, rfl, rfl⟩ := hmay
      simp only [Stmt.act, Update.plan]
      split_ifs
      · exact .stores d h rfl rfl (.couponIncrement 0) (.inl rfl) (.inl trivial) rfl
      · split
        · exact .stores d h rfl rfl _ (.inr rfl) (.inl trivial) rfl
        · exact .stores d h rfl rfl (.couponIncrement 0) (.inl rfl) (.inl trivial) rfl
      · split
        · exact .stores d h rfl rfl _ (.inr rfl) (.inl trivial) rfl
        · exact .stores d h rfl rfl _ (.inr rfl) (.inr ⟨_, rfl, rfl, rfl⟩) rfl
    | _ => exact absurd rfl hs

/-- What a statement of a call leaves, if it commits by itself. -/
theorem Charged.copies {w' : World} {ws : List Write} {next : Stage}
    (h : Charged cfg seen w.db w.out.intentRequests) (hg : ∀ d, g.detail? = some d → seen d)
    (hdb : w'.db = w.db) (hc : Copies cfg g next w w' ws) :
    Charged cfg (fun d => seen d ∨ next.detail? = some d) (w'.db.applyAll ws) w'.out.intentRequests := by
  rw [hdb]
  cases hc with
  | reads d id found stage writes requests =>
    subst writes stage
    rw [requests]
    refine (h.read (Db.bills_of_detail found).1).mono fun d' hd' => hd'.imp_right fun he => ?_
    exact (Option.some.inj he).symm
  | asks d stage kept writes requests =>
    subst writes stage
    rw [requests]
    refine (h.ask (h.seen d (hg d rfl)).1).mono fun d' hd' => hd'.elim id fun he => ?_
    exact kept d' he ▸ hg d rfl
  | stores d hd stage last x writes payment requests =>
    subst stage last
    rw [requests]
    have hmono : ∀ {db : Db}, Charged cfg seen db w.out.intentRequests →
        Charged cfg (fun d => seen d ∨ Stage.other.detail? = some d) db w.out.intentRequests :=
      fun h => h.mono fun d' hd' => hd'.elim id fun he => nomatch he
    rcases writes with rfl | rfl
    · exact hmono h
    · refine hmono ?_
      rcases payment with hx | ⟨p, rfl, hid, hamount⟩
      · exact h.proper hx
      · show Charged cfg seen (w.db.apply (.paymentInsert p)) w.out.intentRequests
        refine h.apply (fun _ hb => by cases hb) fun p' hp' => ?_
        obtain rfl := Write.paymentInsert.inj hp'
        obtain ⟨-, b, hb, hb'⟩ := h.seen d (hg d rfl)
        exact ⟨b, hid ▸ hb, hamount.trans hb'.symm, hb' ▸ hd⟩
  | ordinary last writes requests =>
    subst last
    rw [requests]
    exact (h.properAll writes).mono fun d' hd' => hd'.elim id fun he => nomatch he

end

/-! ### The names of the turfs -/

theorem Db.Retains.trans {db₁ db₂ db₃ : Db} (h : db₁.Retains db₂) (h' : db₂.Retains db₃) :
    db₁.Retains db₃ where
  booking id b hb := by
    obtain ⟨status, hb₂⟩ := h.booking id b hb
    exact h'.booking id { b with status := status } hb₂
  slot id s hs := by
    obtain ⟨v, hs₂⟩ := h.slot id s hs
    exact h'.slot id { s with isBooked := v } hs₂

theorem Db.retains_applyAll (db : Db) (ws : List Write) : db.Retains (db.applyAll ws) := by
  induction ws generalizing db with
  | nil => exact .refl db
  | cons x ws ih => exact (db.retains_apply x).trans (ih _)

theorem Db.turfs_applyAll (db : Db) (ws : List Write) : (db.applyAll ws).turfs = db.turfs := by
  induction ws generalizing db with
  | nil => rfl
  | cons x ws ih => exact (ih _).trans (turfs_apply x)

/-- What is about to be sent and what has been sent has the name of the turf. -/
structure Named (cfg : Config) (seen : BookingDetail → Prop) (db : Db)
    (requests : List IntentRequest) : Prop where
  seen : ∀ d, seen d → db.Names (intentRequest cfg d)
  requests : ∀ r ∈ requests, db.Names r

section

variable {cfg : Config} {g : Stage} {seen seen' : BookingDetail → Prop} {db db' : Db}
  {requests : List IntentRequest} {w : World}

theorem Named.mono (h : Named cfg seen db requests) (hseen : ∀ d, seen' d → seen d) :
    Named cfg seen' db requests :=
  { h with seen := fun d hd => h.seen d (hseen d hd) }

theorem Named.retains (h : Named cfg seen db requests) (hdb : db.Retains db')
    (hturfs : db'.turfs = db.turfs) : Named cfg seen db' requests := by
  have hkept : ∀ r, db.Names r → db'.Names r := fun r hr => hr.retains hdb fun b turf _ hturf =>
    ⟨turf, by rw [Db.turf?, hturfs]; exact hturf, rfl⟩
  exact ⟨fun d hd => hkept _ (h.seen d hd), fun r hr => hkept r (h.requests r hr)⟩

theorem Named.applyAll (h : Named cfg seen db requests) (ws : List Write) :
    Named cfg seen (db.applyAll ws) requests :=
  h.retains (db.retains_applyAll ws) (db.turfs_applyAll ws)

theorem Named.copies {w' : World} {ws : List Write} {next : Stage}
    (h : Named cfg seen w.db w.out.intentRequests) (hg : ∀ d, g = .read d → seen d)
    (hdb : w'.db = w.db) (hc : Copies cfg g next w w' ws) :
    Named cfg (fun d => seen d ∨ next = .read d) (w'.db.applyAll ws) w'.out.intentRequests := by
  rw [hdb]
  cases hc with
  | reads d id found stage writes requests =>
    subst writes stage
    rw [requests]
    refine ⟨fun d' hd' => ?_, h.requests⟩
    rcases hd' with hd' | hd'
    · exact h.seen d' hd'
    · obtain rfl := Stage.read.inj hd'
      exact (Db.bills_of_detail found).2
  | asks d stage kept writes requests =>
    subst writes stage
    rw [requests]
    have hd := h.seen d (hg d rfl)
    refine ⟨fun d' hd' => ?_, fun r hr => ?_⟩
    · rcases hd' with hd' | rfl
      · exact h.seen d' hd'
      · rw [kept d' rfl]
        exact hd
    · rcases List.mem_append.mp hr with hr | hr
      · exact h.requests r hr
      · rw [List.mem_singleton.mp hr]
        exact hd
  | stores d hd stage last x writes payment requests =>
    subst last
    rw [requests]
    exact (h.applyAll ws).mono fun d' hd' => hd'.elim id fun he => by cases he
  | ordinary last writes requests =>
    subst last
    rw [requests]
    exact (h.applyAll ws).mono fun d' hd' => hd'.elim id fun he => by cases he

end

/-! ### The booking services -/

theorem act_answers (cfg : Config) (s : Stmt) (view w : World) :
    (charging cfg).answers (.stmt s) (Stmt.act cfg s view w).reply := by
  cases s with
  | query q =>
    cases q with
    | bookingDetail id =>
      cases hfound : view.db.bookingDetail? id with
      | none =>
        simp only [Stmt.act, Query.eval, hfound]
        trivial
      | some d =>
        simp only [Stmt.act, Query.eval, hfound]
        simp only [Db.bookingDetail?, Option.bind_eq_bind, Option.bind_eq_some_iff] at hfound
        obtain ⟨b, hb, turf, hturf, slot, hslot, hd⟩ := hfound
        obtain rfl := Option.some.inj hd
        exact (Db.mem_of_booking? hb).2
    | _ => trivial
  | external x =>
    cases x with
    | createIntent r =>
      simp only [Stmt.act, External.eval]
      split_ifs with h
      · exact h.1
      · trivial
    | _ => trivial
  | update u => trivial
  | lock l => trivial

theorem charging_answered (cfg : Config) : (charging cfg).Answered (engine cfg) where
  exec l w m := by
    cases m with
    | stmt s => exact Engine.exec_reply (fun view => act_answers cfg s view w) l
    | _ => trivial
  fault m := by
    cases m with
    | stmt s =>
      cases s with
      | query q => cases q <;> trivial
      | external x => cases x <;> trivial
      | update u => trivial
      | lock l => trivial
    | _ => trivial

/-- What does not get an answer leads nowhere. -/
theorem next_error {cfg : Config} (g : Stage) (m : Cmd Stmt) (e : Err) :
    (charging cfg).next g m (.error e) = .other := by
  cases m with
  | stmt s =>
    cases s with
    | query q => cases q <;> rfl
    | external x => cases x <;> rfl
    | update u => rfl
    | lock l => rfl
  | _ => rfl

theorem next_bracket {cfg : Config} (g : Stage) {m : Cmd Stmt} (hm : ∀ s, m ≠ .stmt s)
    (r : Except Err (m.Reply Stmt.Reply)) : (charging cfg).next g m r = .other := by
  cases m with
  | stmt s => exact absurd rfl (hm s)
  | _ => rfl

/-- What the sessions, in their stages, have read and will use. -/
structure Charging (cfg : Config) (g : ℕ → Stage) (db : Db) (requests : List IntentRequest) : Prop where
  charged : Charged cfg (fun d => ∃ i, (g i).detail? = some d) db requests
  named : Named cfg (fun d => ∃ i, g i = .read d) db requests

section

variable {cfg : Config} {g : ℕ → Stage} {i : ℕ} {next : Stage} {db : Db}
  {requests : List IntentRequest} {w : World} {s : Stmt}

/-- Session `i` moves to the stage `next`. -/
theorem Charged.moved (h : Charged cfg
      (fun d => (∃ j, (g j).detail? = some d) ∨ next.detail? = some d) db requests) :
    Charged cfg (fun d => ∃ j, (Function.update g i next j).detail? = some d) db requests := by
  refine h.mono ?_
  rintro d ⟨j, hj⟩
  by_cases hji : j = i
  · subst hji
    rw [Function.update_self] at hj
    exact .inr hj
  · rw [Function.update_of_ne hji] at hj
    exact .inl ⟨j, hj⟩

theorem Named.moved (h : Named cfg (fun d => (∃ j, g j = .read d) ∨ next = .read d) db requests) :
    Named cfg (fun d => ∃ j, Function.update g i next j = .read d) db requests := by
  refine h.mono ?_
  rintro d ⟨j, hj⟩
  by_cases hji : j = i
  · subst hji
    rw [Function.update_self] at hj
    exact .inr hj
  · rw [Function.update_of_ne hji] at hj
    exact .inl ⟨j, hj⟩

theorem Charging.over (h : Charging cfg g db requests) :
    Charging cfg (Function.update g i .other) db requests where
  charged := Charged.moved (h.charged.mono fun _ hd => hd.elim id fun he => by cases he)
  named := Named.moved (h.named.mono fun _ hd => hd.elim id fun he => by cases he)

theorem Charging.applyAll (h : Charging cfg g db requests) {ws : List Write}
    (hws : ∀ x ∈ ws, x.Proper) : Charging cfg g (db.applyAll ws) requests :=
  ⟨h.charged.properAll hws, h.named.applyAll ws⟩

/-- A statement outside any transaction. -/
theorem Charging.acts (h : Charging cfg g w.db w.out.intentRequests)
    (hmay : (charging cfg).may (g i) (.stmt s)) : Charging cfg
      (Function.update g i ((charging cfg).next (g i) (.stmt s) (Stmt.act cfg s w w).reply))
      (w.db.applyAll (Stmt.act cfg s w w).writes) (Stmt.act cfg s w w).world.out.intentRequests := by
  have hdb := act_db cfg s w w
  have hc := copies_of_may hmay (w := w)
  have hcharged := (h.charged.copies (fun d hd => ⟨i, hd⟩) hdb hc).moved (i := i)
  have hnamed := (h.named.copies (fun d hd => ⟨i, hd⟩) hdb hc).moved (i := i)
  rw [hdb] at hcharged hnamed
  exact ⟨hcharged, hnamed⟩

/-- The sessions of the booking services. -/
abbrev Charger (cfg : Config) (g : ℕ → Stage) (t : Sys) : Prop :=
  Buffering (charging cfg) (fun _ _ => True) (· ≠ .other) Write.Proper g t

theorem Charging.step {t : Sys} {a : Act} (h : Charging cfg g t.world.db t.world.out.intentRequests)
    (ht : Traced (service cfg) (charging cfg) (fun _ _ => True) (· ≠ .other) Write.Proper g t a) :
    ∃ g', Charger cfg g' ((service cfg).step t a) ∧ Charging cfg g' ((service cfg).step t a).world.db
      ((service cfg).step t a).world.out.intentRequests := by
  cases ht with
  | rests idle world sessions buffering =>
    refine ⟨g, buffering, ?_⟩
    rcases world with hw | ⟨v, hw⟩
    · rwa [hw]
    · rw [hw]
      cases v <;> exact h
  | acts i u st k action thread prog may committed all world others buffering =>
    refine ⟨_, buffering, ?_⟩
    have hacts := h.acts may
    rw [world]
    split_ifs with hws
    · rw [show (service cfg).act st t.world t.world = Stmt.act cfg st t.world t.world from rfl] at hws ⊢
      rw [hws] at hacts
      rwa [act_db]
    · have hcommit : ((service cfg).commit u.session (Stmt.act cfg st t.world t.world).writes
          (Stmt.act cfg st t.world t.world).world).db =
            t.world.db.applyAll (Stmt.act cfg st t.world t.world).writes := by
        rw [← act_db cfg st t.world t.world]
        rfl
      rw [← hcommit] at hacts
      exact hacts
  | holds i u st view thread inside may idle world others buffering =>
    refine ⟨_, buffering, ?_⟩
    have hg := not_not.mp inside
    rw [hg] at may
    have hs := ordinary_of_other may
    obtain ⟨hdb, hrequests, -⟩ := @act_ordinary cfg st view t.world hs
    rw [world, next_ordinary hs]
    have hover := h.over (i := i)
    rw [← hdb, ← hrequests] at hover
    exact hover
  | commits i u ws thread may committed held world others buffering =>
    refine ⟨_, buffering, ?_⟩
    rw [world]
    exact (h.applyAll held).over
  | moves i u m r thread prog may cause idle world others buffering =>
    refine ⟨_, buffering, ?_⟩
    rw [world]
    have hnext : (charging cfg).next (g i) m r = .other := by
      rcases cause with hm | rfl
      · exact next_bracket _ hm r
      · exact next_error _ _ _
    rw [hnext]
    exact h.over

end

/-- Nothing has been charged and nothing has been asked. -/
theorem Db.Fresh.charging {cfg : Config} {db : Db} {requests : List IntentRequest} (h : db.Fresh)
    (hr : requests = []) : Charging cfg (fun _ => .fresh) db requests := by
  subst hr
  have hfresh : ∀ d, ¬ ∃ _ : ℕ, Stage.fresh.detail? = some d := by
    rintro d ⟨_, hd⟩
    cases hd
  have hread : ∀ d, ¬ ∃ _ : ℕ, Stage.fresh = .read d := by
    rintro d ⟨_, hd⟩
    cases hd
  exact {
    charged := {
      cents := by simp [h.bookings]
      seen := fun d hd => absurd hd (hfresh d)
      requests := by simp
      payments := by simp [h.payments] }
    named := {
      seen := fun d hd => absurd hd (hread d)
      requests := by simp } }

/-- Along every run without edits of turfs, what has been asked and what is stored says
what the bookings say. -/
theorem charging_always {cfg : Config} {s : Sys} {as : List Act} (hs : s.Fresh)
    (hr : s.world.out.intentRequests = []) : (service cfg).Always (fun t => ∃ g,
      Charger cfg g t ∧ Charging cfg g t.world.db t.world.out.intentRequests) s as :=
  Service.always_buffering (charging_answered cfg) (body_obeys_charging cfg) (charging_gated cfg)
    (charging_withholds cfg rfl) (M := fun _ _ => True) (fun _ _ _ _ h _ ht => h.step ht) hs.threads
    (hs.db.charging hr) (Service.each_of_forall (fun _ _ => trivial) s as)

end TurfSync
