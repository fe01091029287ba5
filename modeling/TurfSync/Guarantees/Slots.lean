import TurfSync.Protocol.Runs

/-! The flag `isBooked` of a slot against the bookings on the slot. With one booking for
each slot, the flag tells whether the booking is live, except where a completion is
written to a booking that has been cancelled since it was read. Without the unique
index, the row locks exclude two active bookings on a slot, except where a refund
releases the slot after somebody else took it: unlike the other transactions it reads
the active bookings before it locks the slot. -/

namespace TurfSync

open Txn

/-! ### A small world

One turf, two slots five days ahead, and a coupon that can be used once. Event 1
reports the payment of booking 101 as succeeded, event 2 as failed, and every other
event as processing. -/

namespace Arena

def turf : Turf where
  id := 1
  name := "Arena"
  description := "Seven a side"
  address := "Road"
  city := "Dhaka"
  sportType := .FOOTBALL
  pricePerHour := 1000
  openTime := ⟨18, 0⟩
  closeTime := ⟨20, 0⟩
  rating := 0
  isActive := true
  images := []
  createdAt := 0
  updatedAt := 0

def slot (id : SlotId) : Slot where
  id := id
  turfId := 1
  date := 5 * dayMs
  startTime := ⟨17 + id, 0⟩
  endTime := ⟨18 + id, 0⟩
  isBooked := false

def coupon : Coupon where
  id := 1
  code := "TEN"
  discountType := .PERCENTAGE
  discountValue := 10
  minOrderAmount := 0
  maxDiscountAmount := 0
  usageLimit := some 1
  usedCount := 0
  userUsageLimit := 1
  validFrom := 0
  validUntil := 10 * dayMs
  isActive := true

def db : Db where
  turfs := [turf]
  slots := [slot 1, slot 2]
  bookings := []
  payments := []
  webhookEvents := []
  coupons := [coupon]
  couponUsages := []
  auditLogs := []

def sys : Sys := ⟨⟨db, ⟨0, 100, fun _ => none, [], [], [], []⟩, []⟩, []⟩

def cfg (slotIdUnique : Bool) : Config where
  slotIdUnique := slotIdUnique
  currency := "usd"
  toUpperCase := id
  event id := ⟨if id = 1 then .succeeded else if id = 2 then .payment_failed else .processing,
    ⟨101⟩, none, none⟩

def dto (slotId : SlotId) (couponCode : Option String) : CreateBookingDto :=
  ⟨1, slotId, some (5 * dayMs), none, couponCode⟩

/-- Call `i` arrives and executes `n` statements. -/
def first (i : ℕ) (c : Call) (n : ℕ) : List Act := .spawn c :: List.replicate n (.run i)

theorem fresh : sys.Fresh where
  threads := rfl
  history := rfl
  db := {
    slots := by decide
    free := by decide
    bookings := rfl
    payments := rfl
    webhookEvents := rfl
    couponUsages := rfl
    coupons := by decide
    codes := by decide
    unused := by decide
    limits := by decide }

/-- User 7 books slot 1 and pays. -/
def sold : List Act :=
  first 0 (.create (dto 1 none) 7 0) 20 ++ first 1 (.createPaymentIntent 101 7) 5 ++
    first 2 (.handleWebhook (some 1)) 12

end Arena

namespace Db

variable {cfg : Config} {db : Db} {ids : List BookingId} {freed : List SlotId}
  {status : BookingStatus} {b : Booking}

/-! ### The flag tells whether a booking is live -/

/-- Some booking on the slot is not CANCELLED. -/
def Taken (db : Db) (id : SlotId) : Prop :=
  ∃ b ∈ db.bookings, b.slotId = id ∧ b.status ≠ .CANCELLED

instance (db : Db) (id : SlotId) : Decidable (db.Taken id) :=
  inferInstanceAs (Decidable (∃ b ∈ db.bookings, _))

/-- `isBooked` says which slots are taken. -/
def Agree (db : Db) : Prop := ∀ s ∈ db.slots, s.isBooked = true ↔ db.Taken s.id

instance (db : Db) : Decidable db.Agree := inferInstanceAs (Decidable (∀ s ∈ db.slots, _))

theorem Agree.book (h : db.Agree) (hb : b.status = .PENDING) :
    (db.applyAll [.slotSet [b.slotId] true, .bookingInsert b]).Agree := by
  intro s' hs'
  obtain ⟨s, hs, rfl⟩ := Rows.mem_update.mp hs'
  have hid : (if s.id ∈ [b.slotId] then { s with isBooked := true } else s).id = s.id := by
    split_ifs <;> rfl
  rw [hid]
  by_cases hslot : s.id = b.slotId
  · have htaken : (db.applyAll [.slotSet [b.slotId] true, .bookingInsert b]).Taken s.id :=
      ⟨b, List.mem_append_right _ (List.mem_singleton.mpr rfl), hslot.symm, by simp [hb]⟩
    rw [if_pos (by simpa using hslot)]
    exact ⟨fun _ => htaken, fun _ => rfl⟩
  · rw [if_neg (by simpa using hslot), h s hs]
    constructor
    · rintro ⟨b', hb', he, hc⟩
      exact ⟨b', List.mem_append_left _ hb', he, hc⟩
    · rintro ⟨b', hb', he, hc⟩
      rcases List.mem_append.mp hb' with hb' | hb'
      · exact ⟨b', hb', he, hc⟩
      · rw [List.mem_singleton.mp hb'] at he
        exact absurd he.symm hslot

/-- With one booking for each slot, every slot that is vacated is freed. -/
theorem Vacates.all (h : db.Vacates ids freed) (hv : db.Valid cfg) (hu : cfg.slotIdUnique = true) :
    ∀ b ∈ db.bookings, b.id ∈ ids → b.slotId ∈ freed := by
  intro b hb hid
  by_contra hs
  obtain ⟨b', hb', he, hid'⟩ := h.shared b hb hid hs
  rw [hv.eq_of_slotId hu hb hb' he] at hid'
  exact hid' hid

/-- With one booking for each slot, cancelling some bookings and freeing their slots. -/
theorem Agree.vacate (hv : db.Valid cfg) (hu : cfg.slotIdUnique = true) (h : db.Agree)
    (hfreed : ∀ s ∈ freed, ∃ b ∈ db.bookings, b.id ∈ ids ∧ b.slotId = s)
    (hall : ∀ b ∈ db.bookings, b.id ∈ ids → b.slotId ∈ freed) :
    (db.applyAll (.bookingSet ids .CANCELLED :: release freed)).Agree := by
  have htaken : ∀ id, (db.applyAll (.bookingSet ids .CANCELLED :: release freed)).Taken id ↔
      db.Taken id ∧ id ∉ freed := by
    intro id
    simp only [Taken, applyAll_cons, bookings_release]
    constructor
    · rintro ⟨b', hb', he, hc⟩
      obtain ⟨b, hb, rfl⟩ := Rows.mem_update.mp hb'
      by_cases hid : b.id ∈ ids
      · simp [hid] at hc
      · rw [if_neg hid] at he hc
        refine ⟨⟨b, hb, he, hc⟩, fun hm => ?_⟩
        obtain ⟨b₀, hb₀, hid₀, he₀⟩ := hfreed id hm
        rw [hv.eq_of_slotId hu hb hb₀ (he₀.trans he.symm)] at hid₀
        exact hid hid₀
    · rintro ⟨⟨b, hb, he, hc⟩, hm⟩
      have hid : b.id ∉ ids := fun hid => hm (he ▸ hall b hb hid)
      exact ⟨b, Rows.mem_update.mpr ⟨b, hb, (if_neg hid).symm⟩, he, hc⟩
  intro s' hs'
  simp only [applyAll_cons, slots_release] at hs'
  obtain ⟨s, hs, rfl⟩ := Rows.mem_update.mp hs'
  rw [htaken]
  split_ifs with hm
  · simp [hm]
  · simp [hm, h s hs]

/-- A live booking stays live. -/
theorem Agree.restatus (h : db.Agree) (hst : status ≠ .CANCELLED)
    (hlive : ∀ b ∈ db.bookings, b.id ∈ ids → b.status ≠ .CANCELLED) :
    (db.apply (.bookingSet ids status)).Agree := by
  intro s hs
  rw [h s hs]
  constructor
  · rintro ⟨b, hb, he, hc⟩
    refine ⟨_, Rows.mem_update.mpr ⟨b, hb, rfl⟩, ?_⟩
    split_ifs
    · exact ⟨he, hst⟩
    · exact ⟨he, hc⟩
  · rintro ⟨b', hb', he, hc⟩
    obtain ⟨b, hb, rfl⟩ := Rows.mem_update.mp hb'
    split_ifs at he hc with hid
    · exact ⟨b, hb, he, hlive b hb hid⟩
    · exact ⟨b, hb, he, hc⟩

end Db

/-- No completion is written to a booking that is CANCELLED by then. -/
def CompletesLive (_ : Call) (ws : List Write) (db : Db) : Prop :=
  ∀ b ∈ db.bookings, ws = [.bookingSet [b.id] .COMPLETED] → b.status ≠ .CANCELLED

instance (c : Call) (ws : List Write) (db : Db) : Decidable (CompletesLive c ws db) :=
  inferInstanceAs (Decidable (∀ b ∈ db.bookings, _))

namespace Commits

variable {cfg : Config} {c : Session Call} {w : World} {ws : List Write}

theorem agree (hu : cfg.slotIdUnique = true) (hv : w.db.Valid cfg) (h : w.db.Agree)
    (hc : Commits cfg c w ws) (hlive : CompletesLive c.call ws w.db) :
    (w.db.applyAll ws).Agree := by
  cases hc with
  | book _ _ _ hstatus => exact h.book hstatus
  | cancel _ _ _ hvac => exact h.vacate hv hu hvac.slots (hvac.all hv hu)
  | cleanup _ _ hvac => exact h.vacate hv hu hvac.slots (hvac.all hv hu)
  | @refund _ p b freed _ _ _ hb hslots hshared =>
    have hpay : (w.db.apply (.paymentSet [p.id] .refunded)).Valid cfg :=
      Write.Fits.valid (x := .paymentSet [p.id] .refunded) hv fun _ _ _ => rfl
    obtain rfl : freed = [b.slotId] := by
      rcases hslots with rfl | hfreed
      · obtain ⟨b', hb', he, hne⟩ := hshared rfl
        exact absurd (congrArg (·.id) (hv.eq_of_slotId hu hb hb' he)) hne
      · exact hfreed
    refine Db.Agree.vacate hpay hu h (fun s hs => ?_) fun b' hb' hid => ?_
    · exact ⟨b, hb, by simp, (List.mem_singleton.mp hs).symm⟩
    · rw [Rows.eq_of_key hv.bookings hb' hb (List.mem_singleton.mp hid)]
      exact List.mem_singleton.mpr rfl
  | @succeeded id p b charge time _ _ _ _ _ hb _ =>
    have h' : ((w.db.apply (.eventInsert id)).apply (.paymentSet [p.id] (.paid charge time))).Agree :=
      h
    by_cases hp : b.status = .PENDING
    · rw [if_pos hp]
      refine h'.restatus (by simp) fun b' hb' hid => ?_
      rw [Rows.eq_of_key hv.bookings hb' hb (List.mem_singleton.mp hid), hp]
      simp
    · rw [if_neg hp]
      exact h
  | @complete b _ hb _ =>
    refine h.restatus (by simp) fun b' hb' hid => ?_
    rw [Rows.eq_of_key hv.bookings hb' hb (List.mem_singleton.mp hid)]
    exact hlive b hb rfl
  | _ => exact h

theorem completesLive (hu : cfg.slotIdUnique = true) (hv : w.db.Valid cfg) (h : w.db.Agree)
    (h' : (w.db.applyAll ws).Agree) : CompletesLive c.call ws w.db := by
  rintro b hb rfl hcancelled
  obtain ⟨s, hs, he⟩ := hv.bookingSlot b hb
  have hfree : ¬ w.db.Taken s.id := by
    rintro ⟨b', hb', he', hc'⟩
    rw [hv.eq_of_slotId hu hb hb' (he'.trans he)] at hc'
    exact hc' hcancelled
  have htaken : (w.db.applyAll [.bookingSet [b.id] .COMPLETED]).Taken s.id :=
    ⟨_, Rows.mem_update.mpr ⟨b, hb, rfl⟩, by simp [he], by simp⟩
  exact hfree ((h s hs).mp ((h' s hs).mpr htaken))

end Commits

/-- The flags agree with the bookings along a run if and only if no completion comes
too late. -/
theorem agree_iff {cfg : Config} {s : Sys} {as : List Act} (hu : cfg.slotIdUnique = true)
    (hs : s.Fresh) :
    (service cfg).Always (fun t => t.world.db.Agree) s as ↔
      (service cfg).Each (OnCommit cfg CompletesLive) s as := by
  have hinit : s.world.db.Agree := by
    intro slot hslot
    simp [Db.Taken, hs.db.bookings, hs.db.free slot hslot]
  refine always_iff_commits hs.initial stable_true trivial (I := Db.Agree) hinit
    fun hw _ h hc => ?_
  exact ⟨fun h' => Commits.completesLive hu hw.valid h h', hc.agree hu hw.valid h⟩

theorem agree_iff_sold :
    (service (Arena.cfg true)).Always (fun t => t.world.db.Agree) Arena.sys Arena.sold :=
  (agree_iff rfl Arena.fresh).mpr (by decide +kernel)

/-- The owner cancels between the read and the write of `completeBooking`: the booking
ends COMPLETED on a free slot. -/
theorem agree_fails :
    let t := (service (Arena.cfg true)).run Arena.sys (Arena.sold ++
      Arena.first 3 (.completeBooking 101 1) 1 ++ Arena.first 4 (.cancel 101 7) 12 ++
      List.replicate 2 (.run 3))
    t.Quiet ∧ ¬ t.world.db.Agree := by
  decide +kernel

/-! ### At most one active booking on a slot

The unique index is not used here. -/

namespace Db

variable {cfg : Config} {db : Db} {ids : List BookingId} {freed : List SlotId}
  {status : BookingStatus} {b : Booking}

/-- No slot has two PENDING or CONFIRMED bookings. -/
def Exclusive (db : Db) : Prop :=
  ∀ b ∈ db.bookings, ∀ b' ∈ db.bookings, b.Active → b'.Active → b'.slotId = b.slotId → b' = b

instance (db : Db) : Decidable db.Exclusive :=
  inferInstanceAs (Decidable (∀ b ∈ db.bookings, ∀ b' ∈ db.bookings, _))

/-- What the locks protect: a slot with an active booking has its flag set. -/
structure Guarded (db : Db) : Prop where
  exclusive : db.Exclusive
  flag : ∀ b ∈ db.bookings, b.Active → ∀ s ∈ db.slots, s.id = b.slotId → s.isBooked = true

/-- A free slot has no active booking, so it can take one. -/
theorem Guarded.book (h : db.Guarded) {slot : Slot} (hslot : db.slot? b.slotId = some slot)
    (hfree : slot.isBooked = false) :
    (db.applyAll [.slotSet [b.slotId] true, .bookingInsert b]).Guarded := by
  have hnone : ∀ b' ∈ db.bookings, b'.Active → b'.slotId ≠ b.slotId := by
    intro b' hb' ha he
    obtain ⟨hm, hid⟩ := mem_of_slot? hslot
    have htrue := h.flag b' hb' ha slot hm (hid.trans he.symm)
    rw [hfree] at htrue
    cases htrue
  constructor
  · intro b₁ hb₁ b₂ hb₂ h₁ h₂ he
    rcases List.mem_append.mp hb₁ with hb₁ | hb₁
    · rcases List.mem_append.mp hb₂ with hb₂ | hb₂
      · exact h.exclusive b₁ hb₁ b₂ hb₂ h₁ h₂ he
      · rw [List.mem_singleton.mp hb₂] at he
        exact absurd he.symm (hnone b₁ hb₁ h₁)
    · rw [List.mem_singleton.mp hb₁] at he ⊢
      rcases List.mem_append.mp hb₂ with hb₂ | hb₂
      · exact absurd he (hnone b₂ hb₂ h₂)
      · exact List.mem_singleton.mp hb₂
  · intro b' hb' ha s' hs' he
    obtain ⟨s, hs, rfl⟩ := Rows.mem_update.mp hs'
    by_cases hid : s.id ∈ [b.slotId]
    · rw [if_pos hid]
    · rw [if_neg hid] at he ⊢
      rcases List.mem_append.mp hb' with hb' | hb'
      · exact h.flag b' hb' ha s hs he
      · rw [List.mem_singleton.mp hb'] at he
        exact absurd (List.mem_singleton.mpr he) hid

/-- Bookings that were active before change among active statuses, or stop being
active; the slots that are freed have no active booking left. -/
theorem Guarded.restatus (h : db.Guarded) (freed : List SlotId)
    (hactive : (status = .PENDING ∨ status = .CONFIRMED) →
      ∀ b ∈ db.bookings, b.id ∈ ids → b.Active)
    (hfreed : ∀ s ∈ freed, ∀ b ∈ db.bookings, b.slotId = s → b.Active → b.id ∈ ids)
    (hst : freed ≠ [] → status = .CANCELLED) :
    (db.applyAll (.bookingSet ids status :: release freed)).Guarded := by
  have hback : ∀ b' ∈ (db.applyAll (.bookingSet ids status :: release freed)).bookings,
      b'.Active → ∃ b ∈ db.bookings, b.Active ∧
        b' = (if b.id ∈ ids then { b with status := status } else b) := by
    intro b' hb' ha
    simp only [applyAll_cons, bookings_release] at hb'
    obtain ⟨b, hb, rfl⟩ := Rows.mem_update.mp hb'
    refine ⟨b, hb, ?_, rfl⟩
    by_cases hid : b.id ∈ ids
    · rw [if_pos hid] at ha
      exact hactive ha b hb hid
    · rw [if_neg hid] at ha
      exact ha
  have hslot : ∀ b : Booking, (if b.id ∈ ids then { b with status := status } else b).slotId =
      b.slotId := by
    intro b
    split_ifs <;> rfl
  constructor
  · intro b₁ hb₁ b₂ hb₂ h₁ h₂ he
    obtain ⟨b, hb, ha, rfl⟩ := hback b₁ hb₁ h₁
    obtain ⟨b', hb', ha', rfl⟩ := hback b₂ hb₂ h₂
    rw [hslot, hslot] at he
    rw [h.exclusive b hb b' hb' ha ha' he]
  · intro b₁ hb₁ h₁ s' hs' he
    obtain ⟨b, hb, ha, rfl⟩ := hback b₁ hb₁ h₁
    simp only [applyAll_cons, slots_release] at hs'
    obtain ⟨s, hs, rfl⟩ := Rows.mem_update.mp hs'
    rw [hslot] at he
    by_cases hm : s.id ∈ freed
    · -- a booking on a freed slot is one of those cancelled
      rw [if_pos hm] at he
      have hid := hfreed s.id hm b hb he.symm ha
      rw [if_pos hid, hst (List.ne_nil_of_mem hm)] at h₁
      rcases h₁ with h₁ | h₁ <;> cases h₁
    · rw [if_neg hm] at he ⊢
      exact h.flag b hb ha s hs he

end Db

/-- The booking that a refund is for. -/
def Call.refunds : Call → Option BookingId
  | .refund bookingId _ => some bookingId
  | _ => none

/-- A refund that releases a slot finds no other active booking there. -/
def RefundsLast (c : Call) (ws : List Write) (db : Db) : Prop :=
  ∀ b ∈ db.bookings, c.refunds = some b.id → .slotSet [b.slotId] false ∈ ws →
    ∀ b' ∈ db.bookings, b'.slotId = b.slotId → b'.Active → b'.id = b.id

instance (c : Call) (ws : List Write) (db : Db) : Decidable (RefundsLast c ws db) :=
  inferInstanceAs (Decidable (∀ b ∈ db.bookings, _))

theorem Commits.guarded {cfg : Config} {c : Session Call} {w : World} {ws : List Write}
    (hv : w.db.Valid cfg) (h : w.db.Guarded) (hc : Commits cfg c w ws)
    (hlast : RefundsLast c.call ws w.db) : (w.db.applyAll ws).Guarded := by
  cases hc with
  | book _ _ _ _ hslot hfree => exact h.book hslot hfree
  | cancel _ _ _ hvac => exact h.restatus _ (by simp) hvac.alone fun _ => rfl
  | cleanup _ _ hvac => exact h.restatus _ (by simp) hvac.alone fun _ => rfl
  | @refund _ p b freed hcall _ _ hb hslots _ =>
    have h' : (w.db.apply (.paymentSet [p.id] .refunded)).Guarded := ⟨h.exclusive, h.flag⟩
    refine h'.restatus freed (by simp) (fun s hs b' hb' he ha => ?_) fun _ => rfl
    rcases hslots with rfl | rfl
    · simp at hs
    · rw [List.mem_singleton] at hs ⊢
      exact hlast b hb (by rw [hcall]; rfl) (by simp [release]) b' hb' (he.trans hs) ha
  | @succeeded id p b charge time _ _ _ _ _ hb _ =>
    have h' : ((w.db.apply (.eventInsert id)).apply
      (.paymentSet [p.id] (.paid charge time))).Guarded := ⟨h.exclusive, h.flag⟩
    by_cases hp : b.status = .PENDING
    · rw [if_pos hp]
      refine h'.restatus [] (fun _ b' hb' hid => ?_) (by simp) (by simp)
      rw [Rows.eq_of_key hv.bookings hb' hb (List.mem_singleton.mp hid)]
      exact .inl hp
    · rw [if_neg hp]
      exact h'
  | complete => exact h.restatus [] (by simp) (by simp) (by simp)
  | _ => exact ⟨h.exclusive, h.flag⟩

/-- As long as no refund releases a slot that somebody else has taken, no slot gets two
active bookings, whatever the constraint on `bookings.slotId`. -/
theorem exclusive_of_refundsLast {cfg : Config} {s : Sys} {as : List Act} (hs : s.Fresh)
    (hM : (service cfg).Each (OnCommit cfg RefundsLast) s as) :
    (service cfg).Always (fun t => t.world.db.Exclusive) s as := by
  have hinit : s.world.db.Guarded := by
    constructor
    · intro b hb
      simp [hs.db.bookings] at hb
    · intro b hb
      simp [hs.db.bookings] at hb
  have hguarded := always_of_commits hs.initial stable_true trivial hinit
    (fun hw _ h hc hm => hc.guarded hw.valid h hm) hM
  exact hguarded.mono fun _ h => h.exclusive

theorem exclusive_sold : (service (Arena.cfg false)).Always (fun t => t.world.db.Exclusive)
    Arena.sys (Arena.sold ++ Arena.first 3 (.refund 101 7) 12) :=
  exclusive_of_refundsLast Arena.fresh (by decide +kernel)

/-- A refund of a cancelled booking finds the slot empty; another user books the slot
before the refund releases it, and a third one after. -/
theorem exclusive_fails :
    ¬ ((service (Arena.cfg false)).run Arena.sys (
      Arena.first 0 (.create (Arena.dto 1 none) 7 0) 20 ++
      Arena.first 1 (.createPaymentIntent 101 7) 5 ++ Arena.first 2 (.cancel 101 7) 12 ++
      Arena.first 3 (.handleWebhook (some 1)) 12 ++ Arena.first 4 (.refund 101 7) 8 ++
      Arena.first 5 (.create (Arena.dto 1 none) 8 0) 20 ++ List.replicate 4 (.run 4) ++
      Arena.first 6 (.create (Arena.dto 1 none) 9 0) 20)).world.db.Exclusive := by
  decide +kernel

end TurfSync
