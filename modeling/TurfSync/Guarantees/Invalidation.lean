import Mathlib.Data.List.Dedup
import TurfSync.Guarantees.Listings

/-! The calls that set flags of slots, each running alone. `create`, `cancel` and
`cleanupStalePendingBookings` delete the listings of every turf they touch; `refund`
deletes none, so it leaves one behind if the slot it sets free was listed. -/

namespace TurfSync

open Txn

variable {cfg : Config} {c : Session Call} {dirty : TurfId → Time → Prop} {db : Db} {w : World}
  {turfId : TurfId}

section

variable {α β : Type} {l : Local Key Write}

/-- A call, or a part of one, after which every listing is current. -/
abbrev Rests (r : Except Err α × Local Key Write × World) : Prop := Calm r.2.1 r.2.2

/-- A transaction that went through has set flags in `dirty`, and one that failed none. -/
def Leaves (dirty : TurfId → Time → Prop) : Except Err α × Local Key Write × World → Prop
  | (.ok _, l, w) => l = .idle ∧ w.Listed dirty
  | (.error _, l, w) => l = .idle ∧ w.Listed nowhere

theorem World.Listed.calm (h : w.Listed nowhere) : Calm .idle w := ⟨by simp, h⟩

theorem harmless_rests {p : Op α} (hp : Harmless p) (h : Calm l w) :
    Rests ((engine cfg).solo c p l w) :=
  (Engine.solo_uses (I := Calm) (fun _ _ _ h hm => h.exec hm) hp h).2

theorem rests_bind {p : Op α} {f : α → Op β} (hp : Rests ((engine cfg).solo c p l w))
    (hf : ∀ a l' w', Calm l' w' → Rests ((engine cfg).solo c (f a) l' w')) :
    Rests ((engine cfg).solo c (p.bind f) l w) := by
  rw [Engine.solo_bind]
  rcases hr : (engine cfg).solo c p l w with ⟨e | a, l', w'⟩
  · rw [hr] at hp
    exact hp
  · rw [hr] at hp
    exact hf a l' w' hp

theorem rests_tryFinally {p : Op α} {fin : Op Unit} (hp : Rests ((engine cfg).solo c p l w))
    (hfin : Harmless fin) : Rests ((engine cfg).solo c (p.tryFinally fin) l w) := by
  rw [Engine.solo_tryFinally]
  rcases hr : (engine cfg).solo c p l w with ⟨r, l', w'⟩
  rw [hr] at hp
  refine rests_bind (harmless_rests hfin hp) fun _ l'' w'' h => ?_
  cases r <;> exact h

/-- The body of a transaction that makes such writes only. -/
theorem body_carries {Q : α → Prop} {p : Op α} (hp : Script.Uses (Marking dirty db) Q p)
    (h : Carries dirty db l w) : (∀ a, ((engine cfg).solo c p l w).1 = .ok a → Q a) ∧
      Carries dirty db ((engine cfg).solo c p l w).2.1 ((engine cfg).solo c p l w).2.2 :=
  Engine.solo_uses (I := Carries dirty db) (fun _ _ _ h hm => h.exec hm) hp h

theorem transaction_leaves (db : Db) {p : Op α}
    (h : Carries dirty db ((engine cfg).solo c p ⟨some [], l.held⟩ w).2.1
      ((engine cfg).solo c p ⟨some [], l.held⟩ w).2.2) :
    Leaves dirty ((engine cfg).solo c (Script.transaction p) l w) := by
  have htx : (engine cfg).solo c (Script.transaction p) l w =
      (engine cfg).solo c (Script.inTx p) ⟨some [], l.held⟩ w := rfl
  rw [htx, Engine.solo_inTx]
  rcases hr : (engine cfg).solo c p ⟨some [], l.held⟩ w with ⟨e | a, l', w'⟩
  · rw [hr] at h
    exact ⟨rfl, h.listed⟩
  · rw [hr] at h
    obtain ⟨ws, htx, hws⟩ := h.writes
    refine ⟨rfl, ?_⟩
    have hall : w'.Listed dirty := h.listed.mono fun _ _ hn => hn.elim
    have hmarks : ∀ x ∈ l'.tx.getD [], x.Marks dirty w'.db := by
      intro x hx
      rw [show w'.db = db from h.db]
      rw [show l'.tx = some ws from htx] at hx
      exact hws x hx
    exact hall.commit hmarks

theorem transaction_reply (p : Op α) : ((engine cfg).solo c (Script.transaction p) l w).1 =
    ((engine cfg).solo c p ⟨some [], l.held⟩ w).1 := by
  have htx : (engine cfg).solo c (Script.transaction p) l w =
      (engine cfg).solo c (Script.inTx p) ⟨some [], l.held⟩ w := rfl
  rw [htx, Engine.solo_inTx]
  rcases (engine cfg).solo c p ⟨some [], l.held⟩ w with ⟨e | a, l', w'⟩ <;> rfl

/-- What follows a transaction that went through. -/
theorem leaves_bind {p : Op α} {f : α → Op β}
    (hp : Leaves dirty ((engine cfg).solo c (Script.transaction p) l w))
    (hf : ∀ a w', ((engine cfg).solo c (Script.transaction p) l w).1 = .ok a → w'.Listed dirty →
      Rests ((engine cfg).solo c (f a) .idle w')) :
    Rests ((engine cfg).solo c ((Script.transaction p).bind f) l w) := by
  rw [Engine.solo_bind]
  rcases hr : (engine cfg).solo c (Script.transaction p) l w with ⟨e | a, l', w'⟩
  · rw [hr] at hp
    obtain ⟨rfl, hw⟩ := hp
    exact hw.calm
  · rw [hr] at hp hf
    obtain ⟨rfl, hw⟩ := hp
    exact hf a w' rfl hw

/-- `delByPattern` deletes the listings of a turf. -/
theorem World.Listed.delByPattern (h : w.Listed dirty) (dirty' : TurfId → Time → Prop)
    (hd : ∀ t d, dirty t d → t = turfId ∨ dirty' t d) : ∃ w',
      (engine cfg).solo c (delByPattern turfId) .idle w = (.ok (), .idle, w') ∧
        w'.Listed dirty' := by
  refine ⟨_, by rw [TurfSync.delByPattern, solo_quietly, solo_external], ?_⟩
  have hout := h.out (o := ((External.delByPattern turfId).eval w.out).2)
    (External.uuid_le w.out (.delByPattern turfId)) (External.cache_subset w.out (.delByPattern turfId))
  refine hout.mono fun e he hdirty => ?_
  have hne : e.1 ≠ turfId := by
    have hmem := (List.mem_filter.mp he).2
    simpa using hmem
  exact (hd _ _ hdirty).resolve_left hne

/-- The start of a transaction. -/
theorem World.Listed.carries (h : w.Listed nowhere) {ks : List Key} :
    Carries dirty w.db ⟨some [], ks⟩ w := ⟨⟨[], rfl, by simp⟩, rfl, h⟩

theorem Db.houses_of_slotWithTurf? {slotId : SlotId} {row : Slot × Turf}
    (h : db.slotWithTurf? slotId turfId = some row) : db.Houses slotId turfId := by
  simp only [Db.slotWithTurf?, Option.bind_eq_bind, Option.bind_eq_some_iff] at h
  obtain ⟨slot, hslot, hrest⟩ := h
  split_ifs at hrest with hturf
  obtain ⟨hmem, hid⟩ := Db.mem_of_slot? hslot
  exact ⟨slot, hmem, hid, hturf⟩

namespace BookingService

variable {dto : CreateBookingDto} {userId : UserId} {coupon : Option ValidatedCoupon}
  {id : BookingId} {now : Time}

/-- The transaction of `create` sets a flag of the turf it is for. -/
theorem createTx_leaves (h : w.Listed nowhere) :
    Leaves (fun t _ => t = dto.turfId)
      ((engine cfg).solo c (Script.transaction (createTx dto userId coupon)) l w) := by
  refine transaction_leaves w.db ?_
  rw [createTx, Prog.bind_eq, Engine.solo_bind, solo_lock_tx, Db.applyAll_nil]
  simp only [RowLock.eval, Engine.andThen_ok]
  cases hrow : w.db.slotWithTurf? dto.slotId dto.turfId with
  | none => exact h.carries
  | some row =>
    obtain ⟨slot, turf⟩ := row
    have hhouse := Db.houses_of_slotWithTurf? hrow
    refine (body_carries (Q := fun _ => True) ?_ h.carries).2
    simp only
    split_ifs
    · trivial
    · trivial
    · refine Script.uses_perform_bind trivial fun existingBooking => ?_
      cases existingBooking with
      | some b => trivial
      | none =>
        refine Script.uses_perform_bind (fun s hs hid _ => ?_) fun _ =>
          Script.uses_perform_bind hhouse fun _ => trivial
        exact h.turfId_eq hs (hid ▸ hhouse)

theorem createLocked_rests (h : w.Listed nowhere) :
    Rests ((engine cfg).solo c (createLocked dto userId coupon) l w) := by
  refine leaves_bind (createTx_leaves h) ?_
  rintro ⟨booking, slot⟩ w' - hw
  obtain ⟨w'', hdel, hw''⟩ : ∃ w'', (engine cfg).solo c (delByPattern dto.turfId) .idle w' =
      (.ok (), .idle, w'') ∧ w''.Listed nowhere := hw.delByPattern nowhere fun _ _ he => .inl he
  have hrest : Harmless (do
      quietly (external (.queueAdd
        (.bookingConfirmed booking.id dto.date slot.startTime userId dto.turfId)))
      pure (.booking booking) : Op Reply) :=
    harmless_bind (harmless_quietly (harmless_external _)) fun _ => trivial
  simp only [Engine.andThen_ok, Prog.bind_eq, Engine.solo_bind, hdel]
  cases coupon with
  | none => exact harmless_rests hrest hw''.calm
  | some quote =>
    exact harmless_rests (harmless_bind CouponService.applyCoupon_harmless fun _ => hrest)
      hw''.calm

theorem create_rests (h : w.Listed nowhere) :
    Rests ((engine cfg).solo c (create cfg dto userId now) .idle w) := by
  unfold create
  simp only
  split_ifs
  · exact h.calm
  · exact h.calm
  · refine rests_bind (harmless_rests couponData_harmless h.calm) fun coupon l₁ w₁ h₁ => ?_
    refine rests_bind (harmless_rests (harmless_external _) h₁) fun lockValue l₂ w₂ h₂ => ?_
    cases lockValue with
    | none => exact h₂
    | some value =>
      exact rests_tryFinally (createLocked_rests h₂.listed)
        (harmless_bind (harmless_external _) fun _ => trivial)

theorem cancelTx_leaves {b : Booking} (h : w.Listed nowhere) (hb : w.db.booking? id = some b) :
    Leaves (fun t _ => t = b.turfId)
      ((engine cfg).solo c (Script.transaction (cancelTx id)) l w) := by
  refine transaction_leaves w.db ?_
  rw [cancelTx, Prog.bind_eq, Engine.solo_bind, solo_lock_tx, Db.applyAll_nil]
  simp only [RowLock.eval, Engine.andThen_ok, hb]
  refine (body_carries (Q := fun _ => True) ?_ h.carries).2
  split_ifs
  · trivial
  · refine Script.uses_perform_bind trivial fun _ => Script.uses_perform_bind trivial fun _ =>
      Script.uses_perform_bind trivial fun activeBookings => ?_
    split_ifs
    · refine Script.uses_perform fun s hs hid _ => ?_
      exact h.turfId_eq hs (hid ▸ h.housed b (Db.mem_of_booking? hb).1)
    · trivial

theorem cancel_rests (h : w.Listed nowhere) :
    Rests ((engine cfg).solo c (cancel id userId) .idle w) := by
  rw [cancel, Prog.bind_eq, Engine.solo_bind, solo_query]
  simp only [Query.eval, Engine.andThen_ok]
  cases hb : w.db.booking? id with
  | none => exact h.calm
  | some b =>
    simp only
    split_ifs
    · exact h.calm
    · exact h.calm
    refine leaves_bind (cancelTx_leaves h hb) fun u w' _ hw => ?_
    obtain ⟨w'', hdel, hw''⟩ : ∃ w'', (engine cfg).solo c (delByPattern b.turfId) .idle w' =
        (.ok (), .idle, w'') ∧ w''.Listed nowhere := hw.delByPattern nowhere fun _ _ he => .inl he
    rw [Prog.bind_eq, Engine.solo_bind, hdel]
    exact harmless_rests (harmless_bind (harmless_quietly (harmless_external _)) fun _ => trivial)
      hw''.calm

theorem solo_collect (ids : List BookingId) (ks : List Key) : ∃ rows ks',
    (engine cfg).solo c (Script.collect (fun id => lockRow (.pendingBooking id)) ids)
      ⟨some [], ks⟩ w = (.ok rows, ⟨some [], ks'⟩, w) ∧ ∀ b ∈ rows, b ∈ w.db.bookings := by
  induction ids generalizing ks with
  | nil => exact ⟨[], ks, rfl, by simp⟩
  | cons id ids ih =>
    obtain ⟨rows, ks', hrest, hrows⟩ :=
      ih (((RowLock.pendingBooking id).eval w.db).2 ++ ks)
    refine ⟨((RowLock.pendingBooking id).eval w.db).1.toList ++ rows, ks', ?_, fun b hb => ?_⟩
    · rw [Script.collect, Engine.solo_bind, solo_lock_tx, Db.applyAll_nil, Engine.andThen_ok,
        Engine.solo_bind, hrest]
      rfl
    · rcases List.mem_append.mp hb with hb | hb
      · simp only [RowLock.eval] at hb
        split at hb
        · rename_i b' hfound
          split_ifs at hb
          · obtain rfl : b = b' := by simpa using hb
            exact (Db.mem_of_booking? hfound).1
          · cases hb
        · cases hb
      · exact hrows b hb

/-- The transaction of the cleanup sets flags of the turfs of the bookings it returns. -/
theorem cleanupTx_leaves (h : w.Listed nowhere) (ids : List BookingId) : ∃ rows : List Booking,
    Leaves (fun t _ => t ∈ rows.map (·.turfId))
      ((engine cfg).solo c (Script.transaction (cleanupTx ids)) l w) ∧
    ∀ a, ((engine cfg).solo c (Script.transaction (cleanupTx ids)) l w).1 = .ok a → a = rows := by
  obtain ⟨rows, ks', hcollect, hrows⟩ : ∃ rows ks',
    (engine cfg).solo c (Script.collect (fun id => lockRow (.pendingBooking id)) ids)
      ⟨some [], l.held⟩ w = (.ok rows, ⟨some [], ks'⟩, w) ∧ ∀ b ∈ rows, b ∈ w.db.bookings :=
    solo_collect ids l.held
  have hbody : (∀ a, ((engine cfg).solo c (cleanupTx ids) ⟨some [], l.held⟩ w).1 = .ok a → a = rows) ∧
      Carries (fun t _ => t ∈ rows.map (·.turfId)) w.db
        ((engine cfg).solo c (cleanupTx ids) ⟨some [], l.held⟩ w).2.1
        ((engine cfg).solo c (cleanupTx ids) ⟨some [], l.held⟩ w).2.2 := by
    rw [cleanupTx, Prog.bind_eq, Engine.solo_bind, hcollect, Engine.andThen_ok]
    refine body_carries ?_ h.carries
    split_ifs with hnone
    · exact hnone.symm
    · refine Script.uses_perform_bind trivial fun _ => ?_
      refine Script.uses_bind (Script.uses_forEach fun _ _ => Script.uses_perform trivial)
        fun _ _ => Script.uses_perform_bind trivial fun activeBookings => ?_
      simp only
      split_ifs
      · rfl
      · refine Script.uses_perform_bind (fun s hs hid _ => ?_) fun _ => rfl
        obtain ⟨b, hb, hslot⟩ := List.mem_map.mp (List.mem_filter.mp hid).1
        rw [h.turfId_eq hs (hslot ▸ h.housed b (hrows b hb))]
        exact List.mem_map_of_mem hb
  refine ⟨rows, transaction_leaves w.db hbody.2, fun a ha => hbody.1 a ?_⟩
  rw [← transaction_reply]
  exact ha

theorem forEach_delByPattern {ts : List TurfId} (h : w.Listed fun t _ => t ∈ ts) : ∃ w',
    (engine cfg).solo c (Script.forEach delByPattern ts) .idle w = (.ok (), .idle, w') ∧
      w'.Listed nowhere := by
  induction ts generalizing w with
  | nil => exact ⟨w, rfl, h.mono fun _ _ ht => by simp at ht⟩
  | cons t ts ih =>
    obtain ⟨w₁, hdel, h₁⟩ : ∃ w₁, (engine cfg).solo c (delByPattern t) .idle w =
        (.ok (), .idle, w₁) ∧ w₁.Listed fun t _ => t ∈ ts :=
      h.delByPattern _ fun _ _ ht => List.mem_cons.mp ht
    obtain ⟨w₂, hrest, h₂⟩ := ih h₁
    refine ⟨w₂, ?_, h₂⟩
    rw [Script.forEach, Engine.solo_bind, hdel, Engine.andThen_ok, hrest]

theorem cleanupStalePendingBookings_rests (h : w.Listed nowhere) :
    Rests ((engine cfg).solo c (cleanupStalePendingBookings now) .idle w) := by
  rw [cleanupStalePendingBookings]
  simp only [Prog.bind_eq, Engine.solo_bind, solo_query (.bookingFindStale _), Engine.andThen_ok]
  split_ifs
  · exact h.calm
  generalize ((Query.bookingFindStale (now - 15 * 60 * 1000)).eval w.db).map (·.id) = ids
  obtain ⟨rows, htx, hreply⟩ : ∃ rows : List Booking, Leaves (fun t _ => t ∈ rows.map (·.turfId))
      ((engine cfg).solo c (Script.transaction (cleanupTx ids)) .idle w) ∧
    ∀ a, ((engine cfg).solo c (Script.transaction (cleanupTx ids)) .idle w).1 = .ok a → a = rows :=
    cleanupTx_leaves h ids
  refine leaves_bind htx fun a w' hok hw => ?_
  obtain rfl := hreply a hok
  have hdedup : w'.Listed fun t _ => t ∈ (a.map (·.turfId)).dedup :=
    hw.mono fun _ _ ht => List.mem_dedup.mpr ht
  obtain ⟨w'', hdel, hw''⟩ : ∃ w'', (engine cfg).solo c
      (Script.forEach delByPattern (a.map (·.turfId)).dedup) .idle w' = (.ok (), .idle, w'') ∧
      w''.Listed nowhere := forEach_delByPattern hdedup
  rw [Engine.solo_bind, hdel]
  exact hw''.calm

end BookingService

/-! ### Refunds -/

/-- No call adds a listing. -/
theorem cache_shrinks (p : Op α) :
    ∀ e ∈ ((engine cfg).solo c p l w).2.2.out.slotCache, e ∈ w.out.slotCache := by
  have hact : ∀ (s : Stmt) (v w' : World),
      ∀ e ∈ ((engine cfg).act s v w').world.out.slotCache, e ∈ w'.out.slotCache := by
    intro s v w' e he
    cases s with
    | external x => exact x.cache_subset w'.out e he
    | _ => exact he
  have hexec : ∀ (l : Local Key Write) (w' : World) (m : Cmd Stmt),
      ∀ e ∈ ((engine cfg).after c ((engine cfg).exec l w' m)).out.slotCache,
        e ∈ w'.out.slotCache := by
    intro l w' m e he
    cases m with
    | stmt s =>
      cases htx : l.tx with
      | some ws =>
        rw [Engine.after_tx htx] at he
        exact hact s _ w' e he
      | none =>
        rw [Engine.after_auto htx] at he
        split_ifs at he <;> exact hact s _ w' e he
    | _ => exact he
  exact (Engine.solo_uses (φ := fun _ => True) (Q := fun _ => True)
    (I := fun (_ : Local Key Write) (w' : World) => ∀ e ∈ w'.out.slotCache, e ∈ w.out.slotCache)
    (fun l w' m h _ e he => h e (hexec l w' m e he)) (Script.uses_any p) fun _ he => he).2

/-- A refund that goes through and sets the slot free. -/
def PaymentDetail.Frees (d : PaymentDetail) (userId : UserId) (w : World) : Prop :=
  d.booking.userId = userId ∧ d.payment.status = .PAID ∧
    w.out.now < setUTCHours d.slot.date d.slot.startTime.hour d.slot.startTime.minute ∧
    d.payment.stripePaymentIntentId ∉ w.out.refunds ∧ d.slot.isBooked = true ∧
    w.db.activeOn [d.slot.id] [d.booking.id] = []

instance (d : PaymentDetail) (userId : UserId) (w : World) : Decidable (d.Frees userId w) :=
  inferInstanceAs (Decidable (_ ∧ _ ∧ _ ∧ _ ∧ _ ∧ _))

namespace PaymentService

variable {bookingId : BookingId} {userId : UserId} {d : PaymentDetail} {ws : List Write}
  {ks : List Key}

/-- The rows that `refund` reads. -/
theorem mem_of_paymentDetail? (h : db.paymentDetail? bookingId = some d) :
    d.booking ∈ db.bookings ∧ d.booking.id = bookingId ∧ d.slot ∈ db.slots := by
  simp only [Db.paymentDetail?, Option.bind_eq_bind, Option.bind_eq_some_iff,
    Option.some.injEq] at h
  obtain ⟨p, hp, b, hb, s, hs, rfl⟩ := h
  obtain ⟨hb, hbid⟩ := Db.mem_of_booking? hb
  exact ⟨hb, hbid.trans (Db.mem_of_paymentOf? hp).2, (Db.mem_of_slot? hs).1⟩

/-- An update of one row fails, or adds its write. -/
theorem solo_updateRow_tx {u : Update} {r : u.Reply} {locks : List Key} {x : Write}
    (hplan : ∀ db uuid now, u.plan cfg db uuid now = .fail .P2025 [] ∨
      u.plan cfg db uuid now = ⟨.ok r, locks, [x], 0⟩) :
    (engine cfg).solo c (update u) ⟨some ws, ks⟩ w = (.error .P2025, ⟨some ws, ks⟩, w) ∨
      (engine cfg).solo c (update u) ⟨some ws, ks⟩ w =
        (.ok r, ⟨some (ws ++ [x]), locks ++ ks⟩, w) := by
  obtain hp | hp := hplan (w.db.applyAll ws) w.out.uuid w.out.now
  · left
    rw [solo_update_tx hp]
    simp [Planned.fail]
  · right
    rw [solo_update_tx hp]
    rfl

theorem solo_paymentUpdate_tx (id : PaymentId) (change : PaymentChange) :
    (engine cfg).solo c (update (.paymentUpdate id change)) ⟨some ws, ks⟩ w =
        (.error .P2025, ⟨some ws, ks⟩, w) ∨
      (engine cfg).solo c (update (.paymentUpdate id change)) ⟨some ws, ks⟩ w =
        (.ok (), ⟨some (ws ++ [.paymentSet [id] change]), [.payment id] ++ ks⟩, w) := by
  refine solo_updateRow_tx fun db uuid now => ?_
  simp only [Update.plan]
  cases db.payment? id with
  | none => exact .inl rfl
  | some p => exact .inr rfl

theorem solo_bookingUpdate_tx (id : BookingId) (status : BookingStatus) :
    (engine cfg).solo c (update (.bookingUpdate id status)) ⟨some ws, ks⟩ w =
        (.error .P2025, ⟨some ws, ks⟩, w) ∨
      (engine cfg).solo c (update (.bookingUpdate id status)) ⟨some ws, ks⟩ w =
        (.ok (), ⟨some (ws ++ [.bookingSet [id] status]), [.booking id] ++ ks⟩, w) := by
  refine solo_updateRow_tx fun db uuid now => ?_
  simp only [Update.plan]
  cases db.booking? id with
  | none => exact .inl rfl
  | some b => exact .inr rfl

/-- The slot and date that the transaction of `refund` changes, if it does. -/
def freedAt (db : Db) (bookingId : BookingId) (slot : Slot) (t : TurfId) (date : Time) : Prop :=
  t = slot.turfId ∧ date = slot.date ∧ slot.isBooked = true ∧ db.activeOn [slot.id] [bookingId] = []

theorem refundTx_leaves (h : w.Listed nowhere) {slot : Slot} (hslot : slot ∈ w.db.slots)
    (paymentId : PaymentId) : Leaves (freedAt w.db bookingId slot)
      ((engine cfg).solo c (Script.transaction (refundTx bookingId paymentId slot.id)) l w) := by
  refine transaction_leaves w.db ?_
  rw [refundTx, Prog.bind_eq, Engine.solo_bind, solo_lock_tx, Engine.andThen_ok, Prog.bind_eq,
    Engine.solo_bind]
  obtain hpay | hpay := @solo_paymentUpdate_tx cfg c w []
    (((RowLock.booking bookingId).eval (w.db.applyAll [])).2 ++ l.held) paymentId .refunded
  · rw [hpay]
    exact h.carries
  rw [hpay, Engine.andThen_ok, Prog.bind_eq, Engine.solo_bind]
  have hcarries : ∀ ks ws, (∀ x ∈ ws, x.Marks (freedAt w.db bookingId slot) w.db) →
      Carries (freedAt w.db bookingId slot) w.db ⟨some ws, ks⟩ w :=
    fun ks ws hws => ⟨⟨ws, rfl, hws⟩, rfl, h⟩
  obtain hbook | hbook := @solo_bookingUpdate_tx cfg c w
    ([] ++ [.paymentSet [paymentId] .refunded]) ([.payment paymentId] ++
      (((RowLock.booking bookingId).eval (w.db.applyAll [])).2 ++ l.held)) bookingId .CANCELLED
  · rw [hbook]
    exact hcarries _ _ (by simp [Write.Marks])
  rw [hbook, Engine.andThen_ok, Prog.bind_eq, Engine.solo_bind, solo_query_tx, Engine.andThen_ok]
  refine (body_carries (Q := fun _ => True) ?_ (hcarries _ _ (by simp [Write.Marks]))).2
  split_ifs with hactive
  · refine Script.uses_perform fun s hs hid hflag => ?_
    obtain rfl := Rows.eq_of_key h.ids hs hslot hid
    refine ⟨rfl, rfl, by simpa using hflag, ?_⟩
    refine List.eq_nil_iff_forall_not_mem.mpr fun b hb => ?_
    simp only [Db.activeOn, List.mem_filter, decide_eq_true_eq] at hb
    have hmem : b ∈ (w.db.apply (.bookingSet [bookingId] .CANCELLED)).activeOn [s.id] [bookingId] :=
      BookingService.mem_activeOn.mpr hb
    have hnil : (w.db.apply (.bookingSet [bookingId] .CANCELLED)).activeOn [s.id] [bookingId] = [] :=
      hactive
    rw [hnil] at hmem
    cases hmem
  · trivial

/-- The transaction leaves every listing current if it changes no listed slot. -/
theorem refundTx_rests (h : w.Listed nowhere) {slot : Slot} (hslot : slot ∈ w.db.slots)
    (hfree : ∀ e ∈ w.out.slotCache, ¬ freedAt w.db bookingId slot e.1 e.2.1)
    (paymentId : PaymentId) :
    Rests ((engine cfg).solo c (Script.transaction (refundTx bookingId paymentId slot.id)) l w) := by
  have htx : Leaves (freedAt w.db bookingId slot)
    ((engine cfg).solo c (Script.transaction (refundTx bookingId paymentId slot.id)) l w) :=
    refundTx_leaves h hslot paymentId
  have hcache := @cache_shrinks cfg c w Unit l
    (Script.transaction (refundTx bookingId paymentId slot.id))
  rcases hr : (engine cfg).solo c (Script.transaction (refundTx bookingId paymentId slot.id)) l w
    with ⟨e | u, l', w'⟩
  · rw [hr] at htx
    obtain ⟨rfl, hw⟩ := htx
    exact hw.calm
  · rw [hr] at htx hcache
    obtain ⟨rfl, hw⟩ := htx
    have hw' : w'.Listed nowhere := hw.mono fun e he hfreed => hfree e (hcache e he) hfreed
    exact hw'.calm

theorem refund_rests (h : w.Listed nowhere)
    (hfree : ∀ d ∈ w.db.paymentDetail? bookingId, d.Frees userId w →
      ∀ e ∈ w.out.slotCache, ¬ (e.1 = d.slot.turfId ∧ e.2.1 = d.slot.date)) :
    Rests ((engine cfg).solo c (refund bookingId userId) .idle w) := by
  rw [refund, Prog.bind_eq, Engine.solo_bind, solo_query]
  simp only [Query.eval, Engine.andThen_ok]
  cases hd : w.db.paymentDetail? bookingId with
  | none => exact h.calm
  | some d =>
    obtain ⟨-, hid, hslot⟩ := mem_of_paymentDetail? hd
    simp only
    split_ifs with howner hpaid
    · exact h.calm
    · exact h.calm
    simp only [Prog.bind_eq, Engine.solo_bind, solo_external .dateNow, External.eval,
      Engine.andThen_ok]
    split_ifs with hpast
    · exact h.calm
    rw [Engine.solo_bind, solo_external]
    simp only [External.eval]
    split_ifs with hrefunded
    · exact h.calm
    rw [Engine.andThen_ok]
    have hlisted : World.Listed nowhere { w with out := { w.out with
        refunds := w.out.refunds ++ [d.payment.stripePaymentIntentId], uuid := w.out.uuid + 1 } } :=
      h.out (Nat.le_succ _) fun _ he => he
    refine rests_bind (refundTx_rests hlisted hslot (fun e he hfreed => ?_) d.payment.id)
      fun _ l' w' hw' => hw'
    obtain ⟨hturf, hdate, hflag, hactive⟩ := hfreed
    have hfrees : d.Frees userId w := ⟨not_not.mp howner, not_not.mp hpaid, not_le.mp hpast,
      hrefunded, hflag, hid ▸ hactive⟩
    exact hfree d hd hfrees e he ⟨hturf, hdate⟩

end PaymentService

/-- Only `refund` may leave a listing behind: that of a slot it sets free. -/
def Call.Fits (w : World) : Call → Prop
  | .refund bookingId userId => ∀ d ∈ w.db.paymentDetail? bookingId, d.Frees userId w →
      ∀ e ∈ w.out.slotCache, ¬ (e.1 = d.slot.turfId ∧ e.2.1 = d.slot.date)
  | _ => True

instance (w : World) : DecidablePred (Call.Fits w)
  | .refund _ _ => inferInstanceAs (Decidable (∀ d ∈ w.db.paymentDetail? _, _ → _))
  | .create _ _ _ | .cancel _ _ | .cleanupStalePendingBookings _ | .createPaymentIntent _ _
  | .handleWebhook _ | .completeBooking _ _ | .autoCompleteBookings _ =>
    inferInstanceAs (Decidable True)

theorem Call.body_rests {call : Call} (h : w.Listed nowhere) (hcall : call.Fits w) :
    Rests ((engine cfg).solo c (call.body cfg) .idle w) := by
  cases call with
  | create dto userId now => exact BookingService.create_rests h
  | cancel id userId => exact BookingService.cancel_rests h
  | cleanupStalePendingBookings now => exact BookingService.cleanupStalePendingBookings_rests h
  | refund bookingId userId => exact PaymentService.refund_rests h hcall
  | createPaymentIntent bookingId userId =>
    exact harmless_rests PaymentService.createPaymentIntent_harmless h.calm
  | handleWebhook event => exact harmless_rests PaymentService.handleWebhook_harmless h.calm
  | completeBooking bookingId adminId =>
    exact harmless_rests AdminService.completeBooking_harmless h.calm
  | autoCompleteBookings now =>
    exact harmless_rests BookingCompleteJob.autoCompleteBookings_harmless h.calm

end

end TurfSync
