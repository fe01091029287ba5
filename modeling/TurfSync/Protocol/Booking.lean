import TurfSync.Protocol.Steps

/-! The booking operations keep to the protocol: each of their transactions is one of
the listed commits, made under the locks of its rows. -/

namespace TurfSync

open Txn

variable {cfg : Config} {J : World → Prop}
  {allow : Session Call → Local Key Write → World → Cmd Stmt → Bool → Prop} {c : Session Call}
  {w : World}

/-- What `booking.create` does: it fails, or inserts a row under a fresh id. -/
theorem plan_bookingCreate (cfg : Config) (db : Db) (uuid : ℕ) (now : Time) (d : NewBooking) :
    (∃ e ks, (Update.bookingCreate d).plan cfg db uuid now = .fail e ks) ∨
    ∃ amount, (cfg.slotIdUnique = true → ∀ b ∈ db.bookings, b.slotId ≠ d.slotId) ∧
      (Update.bookingCreate d).plan cfg db uuid now =
        ⟨.ok (d.row amount uuid now), [.booking uuid, .bookingSlot d.slotId],
          [.bookingInsert (d.row amount uuid now)], 1⟩ := by
  simp only [Update.plan]
  cases d.totalAmount with
  | none => exact .inl ⟨_, _, rfl⟩
  | some amount =>
    simp only []
    split_ifs with hfk hu
    · exact .inl ⟨_, _, rfl⟩
    · exact .inl ⟨_, _, rfl⟩
    · exact .inr ⟨amount, fun h b hb he => hu ⟨h, b, hb, he⟩, rfl⟩

namespace BookingService

/-- The last statement of the transaction of `create`, with the slot row locked and
marked. -/
theorem bookingCreate_wp (hJ : Stable cfg J) {dto : CreateBookingDto} {now : Time}
    {d : NewBooking} {slot shown : Slot} {ks : List Key}
    {Q : Post Err Key Write World (Booking × Slot)} (call : c.call = .create dto d.userId now)
    (hslotId : d.slotId = dto.slotId) (hk : .slot d.slotId ∈ ks)
    (hslot : w.db.slot? d.slotId = some slot) (hfree : slot.isBooked = false)
    (hturfId : slot.turfId = d.turfId) (hturf : (w.db.turf? d.turfId).isSome)
    (hok : ∀ b w₁ w', Found cfg J c [] w w₁ →
      Commits cfg c w₁ [.slotSet [b.slotId] true, .bookingInsert b] →
      Found cfg J c [] (Commits.result c [.slotSet [b.slotId] true, .bookingInsert b] w₁) w' →
      Q (.ok (b, shown)) .idle w')
    (herr : ∀ e w', Found cfg J c [] w w' → Q (.error e) .idle w') :
    wp (engine cfg) (rules cfg J allow) c
      ((update (.bookingCreate d)).bind fun b => .ret (b, shown))
      (TxPost (engine cfg) (rules cfg J allow) c Q) ⟨some [.slotSet [d.slotId] true], ks⟩ w := by
  refine wp_update_tx (fun w₁ h₁ => ?_) fun w' h _ => wp_throw_tx fun w'' h' =>
    herr _ _ (h.forget.trans h')
  rcases plan_bookingCreate cfg (w₁.db.applyAll [.slotSet [d.slotId] true])
    w₁.out.uuid w₁.out.now d with ⟨e, ks', hp⟩ | ⟨amount, hu, hp⟩
  · rw [hp]
    exact wp_throw_tx fun w'' h' => herr _ _ (h₁.forget.trans h')
  rw [hp]
  have htook : Found cfg J c ks w₁ (w₁.took 1) :=
    (Found.refl h₁.wellFormed h₁.extra).out hJ (Nat.le_succ _)
  have hcommit : ∀ w₂, Found cfg J c ([.booking w₁.out.uuid, .bookingSlot d.slotId] ++ ks)
      (w₁.took 1) w₂ → Commits cfg c w₂
        [.slotSet [d.slotId] true, .bookingInsert (d.row amount w₁.out.uuid w₁.out.now)] := by
    intro w₂ h₂
    have hslot₂ : w₂.db.slot? d.slotId = some slot :=
      (h₂.rely.db.slotLock _ (by simp [hk])).trans ((h₁.rely.db.slotLock _ hk).trans hslot)
    have hturf₂ : (w₂.db.turf? d.turfId).isSome := by
      rw [Db.turf?, h₂.rely.db.turfs]
      show (Rows.lookup _ _ w₁.db.turfs).isSome
      rw [h₁.rely.db.turfs]
      exact hturf
    refine Commits.book (b := d.row amount w₁.out.uuid w₁.out.now) call hslotId rfl rfl hslot₂
      hfree h₂.rely.uuid ⟨fun b' hb' he => ?_, ⟨slot, Db.mem_of_slot? hslot₂⟩, fun h b' hb' he => ?_⟩
      hturfId hturf₂
    · -- the fresh id is locked, so nobody else has used it
      have hsome := h₂.valid.booking?_of_mem hb'
      rw [he, h₂.rely.db.bookingLock _ (by simp [NewBooking.row])] at hsome
      obtain ⟨hm, hid⟩ := Db.mem_of_booking? hsome
      exact absurd (h₁.wellFormed.bookingIds b' hm) (by rw [hid]; exact Nat.lt_irrefl _)
    · obtain ⟨b, hb, ha⟩ := h₂.onSlot (by simp [hk, NewBooking.row]) b' hb' he
      exact hu h b hb (ha.slotId.symm.trans he)
  refine wp_ret_tx (fun w₂ h₂ => ⟨⟨hcommit w₂ h₂, ?_⟩, fun w' h' => ?_⟩)
    fun w₂ w' h₂ _ h' => ?_
  · simp [Write.keys, NewBooking.row, hk]
  · exact hok _ w₂ w' (h₁.forget.trans (htook.forget.trans h₂.forget)) (hcommit w₂ h₂) h'
  · exact herr _ _ (h₁.forget.trans (htook.forget.trans (h₂.forget.trans h')))

/-- The transaction of `create` throws and leaves nothing, or commits the booking. -/
theorem createTx_wp (hJ : Stable cfg J) {dto : CreateBookingDto} {userId : UserId} {now : Time}
    {coupon : Option ValidatedCoupon} {Q : Post Err Key Write World (Booking × Slot)}
    (call : c.call = .create dto userId now)
    (hok : ∀ b slot w₁ w', Found cfg J c [] w w₁ → (w₁.db.turf? dto.turfId).isSome →
      Commits cfg c w₁ [.slotSet [b.slotId] true, .bookingInsert b] →
      Found cfg J c [] (Commits.result c [.slotSet [b.slotId] true, .bookingInsert b] w₁) w' →
      Q (.ok (b, slot)) .idle w')
    (herr : ∀ e w', Found cfg J c [] w w' → Q (.error e) .idle w') :
    wp (engine cfg) (rules cfg J allow) c (Script.transaction (createTx dto userId coupon)) Q
      .idle w := by
  refine wp_tx (fun w₀ h₀ => ?_) fun w' h _ w'' hr hi => herr _ _ (h.trans ⟨hr, hi.1, hi.2⟩)
  unfold createTx
  simp only [Prog.bind_eq, Prog.pure_eq]
  refine wp_lock_tx (fun w₁ h₁ _ => ?_) fun w' h _ => wp_throw_tx fun w'' h' =>
    herr _ _ (h₀.trans (h.trans h'))
  have h₁ := h₀.trans h₁
  simp only [RowLock.eval, Db.applyAll_nil]
  cases hrow : w₁.db.slotWithTurf? dto.slotId dto.turfId with
  | none => exact wp_throw_tx fun w'' h' => herr _ _ (h₁.trans h')
  | some row =>
    obtain ⟨slot, turf⟩ := row
    -- the slot and the turf that the row shows
    obtain ⟨hslot, hturfId, hturf⟩ : w₁.db.slot? dto.slotId = some slot ∧
        slot.turfId = dto.turfId ∧ (w₁.db.turf? dto.turfId).isSome := by
      simp only [Db.slotWithTurf?, Option.bind_eq_bind, Option.bind_eq_some_iff] at hrow
      obtain ⟨s, hs, hrow⟩ := hrow
      split_ifs at hrow with ht
      simp only [Option.bind_eq_some_iff, Option.some.injEq, Prod.mk.injEq] at hrow
      obtain ⟨t, ht', rfl, rfl⟩ := hrow
      exact ⟨hs, ht, by rw [← ht, ht']; rfl⟩
    have hturf' : ∀ w', Found cfg J c [] w₁ w' → (w'.db.turf? dto.turfId).isSome := by
      intro w' h
      rw [Db.turf?, h.rely.db.turfs]
      exact hturf
    simp only []
    split_ifs with hactive hbooked
    · exact wp_throw_tx fun w'' h' => herr _ _ (h₁.trans h')
    · exact wp_throw_tx fun w'' h' => herr _ _ (h₁.trans h')
    refine wp_query_tx (fun w₂ h₂ => ?_) fun w' h _ => wp_throw_tx fun w'' h' =>
      herr _ _ (h₁.trans (h.forget.trans h'))
    cases (Query.bookingFindFirst userId dto.slotId).eval (w₂.db.applyAll []) with
    | some b => exact wp_throw_tx fun w'' h' => herr _ _ (h₁.trans (h₂.forget.trans h'))
    | none =>
      refine wp_update_tx (fun w₃ h₃ => ?_) fun w' h _ => wp_throw_tx fun w'' h' =>
        herr _ _ (h₁.trans ((h₂.trans h).forget.trans h'))
      have h₃ := h₂.trans h₃
      have hslot₃ : w₃.db.slot? dto.slotId = some slot :=
        (h₃.rely.db.slotLock _ (by simp)).trans hslot
      simp only [Update.plan, Db.applyAll_nil, hslot₃, World.took_zero, List.nil_append]
      exact bookingCreate_wp hJ call rfl (by simp) hslot₃ (by simpa using hbooked) hturfId
        (hturf' _ h₃.forget) (fun b w₄ w' h hc h' => hok b _ w₄ w' (h₁.trans (h₃.forget.trans h))
          (hturf' _ (h₃.forget.trans h)) hc h')
        fun e w' h' => herr e w' (h₁.trans (h₃.forget.trans h'))

/-- The bookings still active once the bookings `ids` are cancelled. -/
theorem mem_activeOn {db : Db} {slots : List SlotId} {ids : List BookingId} {b : Booking} :
    b ∈ (db.apply (.bookingSet ids .CANCELLED)).activeOn slots ids ↔
      b ∈ db.bookings ∧ b.slotId ∈ slots ∧ b.Active ∧ b.id ∉ ids := by
  simp only [Db.activeOn, List.mem_filter, decide_eq_true_eq]
  constructor
  · rintro ⟨hb, hs, ha, hid⟩
    obtain ⟨b', hb', rfl⟩ := Rows.mem_update.mp hb
    split_ifs at hs ha hid ⊢ with hm
    · exact absurd hm hid
    · exact ⟨hb', hs, ha, hid⟩
  · rintro ⟨hb, hs, ha, hid⟩
    exact ⟨Rows.mem_update.mpr ⟨b, hb, (if_neg hid).symm⟩, hs, ha, hid⟩

/-- What was decided under the slot locks still holds when the transaction commits. -/
theorem vacates {w' : World} {ks : List Key} (h : Found cfg J c ks w w') {ids : List BookingId}
    {slots freed : List SlotId} (hk : ∀ s ∈ slots, .slot s ∈ ks)
    (hids : ∀ b ∈ w'.db.bookings, b.id ∈ ids → b.slotId ∈ slots)
    (hmem : ∀ s ∈ freed, s ∈ slots ∧ ∃ b ∈ w'.db.bookings, b.id ∈ ids ∧ b.slotId = s)
    (hv : w.db.Valid cfg)
    (hfreed : ∀ s ∈ slots, s ∈ freed ↔
      ∀ b ∈ w.db.bookings, b.slotId = s → b.Active → b.id ∈ ids) :
    w'.db.Vacates ids freed where
  slots s hs := (hmem s hs).2
  alone s hs b' hb' he ha := by
    obtain ⟨b, hb, hages⟩ := h.onSlot (hk s (hmem s hs).1) b' hb' he
    rw [hages.id_eq]
    exact (hfreed s (hmem s hs).1).mp hs b hb (hages.slotId.symm.trans he) (hages.active ha)
  shared b hb hid hs := by
    have hslot := hids b hb hid
    obtain ⟨b', hb', he, -, hn⟩ : ∃ b' ∈ w.db.bookings, b'.slotId = b.slotId ∧ b'.Active ∧
        b'.id ∉ ids := by
      have hnot := mt (hfreed _ hslot).mpr hs
      simp only [not_forall] at hnot
      obtain ⟨b', hb', he, ha, hn⟩ := hnot
      exact ⟨b', hb', he, ha, hn⟩
    obtain ⟨b'', hb'', hages⟩ := h.booking hv hb'
    exact ⟨b'', hb'', hages.slotId.trans he, fun hm => hn (hages.id_eq ▸ hm)⟩

/-- Under the locks of the booking and its slot, the commit is the cancellation. -/
theorem cancel_commits {w' : World} {userId : UserId} {b : Booking} {freed : List SlotId}
    (call : c.call = .cancel b.id userId) (hstatus : b.status ≠ .CANCELLED)
    (hv : w.db.Valid cfg) (hb : w.db.booking? b.id = some b)
    (h : Found cfg J c [.slot b.slotId, .booking b.id] w w') (hsub : ∀ s ∈ freed, s = b.slotId)
    (hfreed : b.slotId ∈ freed ↔
      (w.db.apply (.bookingSet [b.id] .CANCELLED)).activeOn [b.slotId] [b.id] = []) :
    Commits cfg c w' (.bookingSet [b.id] .CANCELLED :: release freed) := by
  have hmem := (Db.mem_of_booking? ((h.booking? (by simp)).trans hb)).1
  have hone : ∀ b' ∈ w'.db.bookings, b'.id ∈ [b.id] → b' = b := fun b' hb' hid =>
    Rows.eq_of_key h.valid.bookings hb' hmem (List.mem_singleton.mp hid)
  have hk : ∀ s ∈ [b.slotId], Key.slot s ∈ [Key.slot b.slotId, Key.booking b.id] := by simp
  refine .cancel call hmem hstatus (vacates h hk (fun b' hb' hid => ?_) (fun s hs => ?_) hv
    fun s hs => ?_)
  · rw [hone b' hb' hid]
    exact List.mem_singleton.mpr rfl
  · rw [hsub s hs]
    exact ⟨List.mem_singleton.mpr rfl, b, hmem, List.mem_singleton.mpr rfl, rfl⟩
  · rw [List.mem_singleton.mp hs, hfreed, List.eq_nil_iff_forall_not_mem]
    constructor
    · intro hnone b' hb' he ha
      by_contra hn
      exact hnone b' (mem_activeOn.mpr ⟨hb', List.mem_singleton.mpr he, ha, hn⟩)
    · intro hall b' hb'
      obtain ⟨hm, he, ha, hn⟩ := mem_activeOn.mp hb'
      exact hn (hall b' hm (List.mem_singleton.mp he) ha)

theorem cancelTx_wp {id : BookingId} {userId : UserId}
    (call : c.call = .cancel id userId) :
    wp (engine cfg) (rules cfg J allow) c (Script.transaction (cancelTx id))
      (fun _ l _ => l = .idle) .idle w := by
  refine wp_tx (fun w₀ _ => ?_) fun _ _ _ _ _ _ => rfl
  unfold cancelTx
  simp only [Prog.bind_eq, Prog.pure_eq]
  refine wp_lock_tx (fun w₁ h₁ _ => ?_) fun w' _ _ => wp_throw_tx fun _ _ => rfl
  simp only [RowLock.eval, Db.applyAll_nil]
  cases hb : w₁.db.booking? id with
  | none => exact wp_throw_tx fun _ _ => rfl
  | some b =>
    simp only []
    split_ifs with hstatus
    · exact wp_throw_tx fun _ _ => rfl
    refine wp_row_tx (fun _ _ _ _ => rfl) (plan_bookingUpdate cfg id .CANCELLED) fun w₂ h₂ => ?_
    have hb₂ : w₂.db.booking? id = some b := (h₂.booking? (by simp)).trans hb
    refine wp_lock_tx (fun w₃ h₃ _ => ?_) fun w' _ _ => wp_throw_tx fun _ _ => rfl
    refine wp_query_tx (fun w₄ h₄ => ?_) fun w' _ _ => wp_throw_tx fun _ _ => rfl
    obtain rfl : b.id = id := (Db.mem_of_booking? hb).2
    have hb₄ : w₄.db.booking? b.id = some b :=
      (h₄.booking? (by simp)).trans ((h₃.booking? (by simp)).trans hb₂)
    split_ifs with hnone
    · rw [← Prog.bind_ret (update _)]
      refine wp_row_tx (fun _ _ _ _ => rfl) (plan_slotUpdate cfg b.slotId false) fun w₅ h₅ => ?_
      refine wp_ret_tx (fun w₆ h₆ => ⟨⟨?_, by simp [Write.keys, RowLock.eval]⟩, fun _ _ => rfl⟩)
        fun _ _ _ _ _ => rfl
      have h₆ : Found cfg J c [.slot b.slotId, .booking b.id] w₄ w₆ :=
        (h₅.weaken (by simp [RowLock.eval])).trans (h₆.weaken (by simp [RowLock.eval]))
      have hc : Commits cfg c w₆ (.bookingSet [b.id] .CANCELLED :: release [b.slotId]) :=
        cancel_commits call hstatus h₄.valid hb₄ h₆ (by simp) ⟨fun _ => hnone, fun _ => by simp⟩
      exact hc
    · refine wp_ret_tx (fun w₅ h₅ => ⟨⟨?_, by simp [Write.keys, RowLock.eval]⟩, fun _ _ => rfl⟩)
        fun _ _ _ _ _ => rfl
      have h₅ : Found cfg J c [.slot b.slotId, .booking b.id] w₄ w₅ :=
        h₅.weaken (by simp [RowLock.eval])
      have hc : Commits cfg c w₅ (.bookingSet [b.id] .CANCELLED :: release []) :=
        cancel_commits call hstatus h₄.valid hb₄ h₅ (by simp) ⟨by simp, fun he => absurd he hnone⟩
      exact hc

/-- The candidates of a clean-up and those it has locked so far. -/
structure Stale (now : Time) (candidateIds : List BookingId) (rows : List Booking)
    (l : Local Key Write) (w : World) : Prop where
  tx : l.tx = some []
  candidate : ∀ id ∈ candidateIds, ∃ b, w.db.booking? id = some b ∧
    b.createdAt < now - 15 * 60 * 1000
  locked : ∀ b ∈ rows, .booking b.id ∈ l.held
  row : ∀ b ∈ rows, w.db.booking? b.id = some b
  stale : ∀ b ∈ rows, b.status = .PENDING ∧ b.createdAt < now - 15 * 60 * 1000

theorem Stale.found {now : Time} {candidateIds : List BookingId} {rows : List Booking}
    {l : Local Key Write} {w' : World} (h : Stale now candidateIds rows l w)
    (hf : Found cfg J c l.held w w') : Stale now candidateIds rows l w' :=
  { h with
    candidate := fun id hid => by
      obtain ⟨b, hb, ht⟩ := h.candidate id hid
      obtain ⟨b', hb', ha⟩ := hf.rely.db.booking id b hb
      exact ⟨b', hb', ha.createdAt ▸ ht⟩
    row := fun b hb => (hf.booking? (h.locked b hb)).trans (h.row b hb) }

/-- One candidate: locked if it is still PENDING. -/
theorem pendingBooking_wp {now : Time} {candidateIds : List BookingId} {rows : List Booking}
    {l : Local Key Write} {id : BookingId} (hid : id ∈ candidateIds)
    (h : Stale now candidateIds rows l w) :
    wp (engine cfg) (rules cfg J allow) c (lockRow (.pendingBooking id))
      (Keeps (fun row => Stale now candidateIds (rows ++ row.toList)) fun _ _ _ => True) l w := by
  obtain ⟨tx, ks⟩ := l
  obtain rfl : tx = some [] := h.tx
  rw [← Prog.bind_ret (lockRow _)]
  refine wp_lock_tx (fun w₁ h₁ _ => ?_) fun _ _ _ _ _ _ => trivial
  have h₁ := h.found h₁
  simp only [RowLock.eval, Db.applyAll_nil]
  obtain ⟨b, hb, ht⟩ := h₁.candidate id hid
  rw [hb]
  simp only []
  split_ifs with hp
  · intro w₂ hr hi
    have h₂ : Found cfg J c _ w₁ w₂ := ⟨hr, hi.1, hi.2⟩
    refine Stale.found ?_ h₂
    obtain rfl : b.id = id := (Db.mem_of_booking? hb).2
    refine ⟨rfl, h₁.candidate, fun b' hb' => ?_, fun b' hb' => ?_, fun b' hb' => ?_⟩
    · rcases List.mem_append.mp hb' with hb' | hb'
      · simp [h₁.locked b' hb']
      · simp only [Option.toList_some, List.mem_singleton] at hb'
        simp [hb']
    · rcases List.mem_append.mp hb' with hb' | hb'
      · exact h₁.row b' hb'
      · simp only [Option.toList_some, List.mem_singleton] at hb'
        rw [hb', hb]
    · rcases List.mem_append.mp hb' with hb' | hb'
      · exact h₁.stale b' hb'
      · simp only [Option.toList_some, List.mem_singleton] at hb'
        exact hb' ▸ ⟨hp, ht⟩
  · intro w₂ hr hi
    simp only [Keeps, Option.toList_none, List.append_nil]
    exact h₁.found ⟨hr, hi.1, hi.2⟩

/-- The stale rows and the slots locked for them so far. -/
structure SlotsLocked (now : Time) (rows : List Booking) (ws : List Write) (slots : List SlotId)
    (l : Local Key Write) (w : World) : Prop where
  tx : l.tx = some ws
  locked : ∀ b ∈ rows, .booking b.id ∈ l.held
  row : ∀ b ∈ rows, w.db.booking? b.id = some b
  slots : ∀ s ∈ slots, .slot s ∈ l.held

theorem SlotsLocked.found {now : Time} {rows : List Booking} {ws : List Write}
    {slots : List SlotId} {l : Local Key Write} {w' : World}
    (h : SlotsLocked now rows ws slots l w) (hf : Found cfg J c l.held w w') :
    SlotsLocked now rows ws slots l w' :=
  { h with row := fun b hb => (hf.booking? (h.locked b hb)).trans (h.row b hb) }

theorem slot_wp {now : Time} {rows : List Booking} {ws : List Write} {slots : List SlotId}
    {l : Local Key Write} {id : SlotId} (h : SlotsLocked now rows ws slots l w) :
    wp (engine cfg) (rules cfg J allow) c (lockRow (.slot id))
      (Keeps (fun _ => SlotsLocked now rows ws (slots ++ [id])) fun _ _ _ => True) l w := by
  obtain ⟨tx, ks⟩ := l
  obtain rfl : tx = some ws := h.tx
  rw [← Prog.bind_ret (lockRow _)]
  refine wp_lock_tx (fun w₁ h₁ _ w₂ hr hi => ?_) fun _ _ _ _ _ _ => trivial
  have h₁ := h.found h₁
  have h₂ : Found cfg J c _ w₁ w₂ := ⟨hr, hi.1, hi.2⟩
  refine SlotsLocked.found ?_ h₂
  refine ⟨rfl, fun b hb => ?_, h₁.row, fun s hs => ?_⟩
  · simp [RowLock.eval, h₁.locked b hb]
  · rcases List.mem_append.mp hs with hs | hs
    · simp [RowLock.eval, h₁.slots s hs]
    · simp [RowLock.eval, List.mem_singleton.mp hs]

theorem activeOn_congr {db : Db} {slots : List SlotId} {ids ids' : List BookingId}
    (h : ∀ id, id ∈ ids ↔ id ∈ ids') : db.activeOn slots ids = db.activeOn slots ids' := by
  simp only [Db.activeOn, h]

/-- The bulk update finds exactly the locked rows. -/
theorem Stale.updated {now : Time} {candidateIds : List BookingId} {rows : List Booking}
    {l : Local Key Write} (h : Stale now candidateIds rows l w) (id : BookingId) :
    id ∈ ((w.db.bookings.filter fun b => b.id ∈ rows.map (·.id) ∧ b.status = .PENDING).map
      (·.id)) ↔ id ∈ rows.map (·.id) := by
  simp only [List.mem_map, List.mem_filter, decide_eq_true_eq]
  constructor
  · rintro ⟨b, ⟨-, hm, -⟩, rfl⟩
    exact hm
  · rintro ⟨b, hb, rfl⟩
    exact ⟨b, ⟨(Db.mem_of_booking? (h.row b hb)).1, ⟨b, hb, rfl⟩, (h.stale b hb).1⟩, rfl⟩

/-- Under the locks of the stale rows and their slots, the commit is their clean-up. -/
theorem cleanup_commits {w' : World} {now : Time} {rows active : List Booking}
    {ws : List Write} {ids : List BookingId} {tx : Option (List Write)} {ks : List Key}
    (call : c.call = .cleanupStalePendingBookings now) (hv : w.db.Valid cfg)
    (hstale : ∀ b ∈ rows, b.status = .PENDING ∧ b.createdAt < now - 15 * 60 * 1000)
    (hrows : ∀ id, id ∈ ids ↔ id ∈ rows.map (·.id))
    (hlock : SlotsLocked now rows ws (rows.map (·.slotId)) ⟨tx, ks⟩ w)
    (hactive : ∀ b, b ∈ active ↔ b ∈ w.db.bookings ∧ b.slotId ∈ rows.map (·.slotId) ∧
      b.Active ∧ b.id ∉ ids)
    (h : Found cfg J c ks w w') :
    Commits cfg c w' (.bookingSet ids .CANCELLED ::
      release ((rows.map (·.slotId)).filter fun id => id ∉ active.map (·.slotId))) := by
  have hrow : ∀ b ∈ rows, w'.db.booking? b.id = some b := (hlock.found h).row
  refine .cleanup call (fun id hid => ?_) (vacates h hlock.slots (fun b hb hid => ?_)
    (fun s hs => ?_) hv fun s hs => ?_)
  · obtain ⟨b, hb, rfl⟩ := List.mem_map.mp ((hrows id).mp hid)
    exact ⟨b, (Db.mem_of_booking? (hrow b hb)).1, rfl, hstale b hb⟩
  · obtain ⟨b', hb', he⟩ := List.mem_map.mp ((hrows b.id).mp hid)
    have hsome := h.valid.booking?_of_mem hb
    rw [← he, hrow b' hb'] at hsome
    exact Option.some.inj hsome ▸ List.mem_map_of_mem hb'
  · obtain ⟨hs, -⟩ := List.mem_filter.mp hs
    obtain ⟨b, hb, rfl⟩ := List.mem_map.mp hs
    exact ⟨hs, b, (Db.mem_of_booking? (hrow b hb)).1,
      (hrows b.id).mpr (List.mem_map_of_mem hb), rfl⟩
  · rw [List.mem_filter, decide_eq_true_eq]
    constructor
    · rintro ⟨-, hn⟩ b hb he ha
      by_contra hid
      exact hn (List.mem_map.mpr ⟨b, (hactive b).mpr ⟨hb, he ▸ hs, ha, hid⟩, he⟩)
    · intro hall
      refine ⟨hs, fun hm => ?_⟩
      obtain ⟨b, hb, he⟩ := List.mem_map.mp hm
      obtain ⟨hb, -, ha, hid⟩ := (hactive b).mp hb
      exact hid (hall b hb he ha)

theorem cleanupTx_wp (hJ : Stable cfg J) {now : Time} {candidateIds : List BookingId}
    (call : c.call = .cleanupStalePendingBookings now)
    (hcand : ∀ id ∈ candidateIds, ∃ b, w.db.booking? id = some b ∧
      b.createdAt < now - 15 * 60 * 1000) :
    wp (engine cfg) (rules cfg J allow) c (Script.transaction (cleanupTx candidateIds))
      (fun _ l _ => l = .idle) .idle w := by
  have hP : (rules cfg J allow).Lawful (engine cfg) := rules_lawful hJ
  refine wp_tx (fun w₀ h₀ => ?_) fun _ _ _ _ _ _ => rfl
  unfold cleanupTx
  simp only [Prog.bind_eq, Prog.pure_eq]
  have hstart : Stale now candidateIds [] ⟨some [], []⟩ w₀ := by
    refine ⟨rfl, fun id hid => ?_, by simp, by simp, by simp⟩
    obtain ⟨b, hb, ht⟩ := hcand id hid
    obtain ⟨b', hb', ha⟩ := h₀.rely.db.booking id b hb
    exact ⟨b', hb', ha.createdAt ▸ ht⟩
  refine wp_bind hP (wp_mono (wp_collect hP
    (J := fun rows l w => Stale now candidateIds rows l w) (Z := fun _ _ _ => True)
    (fun id hid rows l w h => pendingBooking_wp hid h)
    (fun rows l w w' h hr hi => h.found ⟨hr, hi.1, hi.2⟩) hstart) ?_)
  rintro (e | rows) l w₁ hi₁ hq
  · exact fun _ _ _ => rfl
  obtain ⟨tx, ks⟩ := l
  have hq : Stale now candidateIds rows ⟨tx, ks⟩ w₁ := hq
  obtain rfl : tx = some [] := hq.tx
  simp only []
  split_ifs with hempty
  · exact wp_ret_tx (fun w₂ _ => ⟨⟨.nothing call, by simp⟩, fun _ _ => rfl⟩)
      fun _ _ _ _ _ => rfl
  refine wp_update_tx (fun w₂ h₂ => ?_) fun w' _ _ => wp_throw_tx fun _ _ => rfl
  have h₂ := hq.found h₂
  have hrows := h₂.updated
  simp only [Update.plan, Db.applyAll_nil, resume_ok, World.took_zero, List.nil_append]
  generalize (w₂.db.bookings.filter fun b =>
    b.id ∈ rows.map (·.id) ∧ b.status = .PENDING).map (·.id) = ids at hrows ⊢
  have hlock : SlotsLocked now rows [.bookingSet ids .CANCELLED] []
      ⟨some [.bookingSet ids .CANCELLED], ids.map .booking ++ ks⟩ w₂ :=
    ⟨rfl, fun b hb => List.mem_append_right _ (hq.locked b hb), h₂.row, by simp⟩
  refine wp_bind hP (wp_mono (wp_forEach hP
    (J := fun past l w => SlotsLocked now rows [.bookingSet ids .CANCELLED] past l w)
    (Z := fun _ _ _ => True) (fun id _ past l w h => slot_wp h)
    (fun past l w w' h hr hi => h.found ⟨hr, hi.1, hi.2⟩) hlock) ?_)
  rintro (e | _) l w₃ hi₃ hs
  · exact fun _ _ _ => rfl
  obtain ⟨tx, ks'⟩ := l
  have hs : SlotsLocked now rows [.bookingSet ids .CANCELLED] (rows.map (·.slotId)) ⟨tx, ks'⟩ w₃ := hs
  obtain rfl : tx = some [.bookingSet ids .CANCELLED] := hs.tx
  refine wp_query_tx (fun w₄ h₄ => ?_) fun w' _ _ => wp_throw_tx fun _ _ => rfl
  have hvalid₄ := h₄.valid
  have h₄ := hs.found h₄
  generalize hA : (Query.bookingFindActive (rows.map (·.slotId)) (rows.map (·.id))).eval
    (w₄.db.applyAll [.bookingSet ids .CANCELLED]) = A
  have hactive : ∀ b, b ∈ A ↔ b ∈ w₄.db.bookings ∧ b.slotId ∈ rows.map (·.slotId) ∧ b.Active ∧
      b.id ∉ ids := by
    intro b
    rw [← hA, ← mem_activeOn, activeOn_congr hrows]
    rfl
  have hcommit := fun w' => @cleanup_commits cfg J c w₄ w' now rows A _ ids _ ks' call hvalid₄
    h₂.stale hrows h₄ hactive
  have hkeys : ∀ id ∈ ids, .booking id ∈ ks' := by
    intro id hid
    obtain ⟨b, hb, rfl⟩ := List.mem_map.mp ((hrows id).mp hid)
    exact h₄.locked b hb
  generalize (rows.map (·.slotId)).filter (fun id => id ∉ A.map (·.slotId)) = freed at hcommit ⊢
  split_ifs with hfreed
  · refine wp_ret_tx (fun w₅ h₅ => ⟨⟨?_, ?_⟩, fun _ _ => rfl⟩) fun _ _ _ _ _ => rfl
    · have hc := hcommit w₅ h₅
      rwa [hfreed] at hc
    · simpa [Write.keys] using hkeys
  · refine wp_update_tx (fun w₅ h₅ => ?_) fun w' _ _ => wp_throw_tx fun _ _ => rfl
    refine wp_ret_tx (fun w₆ h₆ => ⟨⟨?_, ?_⟩, fun _ _ => rfl⟩) fun _ _ _ _ _ => rfl
    · have hc := hcommit w₆ (h₅.trans (h₆.weaken fun k hk => List.mem_append_right _ hk))
      unfold release at hc
      rwa [if_neg hfreed] at hc
    · simp only [Update.plan, List.mem_append, List.mem_singleton]
      rintro x (rfl | rfl) k hk
      · obtain ⟨id, hid, rfl⟩ := List.mem_map.mp hk
        exact .inr (hkeys id hid)
      · exact .inl hk

/-! ### Whole calls -/

theorem cancel_wp (hJ : Stable cfg J) {id : BookingId} {userId : UserId}
    (call : c.call = .cancel id userId) :
    wp (engine cfg) (rules cfg J allow) c (cancel id userId) (fun _ _ _ => True) .idle w := by
  have hP : (rules cfg J allow).Lawful (engine cfg) := rules_lawful hJ
  unfold cancel
  simp only [Prog.bind_eq, Prog.pure_eq]
  refine wp_query (fun w₁ h₁ => ?_) fun w' _ _ => wp_throw fun _ _ => trivial
  simp only [Query.eval]
  split
  · exact wp_throw fun _ _ => trivial
  split_ifs
  · exact wp_throw fun _ _ => trivial
  · exact wp_throw fun _ _ => trivial
  refine wp_bind hP (wp_mono (cancelTx_wp call) ?_)
  rintro (e | _) l w₂ hi rfl
  · trivial
  refine wp_delByPattern hJ fun w₃ h₃ => wp_quietly hJ (external_found hJ) fun w₄ h₄ => ?_
  exact fun _ _ _ => trivial

theorem cleanup_wp (hJ : Stable cfg J) {now : Time}
    (call : c.call = .cleanupStalePendingBookings now) :
    wp (engine cfg) (rules cfg J allow) c (cleanupStalePendingBookings now)
      (fun _ _ _ => True) .idle w := by
  have hP : (rules cfg J allow).Lawful (engine cfg) := rules_lawful hJ
  unfold cleanupStalePendingBookings
  simp only [Prog.bind_eq, Prog.pure_eq]
  refine wp_query (fun w₁ h₁ => ?_) fun w' _ _ => wp_throw fun _ _ => trivial
  split_ifs
  · exact fun _ _ _ => trivial
  refine wp_bind hP (wp_mono (cleanupTx_wp hJ call fun id hid => ?_) ?_)
  · obtain ⟨b, hb, rfl⟩ := List.mem_map.mp hid
    simp only [Query.eval, List.mem_filter, decide_eq_true_eq] at hb
    exact ⟨b, h₁.valid.booking?_of_mem hb.1, hb.2.2⟩
  rintro (e | rows) l w₂ hi rfl
  · trivial
  refine wp_bind hP (wp_mono (wp_forEach hP (J := fun _ l _ => l = .idle)
    (Z := fun _ _ _ => True) (fun id _ past l w h => ?_) (fun _ _ _ _ h _ _ => h) rfl) ?_)
  · subst h
    rw [← Prog.bind_ret (delByPattern id)]
    exact wp_delByPattern hJ fun w' _ _ _ _ => rfl
  · rintro (e | _) l w₃ hi hq
    · trivial
    · exact fun _ _ _ => trivial

end BookingService

end TurfSync
