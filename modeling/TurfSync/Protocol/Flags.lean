import TurfSync.Guarantees.Invalidation
import TurfSync.Txn.Automaton

/-! Which slots `create` and `cancel` change when they run alone: `create` the flag of the free
slot it is for, `cancel` that of the slot of a booking that was the last active one on it. -/

namespace TurfSync

open Txn

/-- From `db` on, flags of slots in `dirty` may have changed, and nothing else of the slots and
the turfs. -/
structure Db.Flagged (dirty : Slot → Prop) (db db' : Db) : Prop where
  turfs : db'.turfs = db.turfs
  slots : ∃ flag : Slot → Bool, db'.slots = db.slots.map (fun s => { s with isBooked := flag s }) ∧
    ∀ s ∈ db.slots, flag s ≠ s.isBooked → dirty s

/-- Every flag that the write changes is in `dirty`. -/
def Write.Flags (dirty : Slot → Prop) (db : Db) : Write → Prop
  | .slotSet ids v => ∀ s ∈ db.slots, s.id ∈ ids → s.isBooked ≠ v → dirty s
  | _ => True

/-- The commands that make such writes only. -/
def Flagging (dirty : Slot → Prop) (db : Db) : Cmd Stmt → Prop
  | .stmt (.update (.slotUpdate id v)) => ∀ s ∈ db.slots, s.id = id → s.isBooked ≠ v → dirty s
  | .stmt (.update (.slotUpdateMany ids v)) => ∀ s ∈ db.slots, s.id ∈ ids → s.isBooked ≠ v → dirty s
  | _ => True

/-- A call that found the database `db`. -/
structure Flips (dirty : Slot → Prop) (db : Db) (l : Local Key Write) (w : World) : Prop where
  writes : ∀ x ∈ l.tx.getD [], x.Flags dirty db
  db : db.Flagged dirty w.db

section

variable {cfg : Config} {dirty : Slot → Prop} {db db' : Db} {l : Local Key Write} {w : World}

namespace Db.Flagged

theorem refl (dirty : Slot → Prop) (db : Db) : db.Flagged dirty db where
  turfs := rfl
  slots := ⟨fun s => s.isBooked, (List.map_id _).symm, fun _ _ h => absurd rfl h⟩

/-- No flag may have changed. -/
theorem slots_eq (h : db.Flagged (fun _ => False) db') : db'.slots = db.slots := by
  obtain ⟨flag, hslots, hflag⟩ := h.slots
  refine hslots.trans ((List.map_congr_left fun s hs => ?_).trans (List.map_id _))
  have hsame : flag s = s.isBooked := by
    by_contra hne
    exact hflag s hs hne
  rw [hsame]
  rfl

theorem mono (h : db.Flagged (fun _ => False) db') (dirty : Slot → Prop) : db.Flagged dirty db' where
  turfs := h.turfs
  slots := ⟨fun s => s.isBooked, h.slots_eq.trans (List.map_id _).symm, fun _ _ hne => absurd rfl hne⟩

theorem write (h : db.Flagged dirty db') {x : Write} (hx : x.Flags dirty db) :
    db.Flagged dirty (db'.apply x) := by
  cases x with
  | slotSet ids v =>
    obtain ⟨flag, hslots, hflag⟩ := h.slots
    refine ⟨h.turfs, fun s => if s.id ∈ ids then v else flag s, ?_, fun s hs hne => ?_⟩
    · have hset : (db'.apply (.slotSet ids v)).slots = Db.setSlots ids v db'.slots := rfl
      rw [hset, hslots, Db.setSlots, Rows.update, List.map_map]
      refine List.map_congr_left fun s _ => ?_
      by_cases hid : s.id ∈ ids <;> simp [hid]
    · dsimp only at hne
      split_ifs at hne with hid
      · exact hx s hs hid (Ne.symm hne)
      · exact hflag s hs hne
  | _ => exact ⟨h.turfs, h.slots⟩

theorem writes (h : db.Flagged dirty db') {ws : List Write} (hws : ∀ x ∈ ws, x.Flags dirty db) :
    db.Flagged dirty (db'.applyAll ws) := by
  induction ws generalizing db' with
  | nil => exact h
  | cons x ws ih =>
    exact ih (h.write (hws x List.mem_cons_self)) fun y hy => hws y (List.mem_cons_of_mem x hy)

end Db.Flagged

theorem plan_flags {u : Update} (hu : Flagging dirty db (.stmt (.update u))) (db' : Db) (uuid : ℕ)
    (now : Time) : ∀ x ∈ (u.plan cfg db' uuid now).writes, x.Flags dirty db := by
  intro x hx
  have hputs := puts_of_mem hx
  cases u with
  | slotUpdate id v =>
    obtain rfl := hputs
    exact fun s hs hid => hu s hs (List.mem_singleton.mp hid)
  | slotUpdateMany ids v =>
    obtain rfl := hputs
    exact hu
  | bookingCreate | bookingUpdateManyPending | paymentUpdateMany | couponUsageCreate =>
    obtain ⟨_, rfl⟩ := hputs
    trivial
  | paymentUpsert => obtain ⟨_, rfl⟩ | rfl := hputs <;> trivial
  | _ =>
    obtain rfl := hputs
    trivial

theorem act_flags {s : Stmt} (hs : Flagging dirty db (.stmt s)) (v w : World) :
    ∀ x ∈ ((engine cfg).act s v w).writes, x.Flags dirty db := by
  cases s with
  | update u => exact plan_flags hs v.db _ _
  | _ => exact fun x hx => by cases hx

/-- A command of the call. -/
theorem Flips.exec {c : Session Call} (h : Flips dirty db l w) {m : Cmd Stmt} (hm : Flagging dirty db m) :
    Flips dirty db ((engine cfg).exec l w m).loc ((engine cfg).after c ((engine cfg).exec l w m)) := by
  have hidle : ∀ {w : World}, db.Flagged dirty w.db → Flips dirty db .idle w := fun hw => ⟨by simp, hw⟩
  cases m with
  | begin => exact ⟨by simp [Engine.exec], h.db⟩
  | commit =>
    have hall : db.Flagged dirty (w.db.applyAll (l.tx.getD [])) := h.db.writes h.writes
    exact hidle hall
  | rollback => exact hidle h.db
  | stmt s =>
    cases htx : l.tx with
    | some ws =>
      obtain ⟨o, ho, -⟩ := act_out cfg s ((engine cfg).view ws w) w
      rw [Engine.after_tx htx, Engine.exec_tx htx]
      refine ⟨fun x hx => ?_, ?_⟩
      · rcases List.mem_append.mp hx with hx | hx
        · exact h.writes x (by simpa [htx] using hx)
        · exact act_flags hm _ _ x hx
      · exact (congrArg (fun w' : World => db.Flagged dirty w'.db) ho).mpr h.db
    | none =>
      obtain ⟨o, ho, -⟩ := act_out cfg s w w
      rw [Engine.after_auto htx, Engine.exec_auto htx]
      refine ⟨by simp [htx], ?_⟩
      split_ifs
      · rw [ho]
        exact h.db
      · have hall : db.Flagged dirty (((engine cfg).act s w w).world.db.applyAll
            ((engine cfg).act s w w).writes) := by
          rw [ho]
          exact h.db.writes (act_flags hm _ _)
        exact hall

theorem Flips.mono (h : Flips (fun _ => False) db l w) (dirty : Slot → Prop) : Flips dirty db l w where
  writes x hx := by
    have hflags := h.writes x hx
    cases x with
    | slotSet ids v => exact fun s hs hid hne => (hflags s hs hid hne).elim
    | _ => trivial
  db := h.db.mono dirty

/-- A call that finds the slots and the turfs as they are in `db`. -/
theorem Flips.of_eq {db₀ : Db} (h : Flips dirty db₀ l w) (hturfs : db₀.turfs = db.turfs)
    (hslots : db₀.slots = db.slots) : Flips dirty db l w where
  writes x hx := by
    have hflags := h.writes x hx
    cases x with
    | slotSet ids v => exact fun s hs => hflags s (hslots ▸ hs)
    | _ => trivial
  db := ⟨h.db.turfs.trans hturfs, hslots ▸ h.db.slots⟩

/-- A call that sets no flag is such a call, whatever is in `dirty`. -/
theorem flagging_of_tame {m : Cmd Stmt} (hm : Tame m) (dirty : Slot → Prop) (db : Db) :
    Flagging dirty db m := by
  cases m with
  | stmt s =>
    cases s with
    | update u =>
      cases u with
      | slotUpdate id v => exact fun s hs hid hne => (hm db s hs hid hne).elim
      | slotUpdateMany ids v => exact fun s hs hid hne => (hm db s hs hid hne).elim
      | _ => trivial
    | _ => trivial
  | _ => trivial

end

section

variable {cfg : Config} {c : Session Call} {dirty : Slot → Prop} {db : Db} {w : World} {α β : Type}
  {l : Local Key Write}

/-- A call, or a part of one, that has changed flags in `dirty` only. -/
abbrev Flipped (dirty : Slot → Prop) (db : Db) (r : Except Err α × Local Key Write × World) : Prop :=
  Flips dirty db r.2.1 r.2.2

theorem uses_flipped {Q : α → Prop} {p : Op α} (hp : Script.Uses (Flagging dirty db) Q p)
    (h : Flips dirty db l w) : Flipped dirty db ((engine cfg).solo c p l w) :=
  (Engine.solo_uses (I := Flips dirty db) (fun _ _ _ h hm => h.exec hm) hp h).2

theorem harmless_flipped {p : Op α} (hp : Harmless p) (h : Flips dirty db l w) :
    Flipped dirty db ((engine cfg).solo c p l w) :=
  uses_flipped (Script.uses_mono hp fun _ hm => flagging_of_tame hm dirty db) h

theorem flipped_bind {p : Op α} {f : α → Op β} (hp : Flipped dirty db ((engine cfg).solo c p l w))
    (hf : ∀ a l' w', Flips dirty db l' w' → Flipped dirty db ((engine cfg).solo c (f a) l' w')) :
    Flipped dirty db ((engine cfg).solo c (p.bind f) l w) := by
  rw [Engine.solo_bind]
  rcases hr : (engine cfg).solo c p l w with ⟨e | a, l', w'⟩
  · rw [hr] at hp
    exact hp
  · rw [hr] at hp
    exact hf a l' w' hp

/-- What follows a part that sets no flag. -/
theorem calm_bind {p : Op α} {f : α → Op β} (hp : Harmless p) (h : Flips (fun _ => False) db l w)
    (hf : ∀ a l' w', Flips (fun _ => False) db l' w' → Flipped dirty db ((engine cfg).solo c (f a) l' w')) :
    Flipped dirty db ((engine cfg).solo c (p.bind f) l w) := by
  have hcalm : Flipped (fun _ => False) db ((engine cfg).solo c p l w) := harmless_flipped hp h
  rw [Engine.solo_bind]
  rcases hr : (engine cfg).solo c p l w with ⟨e | a, l', w'⟩
  · rw [hr] at hcalm
    exact hcalm.mono dirty
  · rw [hr] at hcalm
    exact hf a l' w' hcalm

theorem flipped_tryFinally {p : Op α} {fin : Op Unit}
    (hp : Flipped dirty db ((engine cfg).solo c p l w)) (hfin : Harmless fin) :
    Flipped dirty db ((engine cfg).solo c (p.tryFinally fin) l w) := by
  rw [Engine.solo_tryFinally]
  rcases hr : (engine cfg).solo c p l w with ⟨r, l', w'⟩
  rw [hr] at hp
  refine harmless_flipped (harmless_bind hfin fun _ => ?_) hp
  cases r <;> trivial

theorem flipped_transaction {p : Op α}
    (h : Flipped dirty db ((engine cfg).solo c p ⟨some [], l.held⟩ w)) :
    Flipped dirty db ((engine cfg).solo c (Script.transaction p) l w) := by
  have htx : (engine cfg).solo c (Script.transaction p) l w =
      (engine cfg).solo c (Script.inTx p) ⟨some [], l.held⟩ w := rfl
  rw [htx, Engine.solo_inTx]
  rcases hr : (engine cfg).solo c p ⟨some [], l.held⟩ w with ⟨e | a, l', w'⟩
  · rw [hr] at h
    exact ⟨by simp, h.db⟩
  · rw [hr] at h
    have hall : db.Flagged dirty (w'.db.applyAll (l'.tx.getD [])) := h.db.writes h.writes
    exact ⟨by simp, hall⟩

end

/-! ### `create` -/

namespace BookingService

variable {cfg : Config} {c : Session Call} {w : World} {l : Local Key Write}

/-- The slot that `create` is for, if it is free. -/
def FreeSlot (dto : CreateBookingDto) (db : Db) (s : Slot) : Prop :=
  s.id = dto.slotId ∧ s.isBooked = false ∧
    ∃ row ∈ db.slotWithTurf? dto.slotId dto.turfId, row.1.isBooked = false ∧ row.2.isActive = true

instance (dto : CreateBookingDto) (db : Db) : DecidablePred (FreeSlot dto db) :=
  fun _ => inferInstanceAs (Decidable (_ ∧ _ ∧ ∃ row ∈ db.slotWithTurf? _ _, _))

/-- The slot of a booking that its user can cancel, if no other active booking is on it. -/
def LastOn (id : BookingId) (userId : UserId) (db : Db) (s : Slot) : Prop :=
  s.isBooked = true ∧ ∃ b ∈ db.booking? id, s.id = b.slotId ∧ b.userId = userId ∧
    b.status ≠ .CANCELLED ∧ db.activeOn [b.slotId] [id] = []

instance (id : BookingId) (userId : UserId) (db : Db) : DecidablePred (LastOn id userId db) :=
  fun _ => inferInstanceAs (Decidable (_ ∧ ∃ b ∈ db.booking? id, _))

theorem createTx_flipped (dto : CreateBookingDto) (userId : UserId) (coupon : Option ValidatedCoupon) :
    Flipped (FreeSlot dto w.db) w.db
      ((engine cfg).solo c (Script.transaction (createTx dto userId coupon)) l w) := by
  have hstart : ∀ ks, Flips (FreeSlot dto w.db) w.db ⟨some [], ks⟩ w :=
    fun ks => ⟨by simp, .refl _ _⟩
  refine flipped_transaction ?_
  rw [createTx, Prog.bind_eq, Engine.solo_bind, solo_lock_tx, Db.applyAll_nil]
  simp only [RowLock.eval, Engine.andThen_ok]
  cases hrow : w.db.slotWithTurf? dto.slotId dto.turfId with
  | none => exact hstart _
  | some row =>
    obtain ⟨slot, turf⟩ := row
    refine uses_flipped (Q := fun _ => True) ?_ (hstart _)
    simp only
    split_ifs with hactive hbooked
    · trivial
    · trivial
    refine Script.uses_perform_bind trivial fun existingBooking => ?_
    cases existingBooking with
    | some b => trivial
    | none =>
      refine Script.uses_perform_bind (fun s hs hid hne => ?_) fun _ =>
        Script.uses_perform_bind trivial fun _ => trivial
      exact ⟨hid, by simpa using hne, (slot, turf), hrow, by simpa using hbooked, by simpa using hactive⟩

theorem createLocked_flipped (dto : CreateBookingDto) (userId : UserId) (coupon : Option ValidatedCoupon) :
    Flipped (FreeSlot dto w.db) w.db ((engine cfg).solo c (createLocked dto userId coupon) l w) := by
  refine flipped_bind (createTx_flipped dto userId coupon) ?_
  rintro ⟨booking, slot⟩ l' w' h
  have hrest : Harmless (do
      quietly (external (.queueAdd
        (.bookingConfirmed booking.id dto.date slot.startTime userId dto.turfId)))
      pure (.booking booking) : Op Reply) :=
    harmless_bind (harmless_quietly (harmless_external _)) fun _ => trivial
  refine harmless_flipped (harmless_bind (harmless_quietly (harmless_external _)) fun _ => ?_) h
  cases coupon with
  | none => exact hrest
  | some quote => exact harmless_bind CouponService.applyCoupon_harmless fun _ => hrest

/-- What `create` changes. -/
theorem create_flagged (dto : CreateBookingDto) (userId : UserId) (now : Time) :
    w.db.Flagged (FreeSlot dto w.db) ((engine cfg).solo c (create cfg dto userId now) .idle w).2.2.db := by
  have hstart : Flips (fun _ => False) w.db .idle w := ⟨by simp, .refl _ _⟩
  refine Flips.db (l := ((engine cfg).solo c (create cfg dto userId now) .idle w).2.1) ?_
  unfold create
  simp only
  split_ifs
  · exact hstart.mono _
  · exact hstart.mono _
  refine calm_bind couponData_harmless hstart fun coupon l₁ w₁ h₁ => ?_
  refine calm_bind (harmless_external _) h₁ fun lockValue l₂ w₂ h₂ => ?_
  cases lockValue with
  | none => exact h₂.mono _
  | some value =>
    refine flipped_tryFinally ?_ (harmless_bind (harmless_external _) fun _ => trivial)
    have hslots := h₂.db.slots_eq
    have hfree : FreeSlot dto w₂.db = FreeSlot dto w.db := by
      funext s
      simp only [FreeSlot, Db.slotWithTurf?, Db.slot?, Db.turf?, hslots, h₂.db.turfs]
    exact hfree ▸ (createLocked_flipped dto userId coupon).of_eq h₂.db.turfs hslots

/-! ### `cancel` -/

theorem cancelTx_flipped {id : BookingId} {userId : UserId} {b : Booking}
    (hb : w.db.booking? id = some b) (huser : b.userId = userId) (hstatus : b.status ≠ .CANCELLED) :
    Flipped (LastOn id userId w.db) w.db
      ((engine cfg).solo c (Script.transaction (cancelTx id)) l w) := by
  have hflips : ∀ ws ks, (∀ x ∈ ws, x.Flags (LastOn id userId w.db) w.db) →
      Flips (LastOn id userId w.db) w.db ⟨some ws, ks⟩ w := fun ws ks hws => ⟨hws, .refl _ _⟩
  refine flipped_transaction ?_
  rw [cancelTx, Prog.bind_eq, Engine.solo_bind, solo_lock_tx, Db.applyAll_nil]
  simp only [RowLock.eval, Engine.andThen_ok, hb, if_neg hstatus]
  rw [Prog.bind_eq, Engine.solo_bind]
  obtain hbook | hbook := @PaymentService.solo_bookingUpdate_tx cfg c w []
    ([.booking id] ++ l.held) id .CANCELLED
  · rw [hbook]
    exact hflips _ _ (by simp)
  rw [hbook, Engine.andThen_ok, Prog.bind_eq, Engine.solo_bind, solo_lock_tx, Engine.andThen_ok,
    Prog.bind_eq, Engine.solo_bind, solo_query_tx, Engine.andThen_ok]
  refine uses_flipped (Q := fun _ => True) ?_ (hflips _ _ (by simp [Write.Flags]))
  split_ifs with hactive
  · refine Script.uses_perform fun s hs hid hflag => ?_
    refine ⟨by simpa using hflag, b, hb, hid, huser, hstatus, ?_⟩
    refine List.eq_nil_iff_forall_not_mem.mpr fun b' hb' => ?_
    simp only [Db.activeOn, List.mem_filter, decide_eq_true_eq] at hb'
    have hmem : b' ∈ (w.db.apply (.bookingSet [id] .CANCELLED)).activeOn [b.slotId] [id] :=
      mem_activeOn.mpr hb'
    have hnil : (w.db.apply (.bookingSet [id] .CANCELLED)).activeOn [b.slotId] [id] = [] := hactive
    rw [hnil] at hmem
    cases hmem
  · trivial

/-- What `cancel` changes. -/
theorem cancel_flagged (id : BookingId) (userId : UserId) :
    w.db.Flagged (LastOn id userId w.db) ((engine cfg).solo c (cancel id userId) .idle w).2.2.db := by
  have hstart : Flips (LastOn id userId w.db) w.db .idle w := ⟨by simp, .refl _ _⟩
  refine Flips.db (l := ((engine cfg).solo c (cancel id userId) .idle w).2.1) ?_
  rw [cancel, Prog.bind_eq, Engine.solo_bind, solo_query]
  simp only [Query.eval, Engine.andThen_ok]
  cases hb : w.db.booking? id with
  | none => exact hstart
  | some b =>
    simp only
    split_ifs with huser hstatus
    · exact hstart
    · exact hstart
    refine flipped_bind (cancelTx_flipped hb (not_not.mp huser) hstatus) fun _ l' w' h => ?_
    exact harmless_flipped (harmless_bind (harmless_quietly (harmless_external _)) fun _ =>
      harmless_bind (harmless_quietly (harmless_external _)) fun _ => trivial) h

end BookingService

end TurfSync
