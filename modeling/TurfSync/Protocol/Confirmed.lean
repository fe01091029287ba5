import TurfSync.Protocol.Runs

/-! Which bookings a commit has made CONFIRMED: those whose payment a registered event has
reported, unless a commit cancelled the booking while it was PENDING. -/

namespace TurfSync

open Txn

/-- The write gives the booking the status. -/
def Write.Sets (status : BookingStatus) (id : BookingId) : Write → Prop
  | .bookingSet ids st => st = status ∧ id ∈ ids
  | _ => False

instance (status : BookingStatus) (id : BookingId) (x : Write) : Decidable (x.Sets status id) :=
  match x with
  | .bookingSet _ _ => inferInstanceAs (Decidable (_ ∧ _))
  | .slotSet _ _ | .bookingInsert _ | .paymentInsert _ | .paymentSet _ _ | .eventInsert _
  | .usageInsert _ | .couponIncrement _ | .auditInsert _ => inferInstanceAs (Decidable False)

theorem Write.Sets.eq {status : BookingStatus} {id : BookingId} {x : Write} (h : x.Sets status id) :
    ∃ ids, x = .bookingSet ids status ∧ id ∈ ids := by
  cases x with
  | bookingSet ids st =>
    obtain ⟨rfl, hid⟩ := h
    exact ⟨ids, rfl, hid⟩
  | _ => exact h.elim

/-- The webhook has registered a succeeded event of the booking's intent. -/
def Db.Reported (cfg : Config) (db : Db) (id : BookingId) : Prop :=
  ∃ e ∈ db.webhookEvents, (cfg.event e).type = .succeeded ∧ (cfg.event e).intent.bookingId = id

instance (cfg : Config) (db : Db) (id : BookingId) : Decidable (db.Reported cfg id) :=
  inferInstanceAs (Decidable (∃ e ∈ db.webhookEvents, _))

namespace World

/-- A commit has given the booking the status. -/
def Made (w : World) (status : BookingStatus) (id : BookingId) : Prop :=
  ∃ e ∈ w.history, ∃ x ∈ e.writes, x.Sets status id

instance (w : World) (status : BookingStatus) (id : BookingId) : Decidable (w.Made status id) :=
  inferInstanceAs (Decidable (∃ e ∈ w.history, _))

/-- A commit has cancelled the booking while it was PENDING. -/
def Dropped (w : World) (id : BookingId) : Prop :=
  ∃ e ∈ w.history, (∃ x ∈ e.writes, x.Sets .CANCELLED id) ∧
    ∃ b ∈ e.before.booking? id, b.status = .PENDING

instance (w : World) (id : BookingId) : Decidable (w.Dropped id) :=
  inferInstanceAs (Decidable (∃ e ∈ w.history, _))

/-- The history says which bookings have been CONFIRMED. A booking that is not PENDING any more
has been CONFIRMED or dropped, and the CONFIRMED ones are not PENDING. -/
structure Confirms (cfg : Config) (w : World) : Prop where
  made : ∀ id, w.Made .CONFIRMED id ↔ w.db.Reported cfg id ∧ ¬ w.Dropped id
  left : ∀ id, w.Made .CONFIRMED id → ∃ b, w.db.booking? id = some b ∧ b.status ≠ .PENDING
  settled : ∀ id b, w.db.booking? id = some b → b.status ≠ .PENDING →
    w.Made .CONFIRMED id ∨ w.Dropped id

end World

section

variable {cfg : Config} {w w' : World} {c : Session Call} {ws : List Write} {id : BookingId}

theorem World.Made.mono {status : BookingStatus} (h : w.Made status id)
    (hw : ∀ e ∈ w.history, e ∈ w'.history) : w'.Made status id := by
  obtain ⟨e, he, hx⟩ := h
  exact ⟨e, hw e he, hx⟩

theorem World.made_result {status : BookingStatus} :
    (Commits.result c ws w).Made status id ↔ w.Made status id ∨ ∃ x ∈ ws, x.Sets status id := by
  simp only [World.Made, Commits.result, List.mem_append, List.mem_singleton, or_and_right, exists_or,
    exists_eq_left]

theorem World.dropped_result : (Commits.result c ws w).Dropped id ↔
    w.Dropped id ∨ (∃ x ∈ ws, x.Sets .CANCELLED id) ∧ ∃ b ∈ w.db.booking? id, b.status = .PENDING := by
  simp only [World.Dropped, Commits.result, List.mem_append, List.mem_singleton, or_and_right, exists_or,
    exists_eq_left]

theorem World.Dropped.left (h : w.Dropped id) (hw : w.WellFormed cfg) :
    ∃ b, w.db.booking? id = some b ∧ b.status ≠ .PENDING := by
  obtain ⟨e, he, ⟨x, hx, hset⟩, -⟩ := h
  obtain ⟨ids, rfl, hid⟩ := hset.eq
  obtain ⟨b, hb, hactive⟩ := hw.cancelled e he ids hx id hid
  exact ⟨b, hb, fun hp => hactive (.inl hp)⟩

theorem Db.reported_applyAll {db : Db} : (db.applyAll ws).Reported cfg id ↔ db.Reported cfg id ∨
    ∃ e, .eventInsert e ∈ ws ∧ (cfg.event e).type = .succeeded ∧ (cfg.event e).intent.bookingId = id := by
  simp only [Db.Reported, Db.event_of_applyAll, or_and_right, exists_or]

/-- A booking has the status it had before, or has been inserted with it or given it. -/
theorem Db.status_of_applyAll {db : Db} {b : Booking} (hb : b ∈ (db.applyAll ws).bookings) :
    (∃ b' ∈ db.bookings, b'.id = b.id ∧ b'.status = b.status) ∨
    (∃ b', .bookingInsert b' ∈ ws ∧ b'.status = b.status) ∨ ∃ x ∈ ws, x.Sets b.status b.id := by
  induction ws generalizing db with
  | nil => exact .inl ⟨b, hb, rfl, rfl⟩
  | cons x ws ih =>
    rcases ih hb with ⟨b', hb', hid, hs⟩ | ⟨b', hb', hs⟩ | ⟨y, hy, hset⟩
    · cases x with
      | bookingInsert b'' =>
        rcases List.mem_append.mp hb' with hb' | hb'
        · exact .inl ⟨b', hb', hid, hs⟩
        · rw [List.mem_singleton.mp hb'] at hs
          exact .inr (.inl ⟨b'', List.mem_cons_self, hs⟩)
      | bookingSet ids status =>
        obtain ⟨b'', hb'', rfl⟩ := Rows.mem_update.mp hb'
        split_ifs at hid hs with hmem
        · exact .inr (.inr ⟨_, List.mem_cons_self, hs, hid ▸ hmem⟩)
        · exact .inl ⟨b'', hb'', hid, hs⟩
      | _ => exact .inl ⟨b', hb', hid, hs⟩
    · exact .inr (.inl ⟨b', List.mem_cons_of_mem _ hb', hs⟩)
    · exact .inr (.inr ⟨y, List.mem_cons_of_mem _ hy, hset⟩)

namespace Commits

theorem insert_pending (hc : Commits cfg c w ws) {b : Booking} (hb : .bookingInsert b ∈ ws) :
    b.status = .PENDING := by
  cases hc with
  | book _ _ _ hstatus =>
    simp only [List.mem_cons, reduceCtorEq, Write.bookingInsert.injEq, List.not_mem_nil, or_false,
      false_or] at hb
    exact hb ▸ hstatus
  | _ => simp at hb

/-- A booking is CONFIRMED by the delivery of its event, while it is PENDING. -/
theorem sets_confirmed (hv : w.db.Valid cfg) (hc : Commits cfg c w ws) {x : Write} (hx : x ∈ ws)
    (hset : x.Sets .CONFIRMED id) : ∃ e p b charge time, (cfg.event e).type = .succeeded ∧
      (cfg.event e).intent.bookingId = id ∧ w.db.booking? id = some b ∧ b.status = .PENDING ∧
      ws = [.eventInsert e, .paymentSet [p] (.paid charge time), .bookingSet [id] .CONFIRMED] := by
  obtain ⟨ids, rfl, hid⟩ := hset.eq
  cases hc with
  | @succeeded e p b charge time _ htype _ hp hintent hb hbp =>
    split_ifs at hx with hpending
    · simp only [List.mem_cons, reduceCtorEq, Write.bookingSet.injEq, and_true, List.not_mem_nil,
        or_false, false_or] at hx
      subst hx
      obtain rfl := List.mem_singleton.mp hid
      rw [if_pos hpending]
      exact ⟨e, p.id, b, charge, time, htype, (hv.intent_bookingId hp hintent).trans hbp.symm,
        hv.booking?_of_mem hb, hpending, rfl⟩
    · simp at hx
  | _ => simp at hx

/-- A commit finds the booking that it gives a status, and completes none that is PENDING. -/
theorem sets (hv : w.db.Valid cfg) (hc : Commits cfg c w ws) {x : Write} (hx : x ∈ ws)
    {status : BookingStatus} (hset : x.Sets status id) :
    ∃ b, w.db.booking? id = some b ∧ (status = .COMPLETED → b.status ≠ .PENDING) := by
  obtain ⟨ids, rfl, hid⟩ := hset.eq
  have hfound : ∀ {b : Booking}, b ∈ w.db.bookings → ids = [b.id] → w.db.booking? id = some b := by
    rintro b hb rfl
    rw [List.mem_singleton.mp hid, hv.booking?_of_mem hb]
  cases hc with
  | @cancel _ b _ _ hb | @refund _ _ b _ _ _ _ hb =>
    simp only [List.mem_cons, reduceCtorEq, Write.bookingSet.injEq, false_or, mem_release,
      and_false, or_false] at hx
    exact ⟨b, hfound hb hx.1, fun hs => absurd (hx.2.symm.trans hs) (by decide)⟩
  | @cleanup _ ids' _ _ hstale =>
    simp only [List.mem_cons, reduceCtorEq, Write.bookingSet.injEq, mem_release, and_false,
      or_false] at hx
    obtain ⟨b, hb, rfl, -⟩ := hstale id (hx.1 ▸ hid)
    exact ⟨b, hv.booking?_of_mem hb, fun hs => absurd (hx.2.symm.trans hs) (by decide)⟩
  | @succeeded _ _ b _ _ _ _ _ _ _ hb =>
    split_ifs at hx
    · simp only [List.mem_cons, reduceCtorEq, Write.bookingSet.injEq, List.not_mem_nil, or_false,
        false_or] at hx
      exact ⟨b, hfound hb hx.1, fun hs => absurd (hx.2.symm.trans hs) (by decide)⟩
    · simp at hx
  | @complete b _ hb hst =>
    simp only [List.mem_singleton, Write.bookingSet.injEq] at hx
    exact ⟨b, hfound hb hx.1, fun _ => hst⟩
  | _ => simp at hx

/-- The first report of a payment finds the booking, and confirms it if it is PENDING. -/
theorem reports (hv : w.db.Valid cfg) (hc : Commits cfg c w ws) {e : EventId} (he : .eventInsert e ∈ ws)
    (htype : (cfg.event e).type = .succeeded) (hid : (cfg.event e).intent.bookingId = id) :
    ∃ b, w.db.booking? id = some b ∧ (b.status = .PENDING → ∃ x ∈ ws, x.Sets .CONFIRMED id) := by
  obtain ⟨-, ⟨-, p, hp, b, hb, hi, hbp, charge, time, rfl⟩ | ⟨hfailed, -⟩ | ⟨hproc, -⟩⟩ :=
    hc.of_webhook (hc.insert_event he)
  · obtain rfl : b.id = id := hbp.trans ((hv.intent_bookingId hp hi).symm.trans hid)
    refine ⟨b, hv.booking?_of_mem hb, fun hpending => ⟨.bookingSet [b.id] .CONFIRMED, ?_, rfl, ?_⟩⟩
    · rw [if_pos hpending]
      simp
    · exact List.mem_singleton_self _
  · exact nomatch hfailed.symm.trans htype
  · exact nomatch hproc.symm.trans htype

/-- A booking that has been CONFIRMED is not PENDING. -/
theorem made_left (hw : w.WellFormed cfg) (h : w.Confirms cfg) (hc : Commits cfg c w ws)
    (hmade : (result c ws w).Made .CONFIRMED id) :
    ∃ b, (w.db.applyAll ws).booking? id = some b ∧ b.status ≠ .PENDING := by
  rcases World.made_result.mp hmade with hmade | ⟨x, hx, hset⟩
  · obtain ⟨b, hb, hs⟩ := h.left id hmade
    obtain ⟨b', hb', hages⟩ := hc.ages hw.valid hb
    exact ⟨b', hb', fun hp => hs (hages.pending hp)⟩
  · obtain ⟨e, p, b, charge, time, -, -, hb, -, rfl⟩ := hc.sets_confirmed hw.valid hx hset
    have hset : (w.db.applyAll [.eventInsert e, .paymentSet [p] (.paid charge time),
        .bookingSet [id] .CONFIRMED]).bookings = Db.setBookings [id] .CONFIRMED w.db.bookings := rfl
    refine ⟨{ b with status := .CONFIRMED }, ?_, nofun⟩
    rw [Db.booking?_set hset, if_pos (List.mem_singleton_self id), hb]
    rfl

/-- A booking that has been CONFIRMED has been reported, and has not been dropped. -/
theorem made_reported (hw : w.WellFormed cfg) (h : w.Confirms cfg) (hc : Commits cfg c w ws)
    (hmade : (result c ws w).Made .CONFIRMED id) :
    (w.db.applyAll ws).Reported cfg id ∧ ¬ (result c ws w).Dropped id := by
  have hnot : ∀ b b' : Booking, w.db.booking? id = some b → b.status ≠ .PENDING →
      w.db.booking? id = some b' → b'.status ≠ .PENDING := by
    intro b b' hb hs hb'
    rwa [Option.some.inj (hb'.symm.trans hb)]
  rcases World.made_result.mp hmade with hmade | ⟨x, hx, hset⟩
  · obtain ⟨hreported, hkept⟩ := (h.made id).mp hmade
    obtain ⟨b, hb, hs⟩ := h.left id hmade
    refine ⟨Db.reported_applyAll.mpr (.inl hreported), fun hdrop => ?_⟩
    rcases World.dropped_result.mp hdrop with hdrop | ⟨-, b', hb', hpending⟩
    · exact hkept hdrop
    · exact hnot b b' hb hs hb' hpending
  · obtain ⟨e, _, b, _, _, htype, hid, hb, hpending, hws⟩ := hc.sets_confirmed hw.valid hx hset
    refine ⟨Db.reported_applyAll.mpr (.inr ⟨e, by simp [hws], htype, hid⟩), fun hdrop => ?_⟩
    rcases World.dropped_result.mp hdrop with hdrop | ⟨⟨y, hy, hcancel⟩, -⟩
    · obtain ⟨b', hb', hs⟩ := hdrop.left hw
      exact hnot b' b hb' hs hb hpending
    · obtain ⟨ids, rfl, -⟩ := hcancel.eq
      simp [hws] at hy

/-- A booking that has been reported and not dropped has been CONFIRMED. -/
theorem made_of_reported (hw : w.WellFormed cfg) (h : w.Confirms cfg) (hc : Commits cfg c w ws)
    (hreported : (w.db.applyAll ws).Reported cfg id) (hkept : ¬ (result c ws w).Dropped id) :
    (result c ws w).Made .CONFIRMED id := by
  have hkept' : ¬ w.Dropped id := fun hdrop => hkept (World.dropped_result.mpr (.inl hdrop))
  refine World.made_result.mpr ?_
  rcases Db.reported_applyAll.mp hreported with hreported | ⟨e, he, htype, hid⟩
  · exact .inl ((h.made id).mpr ⟨hreported, hkept'⟩)
  · obtain ⟨b, hb, hconfirms⟩ := hc.reports hw.valid he htype hid
    by_cases hpending : b.status = .PENDING
    · exact .inr (hconfirms hpending)
    · exact .inl ((h.settled id b hb hpending).resolve_right hkept')

/-- A booking that is not PENDING has been CONFIRMED or dropped. -/
theorem settles (hw : w.WellFormed cfg) (h : w.Confirms cfg) (hc : Commits cfg c w ws) {b : Booking}
    (hb : (w.db.applyAll ws).booking? id = some b) (hs : b.status ≠ .PENDING) :
    (result c ws w).Made .CONFIRMED id ∨ (result c ws w).Dropped id := by
  have hold : ∀ b, w.db.booking? id = some b → b.status ≠ .PENDING →
      (result c ws w).Made .CONFIRMED id ∨ (result c ws w).Dropped id := by
    intro b hb hs
    exact (h.settled id b hb hs).imp (fun hmade => World.made_result.mpr (.inl hmade))
      fun hdrop => World.dropped_result.mpr (.inl hdrop)
  obtain ⟨hm, rfl⟩ := Db.mem_of_booking? hb
  rcases Db.status_of_applyAll hm with ⟨b', hb', hid, hs'⟩ | ⟨b', hb', hs'⟩ | ⟨x, hx, hset⟩
  · exact hold b' (hid ▸ hw.valid.booking?_of_mem hb') (hs' ▸ hs)
  · exact absurd (hs'.symm.trans (hc.insert_pending hb')) hs
  · obtain ⟨b₀, hb₀, hdone⟩ := hc.sets hw.valid hx hset
    by_cases hpending : b₀.status = .PENDING
    · cases hst : b.status with
      | PENDING => exact absurd hst hs
      | CONFIRMED => exact .inl (World.made_result.mpr (.inr ⟨x, hx, hst ▸ hset⟩))
      | CANCELLED =>
        exact .inr (World.dropped_result.mpr (.inr ⟨⟨x, hx, hst ▸ hset⟩, b₀, hb₀, hpending⟩))
      | COMPLETED => exact absurd hpending (hdone hst)
    · exact hold b₀ hb₀ hpending

end Commits

theorem stable_confirms (cfg : Config) : Stable cfg (World.Confirms cfg) where
  out _ _ h := ⟨h.made, h.left, h.settled⟩
  commit hw h hc := {
    made := fun _ => ⟨hc.made_reported hw h, fun hkept => hc.made_of_reported hw h hkept.1 hkept.2⟩
    left := fun _ => hc.made_left hw h
    settled := fun _ _ => hc.settles hw h }

theorem Sys.Fresh.confirms {s : Sys} (hs : s.Fresh) : s.world.Confirms cfg where
  made := by simp [World.Made, Db.Reported, hs.history, hs.db.webhookEvents]
  left := by simp [World.Made, hs.history]
  settled := by simp [Db.booking?, Rows.lookup, hs.db.bookings]

end

end TurfSync
