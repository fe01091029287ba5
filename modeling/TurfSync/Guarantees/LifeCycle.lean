import TurfSync.Guarantees.Slots

/-! The life cycle of a booking. Every write of a status follows it, except those that
come too late: a cancellation or a refund of a booking that has been completed, and a
completion of a booking that has been cancelled. -/

namespace TurfSync

open Txn

/-- The changes of status that the life cycle of a booking has. -/
def BookingStatus.next : BookingStatus → BookingStatus → Bool
  | .PENDING, .CONFIRMED => true
  | .PENDING, .CANCELLED => true
  | .CONFIRMED, .CANCELLED => true
  | .CONFIRMED, .COMPLETED => true
  | _, _ => false

/-- Every booking is still there, and its status is the same or has moved on. -/
def Db.Follows (db db' : Db) : Prop :=
  ∀ b ∈ db.bookings, ∃ b' ∈ db'.booking? b.id, b'.status = b.status ∨ b.status.next b'.status

instance (db db' : Db) : Decidable (db.Follows db') :=
  inferInstanceAs (Decidable (∀ b ∈ db.bookings, ∃ b' ∈ db'.booking? b.id, _))

/-- The booking that a call cancels or refunds. -/
def Call.takesOff : Call → Option BookingId
  | .cancel id _ => some id
  | .refund bookingId _ => some bookingId
  | _ => none

/-- No cancellation or refund commits on a booking that is COMPLETED by then, and no
completion is written to one that is CANCELLED. -/
def InTime (c : Call) (ws : List Write) (db : Db) : Prop :=
  ∀ b ∈ db.bookings, (c.takesOff = some b.id → b.status ≠ .COMPLETED) ∧
    (ws = [.bookingSet [b.id] .COMPLETED] → b.status ≠ .CANCELLED)

instance (c : Call) (ws : List Write) (db : Db) : Decidable (InTime c ws db) :=
  inferInstanceAs (Decidable (∀ b ∈ db.bookings, _))

namespace Db

variable {cfg : Config} {db db' : Db} {ids : List BookingId} {status : BookingStatus} {b : Booking}

theorem follows_of_bookings (hv : db.Valid cfg) (h : db'.bookings = db.bookings) :
    db.Follows db' := by
  intro b hb
  have hlook : db'.booking? b.id = some b := by
    rw [booking?, h]
    exact hv.booking?_of_mem hb
  exact ⟨b, hlook, .inl rfl⟩

theorem follows_insert (hv : db.Valid cfg) (h : db'.bookings = db.bookings ++ [b]) :
    db.Follows db' := by
  intro b' hb'
  have hlook : db'.booking? b'.id = some b' := by
    rw [booking?_insert h, hv.booking?_of_mem hb']
    rfl
  exact ⟨b', hlook, .inl rfl⟩

/-- A change of status follows the life cycle if it does for each booking changed. -/
theorem follows_set (hv : db.Valid cfg) (h : db'.bookings = setBookings ids status db.bookings) :
    db.Follows db' ↔
      ∀ b ∈ db.bookings, b.id ∈ ids → status = b.status ∨ b.status.next status := by
  have hlook : ∀ b ∈ db.bookings, db'.booking? b.id =
      some (if b.id ∈ ids then { b with status := status } else b) := by
    intro b hb
    rw [booking?_set h, hv.booking?_of_mem hb]
    split_ifs <;> rfl
  constructor
  · intro hf b hb hid
    obtain ⟨b', hb', hs⟩ := hf b hb
    rw [hlook b hb, if_pos hid] at hb'
    obtain rfl := Option.some.inj hb'
    exact hs
  · intro hs b hb
    refine ⟨_, hlook b hb, ?_⟩
    by_cases hid : b.id ∈ ids
    · rw [if_pos hid]
      exact hs b hb hid
    · rw [if_neg hid]
      exact .inl rfl

/-- The same for one booking. -/
theorem follows_set_one (hv : db.Valid cfg) (hb : b ∈ db.bookings)
    (h : db'.bookings = setBookings [b.id] status db.bookings) :
    db.Follows db' ↔ status = b.status ∨ b.status.next status := by
  rw [follows_set hv h]
  constructor
  · exact fun hs => hs b hb (List.mem_singleton.mpr rfl)
  · intro hs b' hb' hid
    rw [Rows.eq_of_key hv.bookings hb' hb (List.mem_singleton.mp hid)]
    exact hs

end Db

namespace Commits

variable {cfg : Config} {c : Session Call} {w : World} {ws : List Write}

theorem inTime_of_none (ht : c.call.takesOff = none)
    (hws : ∀ id, ws ≠ [.bookingSet [id] .COMPLETED]) : InTime c.call ws w.db :=
  fun b _ => ⟨fun h => (by rw [ht] at h; cases h), fun h => absurd h (hws b.id)⟩

/-- For a call that takes booking `b` off its slot. -/
theorem inTime_of_some (hv : w.db.Valid cfg) {b : Booking} (hb : b ∈ w.db.bookings)
    (ht : c.call.takesOff = some b.id) (hws : ∀ id, ws ≠ [.bookingSet [id] .COMPLETED]) :
    InTime c.call ws w.db ↔ b.status ≠ .COMPLETED := by
  constructor
  · exact fun h => (h b hb).1 ht
  · refine fun h b' hb' => ⟨fun he => ?_, fun he => absurd he (hws b'.id)⟩
    rw [ht] at he
    rw [Rows.eq_of_key hv.bookings hb' hb (Option.some.inj he).symm]
    exact h

theorem follows_iff (hv : w.db.Valid cfg) (hc : Commits cfg c w ws) :
    w.db.Follows (w.db.applyAll ws) ↔ InTime c.call ws w.db := by
  cases hc with
  | book call =>
    exact iff_of_true (Db.follows_insert hv rfl) (inTime_of_none (by simp [call, Call.takesOff])
      (by simp))
  | @cancel _ b freed call hb hstatus _ =>
    rw [inTime_of_some hv hb (by simp [call, Call.takesOff]) (by simp),
      Db.follows_set_one hv hb (bookings_vacate _ _ _ _)]
    cases h : b.status <;> simp_all [BookingStatus.next]
  | @cleanup now ids freed call hstale _ =>
    refine iff_of_true ((Db.follows_set hv (bookings_vacate _ _ _ _)).mpr ?_)
      (inTime_of_none (by simp [call, Call.takesOff]) (by simp))
    intro b hb hid
    obtain ⟨b', hb', he, hp, -⟩ := hstale b.id hid
    rw [Rows.eq_of_key hv.bookings hb hb' he.symm, hp]
    exact .inr rfl
  | @refund _ p b freed call _ _ hb _ _ =>
    have hset : (w.db.applyAll (.paymentSet [p.id] .refunded :: .bookingSet [b.id] .CANCELLED ::
        release freed)).bookings = Db.setBookings [b.id] .CANCELLED w.db.bookings :=
      bookings_vacate _ _ _ _
    rw [inTime_of_some hv hb (by simp [call, Call.takesOff]) (by simp),
      Db.follows_set_one hv hb hset]
    cases h : b.status <;> simp [BookingStatus.next]
  | @succeeded id p b charge time call _ _ _ _ hb _ =>
    refine iff_of_true ?_ (inTime_of_none (by simp [call, Call.takesOff]) (by simp))
    by_cases hp : b.status = .PENDING
    · rw [if_pos hp]
      refine (Db.follows_set_one hv hb rfl).mpr (.inr ?_)
      rw [hp]
      rfl
    · rw [if_neg hp]
      exact Db.follows_of_bookings hv rfl
  | @complete b call hb hstatus =>
    rw [Db.follows_set_one hv hb rfl]
    have hiff : InTime c.call [.bookingSet [b.id] .COMPLETED] w.db ↔ b.status ≠ .CANCELLED := by
      refine ⟨fun h => (h b hb).2 rfl, fun h b' hb' => ⟨fun he => ?_, fun he => ?_⟩⟩
      · rcases call with ⟨_, call⟩ | ⟨_, call⟩
        · simp [call, Call.takesOff] at he
        · simp [call, Call.takesOff] at he
      · simp only [List.cons.injEq, Write.bookingSet.injEq, and_true] at he
        rw [Rows.eq_of_key hv.bookings hb' hb he.symm]
        exact h
    rw [hiff]
    cases h : b.status <;> simp_all [BookingStatus.next]
  | nothing call | applyCoupon call | initiate call | reinitiate call | failed call
  | processing call | audit call =>
    exact iff_of_true (Db.follows_of_bookings hv rfl)
      (inTime_of_none (by simp [call, Call.takesOff]) (by simp))

end Commits

/-- Along every run, every change of a booking's status follows the life cycle if and
only if no cancellation, refund or completion comes too late. -/
theorem follows_iff_inTime {cfg : Config} {s : Sys} {as : List Act} (hs : s.Initial cfg) :
    (service cfg).Each (fun t a => t.world.db.Follows ((service cfg).step t a).world.db) s as ↔
      (service cfg).Each (OnCommit cfg InTime) s as := by
  refine each_iff_commits hs stable_true trivial (T := Db.Follows) (fun hw => ?_) fun hw _ hc =>
    hc.follows_iff hw.valid
  exact Db.follows_of_bookings hw.valid rfl

theorem follows_sold : (service (Arena.cfg true)).Each
    (fun t a => t.world.db.Follows ((service (Arena.cfg true)).step t a).world.db)
    Arena.sys (Arena.sold ++ Arena.first 3 (.refund 101 7) 12) :=
  (follows_iff_inTime Arena.fresh.initial).mpr (by decide +kernel)

/-- A completed booking is cancelled by its owner, and a booking cancelled between the
read and the write of `completeBooking` is completed. -/
theorem follows_fails :
    ¬ (service (Arena.cfg true)).Each
      (fun t a => t.world.db.Follows ((service (Arena.cfg true)).step t a).world.db) Arena.sys
      (Arena.sold ++ Arena.first 3 (.completeBooking 101 1) 3 ++
        Arena.first 4 (.cancel 101 7) 12) ∧
    ¬ (service (Arena.cfg true)).Each
      (fun t a => t.world.db.Follows ((service (Arena.cfg true)).step t a).world.db) Arena.sys
      (Arena.sold ++ Arena.first 3 (.completeBooking 101 1) 1 ++
        Arena.first 4 (.cancel 101 7) 12 ++ [.run 3]) := by
  decide +kernel

end TurfSync
