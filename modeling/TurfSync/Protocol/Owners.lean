import TurfSync.Protocol.Tables

/-! Rows and the users they belong to: a booking has its user, a payment the user of its
booking. A write of one user leaves the rows of the others alone. -/

namespace TurfSync

open Txn

namespace Db

/-- The booking is there and is of user `u`. -/
def Owns (db : Db) (u : UserId) (id : BookingId) : Prop := ∃ b ∈ db.bookings, b.id = id ∧ b.userId = u

instance (db : Db) (u : UserId) (id : BookingId) : Decidable (db.Owns u id) :=
  inferInstanceAs (Decidable (∃ b ∈ db.bookings, _))

def bookingsOf (db : Db) (v : UserId) : List Booking := db.bookings.filter (·.userId = v)

def paymentsOf (db : Db) (v : UserId) : List Payment := db.payments.filter fun p => db.Owns v p.bookingId

def usagesBy (db : Db) (v : UserId) : List CouponUsage := db.couponUsages.filter (·.userId = v)

/-- Ids are unique and drawn from the counter, and a payment has its booking and its intent. -/
structure Sane (db : Db) (uuid : ℕ) : Prop where
  bookings : (db.bookings.map (·.id)).Nodup
  bookingIds : ∀ b ∈ db.bookings, b.id < uuid
  payments : (db.payments.map (·.id)).Nodup
  paymentIds : ∀ p ∈ db.payments, p.id < uuid
  booked : ∀ p ∈ db.payments, ∃ b ∈ db.bookings, b.id = p.bookingId
  intents : ∀ p ∈ db.payments, p.stripePaymentIntentId = ⟨p.bookingId⟩

/-- The rows of the users other than `u` are the same, and bookings stay their users'. -/
structure Apart (u : UserId) (db db' : Db) : Prop where
  bookings : ∀ v, v ≠ u → db'.bookingsOf v = db.bookingsOf v
  payments : ∀ v, v ≠ u → db'.paymentsOf v = db.paymentsOf v
  usages : ∀ v, v ≠ u → db'.usagesBy v = db.usagesBy v
  owns : ∀ v id, db.Owns v id → db'.Owns v id

theorem Apart.refl (u : UserId) (db : Db) : db.Apart u db :=
  ⟨fun _ _ => rfl, fun _ _ => rfl, fun _ _ => rfl, fun _ _ h => h⟩

theorem Apart.trans {u : UserId} {db₁ db₂ db₃ : Db} (h : db₁.Apart u db₂) (h' : db₂.Apart u db₃) :
    db₁.Apart u db₃ where
  bookings v hv := (h'.bookings v hv).trans (h.bookings v hv)
  payments v hv := (h'.payments v hv).trans (h.payments v hv)
  usages v hv := (h'.usages v hv).trans (h.usages v hv)
  owns v id hid := h'.owns v id (h.owns v id hid)

/-- A booking has one user. -/
theorem Sane.owner {db : Db} {uuid : ℕ} (h : db.Sane uuid) {u v : UserId} {id : BookingId}
    (hu : db.Owns u id) (hv : db.Owns v id) : u = v := by
  obtain ⟨b, hb, hid, rfl⟩ := hu
  obtain ⟨b', hb', hid', rfl⟩ := hv
  rw [Rows.eq_of_key h.bookings hb hb' (hid.trans hid'.symm)]

theorem Sane.mono {db : Db} {uuid uuid' : ℕ} (h : db.Sane uuid) (hle : uuid ≤ uuid') : db.Sane uuid' :=
  { h with
    bookingIds := fun b hb => Nat.lt_of_lt_of_le (h.bookingIds b hb) hle
    paymentIds := fun p hp => Nat.lt_of_lt_of_le (h.paymentIds p hp) hle }

end Db

/-- A write of user `u`: the row is the user's own, or nobody's. -/
def Write.By (u : UserId) (db : Db) (uuid : ℕ) : Write → Prop
  | .bookingInsert b => b.userId = u ∧ (∀ b' ∈ db.bookings, b'.id ≠ b.id) ∧ b.id < uuid
  | .bookingSet ids _ => ∀ id ∈ ids, db.Owns u id
  | .paymentInsert p => db.Owns u p.bookingId ∧ (∀ p' ∈ db.payments, p'.id ≠ p.id) ∧ p.id < uuid ∧
    p.stripePaymentIntentId = ⟨p.bookingId⟩
  | .paymentSet ids change => ∀ p ∈ db.payments, p.id ∈ ids → db.Owns u p.bookingId ∧
    (change.set p).stripePaymentIntentId = p.stripePaymentIntentId
  | .usageInsert usage => usage.userId = u
  | _ => True

section

variable {u : UserId} {db : Db} {uuid : ℕ} {x : Write}

theorem filter_update {α κ : Type} [DecidableEq κ] {key : α → κ} {ks : List κ} {f : α → α}
    {rows : List α} {q : α → Bool} (h : ∀ a ∈ rows, key a ∈ ks → q a = false ∧ q (f a) = false) :
    (Rows.update key ks f rows).filter q = rows.filter q := by
  induction rows with
  | nil => rfl
  | cons a rows ih =>
    have hrest := ih fun b hb => h b (List.mem_cons_of_mem a hb)
    have hcons : Rows.update key ks f (a :: rows) =
        (if key a ∈ ks then f a else a) :: Rows.update key ks f rows := rfl
    rw [hcons, List.filter_cons, List.filter_cons, hrest]
    by_cases ha : key a ∈ ks
    · obtain ⟨hq, hqf⟩ := h a List.mem_cons_self ha
      rw [if_pos ha, hq, hqf]
      simp only [Bool.false_eq_true, if_false]
    · rw [if_neg ha]

/-- Bookings that keep their ids and users keep their owners. -/
theorem Db.owns_set {ids : List BookingId} {status : BookingStatus} {v : UserId} {id : BookingId} :
    (db.apply (.bookingSet ids status)).Owns v id ↔ db.Owns v id := by
  constructor
  · rintro ⟨b', hb', hid, hv⟩
    obtain ⟨b, hb, rfl⟩ := Rows.mem_update.mp hb'
    refine ⟨b, hb, ?_, ?_⟩
    · rw [← hid]; split_ifs <;> rfl
    · rw [← hv]; split_ifs <;> rfl
  · rintro ⟨b, hb, hid, hv⟩
    refine ⟨_, Rows.mem_update.mpr ⟨b, hb, rfl⟩, ?_, ?_⟩
    · rw [← hid]; split_ifs <;> rfl
    · rw [← hv]; split_ifs <;> rfl

theorem Db.owns_insert {b : Booking} {v : UserId} {id : BookingId} :
    (db.apply (.bookingInsert b)).Owns v id ↔ db.Owns v id ∨ b.id = id ∧ b.userId = v := by
  simp only [Db.Owns, Db.apply, List.mem_append, List.mem_singleton, or_and_right, exists_or,
    exists_eq_left]

/-- A write of a user leaves the others' rows alone. -/
theorem Write.By.apart (h : x.By u db uuid) (hs : db.Sane uuid) : db.Apart u (db.apply x) := by
  cases x with
  | bookingInsert b =>
    refine ⟨fun v hv => ?_, fun v hv => ?_, fun _ _ => rfl, fun v id hid => Db.owns_insert.mpr (.inl hid)⟩
    · have hb : ¬ b.userId = v := h.1 ▸ Ne.symm hv
      simp [Db.bookingsOf, Db.apply, hb]
    · refine List.filter_congr fun p _ => decide_eq_decide.mpr ?_
      rw [Db.owns_insert, or_iff_left]
      rintro ⟨-, hb⟩
      exact hv (hb.symm.trans h.1)
  | bookingSet ids status =>
    refine ⟨fun v hv => filter_update fun b hb hid => ?_, fun v hv => ?_, fun _ _ => rfl,
      fun v id hid => Db.owns_set.mpr hid⟩
    · have hne : b.userId ≠ v := by
        intro hbv
        exact hv (hs.owner ⟨b, hb, rfl, hbv⟩ (h b.id hid))
      simp [hne]
    · exact List.filter_congr fun p _ => decide_eq_decide.mpr Db.owns_set
  | paymentInsert p =>
    refine ⟨fun _ _ => rfl, fun v hv => ?_, fun _ _ => rfl, fun _ _ hid => hid⟩
    have hp : ¬ db.Owns v p.bookingId := fun hp => hv (hs.owner hp h.1)
    have hown : ∀ id, (db.apply (.paymentInsert p)).Owns v id ↔ db.Owns v id := fun _ => Iff.rfl
    simp only [Db.paymentsOf, hown]
    simp [Db.apply, hp]
  | paymentSet ids change =>
    refine ⟨fun _ _ => rfl, fun v hv => filter_update fun p hp hid => ?_, fun _ _ => rfl,
      fun _ _ hid => hid⟩
    have hp : ¬ db.Owns v p.bookingId := fun hv' => hv (hs.owner hv' (h p hp hid).1)
    refine ⟨decide_eq_false hp, decide_eq_false ?_⟩
    rw [change.set_bookingId]
    exact hp
  | usageInsert usage =>
    refine ⟨fun _ _ => rfl, fun _ _ => rfl, fun v hv => ?_, fun _ _ hid => hid⟩
    have hu : ¬ usage.userId = v := fun hu => hv (hu.symm.trans h)
    simp [Db.usagesBy, Db.apply, hu]
  | _ => exact ⟨fun _ _ => rfl, fun _ _ => rfl, fun _ _ => rfl, fun _ _ hid => hid⟩

theorem Write.By.sane (h : x.By u db uuid) (hs : db.Sane uuid) : (db.apply x).Sane uuid := by
  cases x with
  | bookingInsert b =>
    refine { hs with
      bookings := Rows.nodup_insert hs.bookings h.2.1
      bookingIds := fun b' hb' => ?_
      booked := fun p hp => ?_ }
    · rcases List.mem_append.mp hb' with hb' | hb'
      · exact hs.bookingIds b' hb'
      · rw [List.mem_singleton.mp hb']
        exact h.2.2
    · obtain ⟨b', hb', hid⟩ := hs.booked p hp
      exact ⟨b', List.mem_append_left _ hb', hid⟩
  | bookingSet ids status =>
    refine { hs with
      bookings := ?_
      bookingIds := fun b' hb' => ?_
      booked := fun p hp => ?_ }
    · rw [show (db.apply (.bookingSet ids status)).bookings.map (·.id) = db.bookings.map (·.id) from
        Rows.keys_update fun _ => rfl]
      exact hs.bookings
    · obtain ⟨b, hb, rfl⟩ := Rows.mem_update.mp hb'
      split_ifs
      · exact hs.bookingIds b hb
      · exact hs.bookingIds b hb
    · obtain ⟨b, hb, hid⟩ := hs.booked p hp
      obtain ⟨b', hb', hid', -⟩ := Db.owns_set.mpr ⟨b, hb, hid, rfl⟩
      exact ⟨b', hb', hid'⟩
  | paymentInsert p =>
    obtain ⟨⟨b, hb, hid, -⟩, hnew, hlt, hintent⟩ := h
    refine { hs with
      payments := Rows.nodup_insert hs.payments hnew
      paymentIds := fun p' hp' => ?_
      booked := fun p' hp' => ?_
      intents := fun p' hp' => ?_ } <;>
    rcases List.mem_append.mp hp' with hp' | hp'
    · exact hs.paymentIds p' hp'
    · rw [List.mem_singleton.mp hp']
      exact hlt
    · exact hs.booked p' hp'
    · rw [List.mem_singleton.mp hp']
      exact ⟨b, hb, hid⟩
    · exact hs.intents p' hp'
    · rw [List.mem_singleton.mp hp']
      exact hintent
  | paymentSet ids change =>
    refine { hs with
      payments := ?_
      paymentIds := fun p' hp' => ?_
      booked := fun p' hp' => ?_
      intents := fun p' hp' => ?_ }
    · rw [show (db.apply (.paymentSet ids change)).payments.map (·.id) = db.payments.map (·.id) from
        Rows.keys_update fun p => change.set_id p]
      exact hs.payments
    all_goals
      obtain ⟨p, hp, rfl⟩ := Rows.mem_update.mp hp'
      split_ifs with hid
    · rw [change.set_id]
      exact hs.paymentIds p hp
    · exact hs.paymentIds p hp
    · rw [change.set_bookingId]
      exact hs.booked p hp
    · exact hs.booked p hp
    · rw [(h p hp hid).2, change.set_bookingId]
      exact hs.intents p hp
    · exact hs.intents p hp
  | _ => exact { hs with }

end

end TurfSync
