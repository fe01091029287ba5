import TurfSync.Guarantees.Slots

/-! The clean-up of stale bookings against everything else. It takes only bookings that
are PENDING and old when it commits; a booking that a success webhook has confirmed
first is left alone with its slot, and one that the clean-up has cancelled stays
cancelled, whatever is delivered later. The bookings at the start are arbitrary. -/

namespace TurfSync

open Txn

namespace Db

/-- Going from `db` to `db'`, a booking on the slot has changed and none is active any
more. -/
def Emptied (db db' : Db) (id : SlotId) : Prop :=
  (∃ b ∈ db.bookings, b.slotId = id ∧ db'.booking? b.id ≠ some b) ∧
    ∀ b ∈ db'.bookings, b.slotId = id → ¬ b.Active

/-- What a clean-up that started at `now` commits: it cancels PENDING bookings older
than 15 minutes and frees the slots that this empties. Where `bookings.slotId` is not
unique, a slot may stay booked whose last other booking was given up by a transaction
that has not committed when the clean-up looks. -/
structure CleanedUp (cfg : Config) (now : Time) (db db' : Db) : Prop where
  bookings : ∀ b ∈ db.bookings, db'.booking? b.id = some b ∨
    b.status = .PENDING ∧ b.createdAt < now - 15 * 60 * 1000 ∧
      db'.booking? b.id = some { b with status := .CANCELLED }
  rows : db'.bookings.map (·.id) = db.bookings.map (·.id)
  freed : cfg.slotIdUnique = true → ∀ s ∈ db.slots, db.Emptied db' s.id →
    db'.slot? s.id = some { s with isBooked := false }
  kept : ∀ s ∈ db.slots, ¬ db.Emptied db' s.id → db'.slot? s.id = some s
  rest : db' = { db with bookings := db'.bookings, slots := db'.slots }

/-- What a success webhook for the intent of booking `id` commits: the booking is
confirmed if it is PENDING, and nothing else happens to bookings and slots. -/
structure ConfirmedBy (id : BookingId) (db db' : Db) : Prop where
  bookings : ∀ b ∈ db.bookings, db'.booking? b.id =
    some (if b.id = id ∧ b.status = .PENDING then { b with status := .CONFIRMED } else b)
  slots : db'.slots = db.slots

end Db

namespace Commits

variable {cfg : Config} {c : Session Call} {w : World} {ws : List Write}

theorem cleanedUp (hw : w.WellFormed cfg) (hc : Commits cfg c w ws) {now : Time}
    (call : c.call = .cleanupStalePendingBookings now) :
    w.db.CleanedUp cfg now (w.db.applyAll ws) := by
  have hv := hw.valid
  have hslot : ∀ s ∈ w.db.slots, w.db.slot? s.id = some s := fun s hs =>
    (Rows.lookup_iff hv.slots).mpr ⟨hs, rfl⟩
  rcases hc.of_cleanup call with rfl | ⟨ids, freed, rfl, hvac, hstale⟩
  · have hsame : ∀ id, ¬ w.db.Emptied w.db id := by
      rintro id ⟨⟨b, hb, -, hne⟩, -⟩
      exact hne (hv.booking?_of_mem hb)
    exact ⟨fun b hb => .inl (hv.booking?_of_mem hb), rfl, fun _ s _ h => absurd h (hsame s.id),
      fun s hs _ => hslot s hs, rfl⟩
  · generalize hdb : w.db.applyAll (.bookingSet ids .CANCELLED :: release freed) = db'
    have hbookings : db'.bookings = Db.setBookings ids .CANCELLED w.db.bookings :=
      hdb ▸ bookings_vacate _ _ _ _
    have hslots : db'.slots = Db.setSlots freed false w.db.slots := hdb ▸ slots_vacate _ _ _ _
    have hlook : ∀ b ∈ w.db.bookings, db'.booking? b.id =
        if b.id ∈ ids then some { b with status := .CANCELLED } else some b := by
      intro b hb
      rw [Db.booking?_set hbookings, hv.booking?_of_mem hb]
      rfl
    have hpending : ∀ b ∈ w.db.bookings, b.id ∈ ids →
        b.status = .PENDING ∧ b.createdAt < now - 15 * 60 * 1000 := by
      intro b hb hid
      obtain ⟨b', hb', he, hp⟩ := hstale b.id hid
      rw [Rows.eq_of_key hv.bookings hb hb' he.symm]
      exact hp
    have hemptied : ∀ s ∈ freed, w.db.Emptied db' s := by
      intro s hs
      obtain ⟨b, hb, hid, he⟩ := hvac.slots s hs
      refine ⟨⟨b, hb, he, fun h => ?_⟩, fun b' hb' he' ha => ?_⟩
      · rw [hlook b hb, if_pos hid, Option.some.injEq] at h
        have hp := (hpending b hb hid).1
        rw [← h] at hp
        cases hp
      · rw [hbookings] at hb'
        obtain ⟨b₀, hb₀, rfl⟩ := Rows.mem_update.mp hb'
        by_cases hid₀ : b₀.id ∈ ids
        · rw [if_pos hid₀] at ha
          rcases ha with ha | ha <;> cases ha
        · rw [if_neg hid₀] at he' ha
          exact hid₀ (hvac.alone s hs b₀ hb₀ he' ha)
    refine ⟨fun b hb => ?_, ?_, fun hu s hs h => ?_, fun s hs h => ?_, ?_⟩
    · rw [hlook b hb]
      by_cases hid : b.id ∈ ids
      · obtain ⟨hp, ht⟩ := hpending b hb hid
        exact .inr ⟨hp, ht, if_pos hid⟩
      · exact .inl (if_neg hid)
    · rw [hbookings]
      exact Rows.keys_update fun _ => rfl
    · obtain ⟨⟨b, hb, he, hne⟩, -⟩ := h
      have hid : b.id ∈ ids := by
        by_contra hid
        rw [hlook b hb, if_neg hid] at hne
        exact hne rfl
      have hm : s.id ∈ freed := he ▸ hvac.all hv hu b hb hid
      rw [Db.slot?_set hslots, if_pos hm, hslot s hs]
      rfl
    · have hm : s.id ∉ freed := fun hm => h (hemptied s.id hm)
      rw [Db.slot?_set hslots, if_neg hm, hslot s hs]
    · rw [← hdb]
      unfold release
      split_ifs <;> rfl

theorem confirmedBy (hw : w.WellFormed cfg) (hc : Commits cfg c w ws) {id : EventId}
    (call : c.call = .handleWebhook (some id)) (type : (cfg.event id).type = .succeeded) :
    w.db.ConfirmedBy (cfg.event id).intent.bookingId (w.db.applyAll ws) := by
  have hv := hw.valid
  obtain ⟨-, ⟨-, p, hp, b, hb, hintent, hid, charge, time, rfl⟩ | ⟨htype, -⟩ | ⟨htype, -⟩⟩ :=
    hc.of_webhook call
  · have hbooking : b.id = (cfg.event id).intent.bookingId := by
      rw [← hintent, hv.intents p hp, hid]
    rw [← hbooking]
    by_cases hpending : b.status = .PENDING
    · rw [if_pos hpending]
      have hset : (w.db.applyAll [.eventInsert id, .paymentSet [p.id] (.paid charge time),
          .bookingSet [b.id] .CONFIRMED]).bookings =
          Db.setBookings [b.id] .CONFIRMED w.db.bookings := rfl
      refine ⟨fun b' hb' => ?_, rfl⟩
      rw [Db.booking?_set hset, hv.booking?_of_mem hb']
      by_cases he : b'.id = b.id
      · rw [Rows.eq_of_key hv.bookings hb' hb he]
        simp [hpending]
      · simp [he]
    · rw [if_neg hpending]
      refine ⟨fun b' hb' => ?_, rfl⟩
      have hne : ¬ (b'.id = b.id ∧ b'.status = .PENDING) := by
        rintro ⟨he, hp'⟩
        rw [Rows.eq_of_key hv.bookings hb' hb he] at hp'
        exact hpending hp'
      rw [if_neg hne]
      exact hv.booking?_of_mem hb'
  · rw [type] at htype
    cases htype
  · rw [type] at htype
    cases htype

end Commits

/-! ### What the clean-up has cancelled -/

/-- Every booking that a clean-up took was PENDING, and is CANCELLED still. -/
def Purged (w : World) : Prop :=
  ∀ e ∈ w.history, ∀ now, e.session.call = .cleanupStalePendingBookings now →
    ∀ ids, .bookingSet ids .CANCELLED ∈ e.writes → ∀ id ∈ ids, ∃ b, e.before.booking? id = some b ∧
      b.status = .PENDING ∧ w.db.booking? id = some { b with status := .CANCELLED }

/-- A commit leaves a CANCELLED booking alone, unless it completes one that had been
CONFIRMED. -/
theorem Commits.stays_cancelled {cfg : Config} {c : Session Call} {w : World} {ws : List Write}
    (hv : w.db.Valid cfg) (hc : Commits cfg c w ws) {id : BookingId} {b : Booking}
    (hb : w.db.booking? id = some b) (hs : b.status = .CANCELLED) (hn : ¬ w.Confirmed id) :
    (w.db.applyAll ws).booking? id = some b := by
  obtain ⟨hm, hid⟩ := Db.mem_of_booking? hb
  have hother : ∀ b' ∈ w.db.bookings, b'.status ≠ .CANCELLED → b'.id ≠ id := by
    intro b' hb' hs' he
    rw [Rows.eq_of_key hv.bookings hb' hm (he.trans hid.symm)] at hs'
    exact hs' hs
  have hset : ∀ (db' : Db) ids status, db'.bookings = Db.setBookings ids status w.db.bookings →
      id ∉ ids → db'.booking? id = some b := by
    intro db' ids status h hn
    rw [Db.booking?_set h, if_neg hn]
    exact hb
  cases hc with
  | @book _ _ _ b' =>
    have hins : (w.db.applyAll [.slotSet [b'.slotId] true, .bookingInsert b']).bookings =
        w.db.bookings ++ [b'] := rfl
    rw [Db.booking?_insert hins, hb]
    rfl
  | @cancel _ b' freed _ hb' hs' _ =>
    refine hset _ [b'.id] _ (bookings_vacate _ _ _ _) fun h => ?_
    exact hother b' hb' hs' (List.mem_singleton.mp h).symm
  | @cleanup _ ids freed _ hstale _ =>
    refine hset _ ids _ (bookings_vacate _ _ _ _) fun h => ?_
    obtain ⟨b', hb', he, hp, -⟩ := hstale id h
    exact hother b' hb' (by simp [hp]) he
  | @refund _ p b' freed _ _ _ hb' _ _ =>
    have h := bookings_vacate (w.db.apply (.paymentSet [p.id] .refunded)) freed .CANCELLED [b'.id]
    rw [Db.applyAll_cons, Db.booking?_set h]
    have hb₀ : (w.db.apply (.paymentSet [p.id] .refunded)).booking? id = some b := hb
    have hsame : { b with status := .CANCELLED } = b := by rw [← hs]
    rw [hb₀]
    split_ifs
    · exact congrArg some hsame
    · rfl
  | @succeeded _ p b' _ _ _ _ _ _ _ hb' _ =>
    by_cases hp : b'.status = .PENDING
    · rw [if_pos hp]
      refine hset _ [b'.id] .CONFIRMED rfl fun h => ?_
      exact hother b' hb' (by simp [hp]) (List.mem_singleton.mp h).symm
    · rw [if_neg hp]
      exact hb
  | @complete b' _ hb' _ hconf =>
    refine hset _ [b'.id] .COMPLETED rfl fun h => ?_
    exact hn (List.mem_singleton.mp h ▸ hconf)
  | _ => exact hb

theorem stable_purged {cfg : Config} : Stable cfg Purged where
  out _ _ h := h
  commit {c w ws} hw h hc := by
    intro e he now call ids hws id hid
    rcases List.mem_append.mp he with he | he
    · obtain ⟨b, hb, hp, hb'⟩ := h e he now call ids hws id hid
      exact ⟨b, hb, hp, hc.stays_cancelled hw.valid hb' rfl fun hn => hn e he ids hws hid b hb hp⟩
    · rw [List.mem_singleton.mp he] at call hws ⊢
      rcases hc.of_cleanup call with rfl | ⟨ids', freed, rfl, -, hstale⟩
      · simp at hws
      · simp only [List.mem_cons, reduceCtorEq, Write.bookingSet.injEq, and_true, mem_release,
          and_false, or_false] at hws
        subst hws
        obtain ⟨b, hb, rfl, hp, -⟩ := hstale id hid
        refine ⟨b, hw.valid.booking?_of_mem hb, hp, ?_⟩
        rw [Commits.result, Db.booking?_set (bookings_vacate _ _ _ _), if_pos hid,
          hw.valid.booking?_of_mem hb]
        rfl

/-! ### Runs -/

section

variable {cfg : Config} {s : Sys} {as : List Act}

/-- The step commits the transaction of a clean-up that started at `now`. -/
def Cleans (cfg : Config) (now : Time) (t : Sys) (a : Act) : Prop :=
  ∃ cm ∈ (service cfg).committed t a, cm.session.call = .cleanupStalePendingBookings now

/-- The step commits the transaction of a success webhook for the intent of booking `id`. -/
def Pays (cfg : Config) (id : BookingId) (t : Sys) (a : Act) : Prop :=
  ∃ cm ∈ (service cfg).committed t a, ∃ event, cm.session.call = .handleWebhook (some event) ∧
    (cfg.event event).type = .succeeded ∧ (cfg.event event).intent = ⟨id⟩

theorem Sys.Keeps.cleanedUp {J : World → Prop} (h : s.Keeps cfg J) (hJ : Stable cfg J) {a : Act}
    {now : Time} (hc : Cleans cfg now s a) :
    s.world.db.CleanedUp cfg now ((service cfg).step s a).world.db := by
  obtain ⟨cm, hcm, call⟩ := hc
  obtain ⟨hwf, hcommits, hdb, -, hw⟩ := h.commit hJ hcm
  rw [hw, ← hdb]
  exact hcommits.cleanedUp hwf call

theorem Sys.Keeps.confirmedBy {J : World → Prop} (h : s.Keeps cfg J) (hJ : Stable cfg J) {a : Act}
    {id : BookingId} (hp : Pays cfg id s a) :
    s.world.db.ConfirmedBy id ((service cfg).step s a).world.db := by
  obtain ⟨cm, hcm, event, call, type, hintent⟩ := hp
  obtain ⟨hwf, hcommits, hdb, -, hw⟩ := h.commit hJ hcm
  have hconf := hcommits.confirmedBy hwf call type
  rw [hintent] at hconf
  rw [hw, ← hdb]
  exact hconf

/-- After a success webhook the booking is there and not PENDING. -/
theorem Sys.Keeps.settled {J : World → Prop} (h : s.Keeps cfg J) (hJ : Stable cfg J) {a : Act}
    {id : BookingId} (hp : Pays cfg id s a) :
    ∃ b, ((service cfg).step s a).world.db.booking? id = some b ∧ b.status ≠ .PENDING := by
  have hconf := h.confirmedBy hJ hp
  obtain ⟨cm, hcm, event, call, type, hintent⟩ := hp
  obtain ⟨hwf, hcommits, hdb, -, -⟩ := h.commit hJ hcm
  obtain ⟨-, ⟨-, p, hp, b, hb, hi, hid, -⟩ | ⟨htype, -⟩ | ⟨htype, -⟩⟩ := hcommits.of_webhook call
  · have hbid : b.id = id := by
      have h := (hwf.valid.intents p hp).symm.trans (hi.trans hintent)
      exact hid.trans (congrArg IntentId.bookingId h)
    have hlook := hconf.bookings b (hdb ▸ hb)
    rw [hbid] at hlook
    refine ⟨_, hlook, ?_⟩
    split_ifs with hpending
    · simp
    · exact fun he => hpending ⟨rfl, he⟩
  · rw [type] at htype
    cases htype
  · rw [type] at htype
    cases htype

/-- Two steps `a` and then `a'`, taken in `t` and in `u`, one the commit of a clean-up
and one that of a success webhook for booking `id`: the first one wins. -/
structure FirstWins (cfg : Config) (t u : Sys) (a a' : Act) : Prop where
  webhook : ∀ id now b, Pays cfg id t a → Cleans cfg now u a' →
    u.world.db.booking? id = some b →
    ((service cfg).step u a').world.db.booking? id = some b ∧
      (cfg.slotIdUnique = true ∨ b.Active →
        ((service cfg).step u a').world.db.slot? b.slotId = u.world.db.slot? b.slotId)
  cleanup : ∀ id now, Cleans cfg now t a →
    ((service cfg).step t a).world.db.booking? id ≠ t.world.db.booking? id → Pays cfg id u a' →
    ∃ b, u.world.db.booking? id = some b ∧ b.status = .CANCELLED ∧
      ((service cfg).step u a').world.db.booking? id = some b ∧
      ((service cfg).step u a').world.db.slots = u.world.db.slots

/-- A booking on which a webhook has committed is left alone with its slot. -/
theorem Sys.Keeps.left_alone {J : World → Prop} (h : s.Keeps cfg J) (hJ : Stable cfg J) {a : Act}
    {now : Time} (hc : Cleans cfg now s a) {id : BookingId} {b : Booking}
    (hb : s.world.db.booking? id = some b) (hs : b.status ≠ .PENDING) :
    ((service cfg).step s a).world.db.booking? id = some b ∧
      (cfg.slotIdUnique = true ∨ b.Active →
        ((service cfg).step s a).world.db.slot? b.slotId = s.world.db.slot? b.slotId) := by
  have hclean := h.cleanedUp hJ hc
  have hv := h.inv.1.valid
  obtain ⟨hm, hid⟩ := Db.mem_of_booking? hb
  have hkept : ((service cfg).step s a).world.db.booking? b.id = some b := by
    rcases hclean.bookings b hm with hkept | ⟨hp, -⟩
    · exact hkept
    · exact absurd hp hs
  refine ⟨hid ▸ hkept, fun hcase => ?_⟩
  obtain ⟨slot, hslot, he⟩ := hv.bookingSlot b hm
  have hnot : ¬ s.world.db.Emptied ((service cfg).step s a).world.db slot.id := by
    rintro ⟨⟨b', hb', he', hne⟩, hempty⟩
    rcases hcase with hu | ha
    · rw [hv.eq_of_slotId hu hm hb' (he'.trans he)] at hne
      exact hne hkept
    · exact hempty b (Db.mem_of_booking? hkept).1 he.symm ha
  rw [← he, hclean.kept slot hslot hnot]
  exact ((Rows.lookup_iff hv.slots).mpr ⟨hslot, rfl⟩).symm

/-- A clean-up that changes a booking records that it cancelled it. -/
theorem Sys.Keeps.recorded {J : World → Prop} (h : s.Keeps cfg J) (hJ : Stable cfg J) {a : Act}
    {now : Time} (hc : Cleans cfg now s a) {id : BookingId}
    (hne : ((service cfg).step s a).world.db.booking? id ≠ s.world.db.booking? id) :
    ∃ e ∈ ((service cfg).step s a).world.history,
      e.session.call = .cleanupStalePendingBookings now ∧
      ∃ ids, .bookingSet ids .CANCELLED ∈ e.writes ∧ id ∈ ids := by
  obtain ⟨cm, hcm, call⟩ := hc
  obtain ⟨hwf, hcommits, hdb, -, hw⟩ := h.commit hJ hcm
  rw [hw, ← hdb] at hne
  rw [hw]
  refine ⟨_, List.mem_append_right _ (List.mem_singleton.mpr rfl), call, ?_⟩
  rcases hcommits.of_cleanup call with hnil | ⟨ids, freed, hws, -⟩
  · rw [hnil] at hne
    exact absurd rfl hne
  · refine ⟨ids, by rw [hws]; exact List.mem_cons_self, ?_⟩
    by_contra hid
    rw [hws, Commits.result, Db.booking?_set (bookings_vacate _ _ _ _), if_neg hid] at hne
    exact hne rfl

/-- The clean-up takes only what is stale, a success webhook confirms only what is
PENDING, and of the two the first one wins. -/
theorem cleanup_firstWins (hs : s.Initial cfg) :
    (service cfg).Each (fun t a => ∀ now, Cleans cfg now t a →
      t.world.db.CleanedUp cfg now ((service cfg).step t a).world.db) s as ∧
    (service cfg).Each (fun t a => ∀ id, Pays cfg id t a →
      t.world.db.ConfirmedBy id ((service cfg).step t a).world.db) s as ∧
    ∀ pre a mid a' post, as = pre ++ a :: mid ++ a' :: post →
      FirstWins cfg ((service cfg).run s pre) ((service cfg).run s (pre ++ a :: mid)) a a' := by
  have hstart : Purged s.world := by
    intro e he
    simp [hs.history] at he
  have halways : (service cfg).Always (Sys.Keeps cfg Purged) s as :=
    hs.always stable_purged hstart
  refine ⟨halways.each fun t a ht now hc => ht.cleanedUp stable_purged hc,
    halways.each fun t a ht id hp => ht.confirmedBy stable_purged hp, ?_⟩
  intro pre a mid a' post hsplit
  have ht : Sys.Keeps cfg Purged ((service cfg).run s pre) :=
    Service.always_iff.mp halways pre (a :: mid ++ a' :: post) (by simp [hsplit])
  have hu : Sys.Keeps cfg Purged ((service cfg).run s (pre ++ a :: mid)) :=
    Service.always_iff.mp halways (pre ++ a :: mid) (a' :: post) hsplit
  have hstep : (service cfg).run s (pre ++ [a]) =
      (service cfg).step ((service cfg).run s pre) a := by simp [Service.run_append]
  have hsplit' : as = (pre ++ [a]) ++ mid ++ a' :: post := by simp [hsplit]
  have hlater : pre ++ [a] ++ mid = pre ++ a :: mid := by simp
  constructor
  · intro id now b hp hc hb
    obtain ⟨b₁, hb₁, hs₁⟩ := ht.settled stable_purged hp
    obtain ⟨b₂, hb₂, ha⟩ := booking_ages hs hsplit' (hstep ▸ hb₁)
    rw [hlater, hb] at hb₂
    obtain rfl := Option.some.inj hb₂
    exact hu.left_alone stable_purged hc hb fun he => hs₁ (ha.pending he)
  · intro id now hc hne hp
    obtain ⟨e, he, call, ids, hws, hid⟩ := ht.recorded stable_purged hc hne
    have he' := history_stays hs hsplit' (hstep ▸ he)
    rw [hlater] at he'
    obtain ⟨b, hb, hcancelled⟩ : ∃ b, ((service cfg).run s (pre ++ a :: mid)).world.db.booking? id =
        some b ∧ b.status = .CANCELLED := by
      obtain ⟨b₀, -, -, hb₀⟩ := hu.inv.2 e he' now call ids hws id hid
      exact ⟨_, hb₀, rfl⟩
    have hconf := hu.confirmedBy stable_purged hp
    obtain ⟨hm, hbid⟩ := Db.mem_of_booking? hb
    have hlook := hconf.bookings b hm
    rw [hbid, if_neg (by simp [hcancelled])] at hlook
    exact ⟨b, hb, hcancelled, hlook, hconf.slots⟩

end

/-- A clean-up cancels booking 101, and then its payment is reported. -/
theorem cleanup_firstWins_stale :
    let pre := Arena.first 0 (.create (Arena.dto 1 none) 7 0) 20 ++
      Arena.first 1 (.createPaymentIntent 101 7) 5 ++
      .env (.tick 960000) :: Arena.first 2 (.cleanupStalePendingBookings 960000) 7
    let mid := .run 2 :: Arena.first 3 (.handleWebhook (some 1)) 6
    FirstWins (Arena.cfg true) ((service (Arena.cfg true)).run Arena.sys pre)
      ((service (Arena.cfg true)).run Arena.sys (pre ++ .run 2 :: mid)) (.run 2) (.run 3) := by
  intro pre mid
  exact (cleanup_firstWins Arena.fresh.initial).2.2 pre (.run 2) mid (.run 3) [] rfl

end TurfSync
