import TurfSync.Guarantees.OpeningHours
import TurfSync.Services.SlotJobs
import TurfSync.Txn.Runs

/-! The supply of slots, while its jobs, administrators and listings generate slots and
the clean-up deletes them side by side. No two slots of a turf ever overlap; nothing goes
but old slots that are free; and after a call that generates slots has ended without an
error, the hours it was to generate are there until they are old. -/

namespace TurfSync.SlotJobs

open Txn
open TurfSync.SlotService (slotAt slotsToCreate)

/-! ### Hours -/

theorem startOfUTCDay_mono {t t' : Time} (h : t ≤ t') : startOfUTCDay t ≤ startOfUTCDay t' := by
  have hfloor : ∀ t : Time, startOfUTCDay t = dayMs * (t / dayMs) := by
    intro t
    have hsplit := Int.mul_ediv_add_emod t dayMs
    unfold startOfUTCDay
    linarith
  have hpos : 0 < dayMs := by decide
  rw [hfloor, hfloor]
  exact Int.mul_le_mul_of_nonneg_left (Int.ediv_le_ediv hpos h) (le_of_lt hpos)

theorem hour_inj {day day' : ℤ} {hour hour' : ℕ} (h : hour < 24) (h' : hour' < 24)
    (he : 24 * day + hour = 24 * day' + hour') : day = day' ∧ hour = hour' := by
  omega

/-- A slot of one hour, from a full hour on. -/
structure Hourly (s : Slot) : Prop where
  date : startOfUTCDay s.date = s.date
  startTime : s.startTime.hour < 24 ∧ s.startTime.minute = 0
  endTime : s.endTime = ⟨(s.startTime.hour + 1) % 24, 0⟩

instance (s : Slot) : Decidable (Hourly s) :=
  decidable_of_iff (startOfUTCDay s.date = s.date ∧
    (s.startTime.hour < 24 ∧ s.startTime.minute = 0) ∧
    s.endTime = ⟨(s.startTime.hour + 1) % 24, 0⟩)
    ⟨fun h => ⟨h.1, h.2.1, h.2.2⟩, fun h => ⟨h.date, h.startTime, h.endTime⟩⟩

theorem hourly_row (turf : Turf) (date : Time) (hour : ℕ) (id : SlotId) :
    Hourly ((slotAt turf date hour).row id) where
  date := startOfUTCDay_idem _
  startTime := ⟨Nat.mod_lt hour (by decide), rfl⟩
  endTime := by
    have hnext : (hour + 1) % 24 = (hour % 24 + 1) % 24 := by omega
    change (⟨(hour + 1) % 24, 0⟩ : TimeOfDay) = ⟨(hour % 24 + 1) % 24, 0⟩
    rw [hnext]

namespace Hourly

variable {s s' : Slot}

/-- The hour, counted from the epoch. -/
theorem start_eq (h : Hourly s) : s.start = (24 * (s.date / dayMs) + s.startTime.hour) * hourMs := by
  have hday : dayMs = 24 * hourMs := rfl
  have hmod : s.date % dayMs = 0 := by
    have hdate := h.date
    unfold startOfUTCDay at hdate
    linarith
  have hdiv : dayMs * (s.date / dayMs) = s.date := Int.mul_ediv_cancel' (Int.dvd_of_emod_eq_zero hmod)
  rw [Slot.start, setUTCHours, h.date, h.startTime.2]
  conv_lhs => rw [← hdiv]
  rw [hday]
  push_cast
  ring

theorem finish_eq (h : Hourly s) : s.finish = s.start + hourMs := by
  have hlt := h.startTime.1
  have hmin : (s.endTime.minutes + 1440 - s.startTime.minutes) % 1440 = 60 := by
    rw [h.endTime, TimeOfDay.minutes, TimeOfDay.minutes, h.startTime.2]
    simp only
    omega
  rw [Slot.finish, hmin]
  rfl

/-- Two hours of one turf are the same, or do not overlap. -/
theorem apart (h : Hourly s) (h' : Hourly s') (hturf : s.turfId = s'.turfId) (hne : s.key ≠ s'.key) :
    s.finish ≤ s'.start ∨ s'.finish ≤ s.start := by
  have hlt := h.startTime.1
  have hlt' := h'.startTime.1
  have hhours : 24 * (s.date / dayMs) + (s.startTime.hour : ℤ) ≠
      24 * (s'.date / dayMs) + s'.startTime.hour := by
    intro he
    obtain ⟨hdays, hhour⟩ := hour_inj hlt hlt' he
    refine hne ?_
    have hdate : s.date = s'.date := by
      rw [← h.date, ← h'.date]
      have hsplit := Int.mul_ediv_add_emod s.date dayMs
      have hsplit' := Int.mul_ediv_add_emod s'.date dayMs
      unfold startOfUTCDay
      rw [hdays] at hsplit
      linarith
    have htime : s.startTime = s'.startTime := by
      have hminute : s.startTime.minute = s'.startTime.minute := h.startTime.2.trans h'.startTime.2.symm
      cases hs : s.startTime
      cases hs' : s'.startTime
      simp_all
    simp only [Slot.key, hturf, hdate, htime]
  have hms : 0 < hourMs := by decide
  rw [h.finish_eq, h'.finish_eq, h.start_eq, h'.start_eq]
  rcases lt_or_gt_of_ne hhours with hlt | hgt
  · left
    have hle := Int.mul_le_mul_of_nonneg_right (Int.add_one_le_of_lt hlt) (le_of_lt hms)
    linarith
  · right
    have hle := Int.mul_le_mul_of_nonneg_right (Int.add_one_le_of_lt hgt) (le_of_lt hms)
    linarith

end Hourly

/-! ### What stays -/

namespace World

/-- A slot from that hour on is there, or the hour is old. -/
def Kept (w : World) (key : TurfId × Time × TimeOfDay) : Prop :=
  (∃ s ∈ w.db.slots, s.key = key) ∨ key.2.1 < startOfUTCDay (w.now - 30 * dayMs)

/-- What everybody keeps to: the clock goes on, the log gets longer, and hours are kept. -/
structure Later (w w' : World) : Prop where
  now : w.now ≤ w'.now
  past : ∀ m ∈ w.past, m ∈ w'.past
  kept : ∀ key, w.Kept key → w'.Kept key

/-- The log has come to the present, and the table of slots is in order. -/
structure Sane (w : World) : Prop where
  current : (w.now, w.db.turfs) ∈ w.past
  hourly : ∀ s ∈ w.db.slots, Hourly s
  keys : (w.db.slots.map Slot.key).Nodup

/-- A slot that a step may take away. -/
def Disposable (w : World) (s : Slot) : Prop :=
  s.isBooked = false ∧ s.date < startOfUTCDay (w.now - 30 * dayMs) ∧
    ∀ b ∈ w.db.bookings, b.slotId ≠ s.id

/-- The row is still there, but for its flag. -/
def Has (w : World) (s : Slot) : Prop :=
  ∃ s' ∈ w.db.slots, s'.id = s.id ∧ s'.key = s.key ∧ s'.endTime = s.endTime

end World

/-- What a statement finds when it writes. -/
def Write.Fits (w : World) : Write → Prop
  | .insert rows => ∀ s ∈ rows, Hourly s
  | .delete before => before ≤ startOfUTCDay (w.now - 30 * dayMs) ∧
      ∀ s ∈ w.db.slots, Selected before s → ∀ b ∈ w.db.bookings, b.slotId ≠ s.id

namespace World

variable {w w' w'' : World} {key : TurfId × Time × TimeOfDay} {x : Write}

theorem Later.refl (w : World) : w.Later w := ⟨le_refl _, fun _ hm => hm, fun _ hk => hk⟩

theorem Later.trans (h : w.Later w') (h' : w'.Later w'') : w.Later w'' :=
  ⟨le_trans h.now h'.now, fun m hm => h'.past m (h.past m hm), fun k hk => h'.kept k (h.kept k hk)⟩

theorem has_self {s : Slot} (hs : s ∈ w.db.slots) : w.Has s := ⟨s, hs, rfl, rfl, rfl⟩

/-- Where each row is still there or may go, hours are kept. -/
theorem later_of_has (hnow : w.now ≤ w'.now) (hpast : ∀ m ∈ w.past, m ∈ w'.past)
    (hhas : ∀ s ∈ w.db.slots, w'.Has s ∨ w.Disposable s) : w.Later w' where
  now := hnow
  past := hpast
  kept key hk := by
    have hold : startOfUTCDay (w.now - 30 * dayMs) ≤ startOfUTCDay (w'.now - 30 * dayMs) :=
      startOfUTCDay_mono (by linarith)
    rcases hk with ⟨s, hs, rfl⟩ | hk
    · rcases hhas s hs with ⟨s', hs', -, hkey, -⟩ | ⟨-, hdate, -⟩
      · exact .inl ⟨s', hs', hkey⟩
      · exact .inr (lt_of_lt_of_le hdate hold)
    · exact .inr (lt_of_lt_of_le hk hold)

theorem apply_frame (w : World) (x : Write) :
    (w.apply x).now = w.now ∧ (w.apply x).past = w.past ∧ (w.apply x).db.turfs = w.db.turfs := by
  cases x <;> exact ⟨rfl, rfl, rfl⟩

/-- A write takes away only what may go. -/
theorem has_apply (hx : x.Fits w) {s : Slot} (hs : s ∈ w.db.slots) :
    (w.apply x).Has s ∨ w.Disposable s := by
  cases x with
  | insert rows =>
    have hthere : w.db.slots <+: Rows.insertAll Slot.key w.db.slots rows := Rows.prefix_insertAll
    exact .inl (has_self (hthere.subset hs))
  | delete before =>
    by_cases hsel : Selected before s
    · exact .inr ⟨hsel.2, lt_of_lt_of_le hsel.1 hx.1, hx.2 s hs hsel⟩
    · exact .inl (has_self (List.mem_filter.mpr ⟨hs, decide_eq_true hsel⟩))

theorem later_apply (hx : x.Fits w) : w.Later (w.apply x) := by
  obtain ⟨hnow, hpast, -⟩ := apply_frame w x
  exact later_of_has (le_of_eq hnow.symm) (fun m hm => hpast.symm ▸ hm) fun s hs => has_apply hx hs

theorem Sane.apply (h : w.Sane) (hx : x.Fits w) : (w.apply x).Sane where
  current := by
    obtain ⟨hnow, hpast, hturfs⟩ := apply_frame w x
    rw [hnow, hpast, hturfs]
    exact h.current
  hourly s hs := by
    cases x with
    | insert rows => exact (Rows.mem_insertAll hs).elim (h.hourly s) (hx s)
    | delete before => exact h.hourly s (List.mem_filter.mp hs).1
  keys := by
    cases x with
    | insert rows => exact Rows.nodup_insertAll h.keys
    | delete before => exact h.keys.sublist (List.filter_sublist.map Slot.key)

/-- What is inserted is kept. -/
theorem kept_insert {rows : List Slot} {s : Slot} (hs : s ∈ rows) :
    (w.apply (.insert rows)).Kept s.key :=
  .inl (Rows.key_insertAll hs)

end World

theorem hourly_slotsToCreate {turf : Turf} {date : Time} {d : NewSlot} (hd : d ∈ slotsToCreate turf date)
    (id : SlotId) : Hourly (d.row id) := by
  obtain ⟨hour, -, rfl⟩ := List.mem_map.mp hd
  exact hourly_row turf date hour id

theorem fits_insert {w : World} (turf : Turf) (date : Time) (uuid : ℕ) :
    (Write.insert (newRows uuid (slotsToCreate turf date))).Fits w := by
  intro s hs
  obtain ⟨d, hd, id, -, -, rfl⟩ := mem_newRows hs
  exact hourly_slotsToCreate hd id

/-! ### The surroundings -/

/-- The surroundings take no slot away. -/
theorem has_evolve (w : World) (v : Event) {s : Slot} (hs : s ∈ w.db.slots) : (v.evolve w).Has s := by
  cases v with
  | isBooked ids value =>
    refine ⟨_, Rows.mem_update.mpr ⟨s, hs, rfl⟩, ?_⟩
    split_ifs <;> exact ⟨rfl, rfl, rfl⟩
  | generate turf date =>
    have hthere : w.db.slots <+: Rows.insertAll Slot.key w.db.slots
        (newRows w.uuid (slotsToCreate turf date)) := Rows.prefix_insertAll
    exact World.has_self (hthere.subset hs)
  | _ => exact World.has_self hs

theorem later_evolve (w : World) (v : Event) : w.Later (v.evolve w) := by
  refine World.later_of_has ?_ ?_ fun s hs => .inl (has_evolve w v hs)
  · cases v with
    | tick ms => exact le_add_of_nonneg_right (Int.natCast_nonneg ms)
    | _ => exact le_refl _
  · cases v with
    | tick ms => exact fun m hm => List.mem_append_left _ hm
    | turfs rows => exact fun m hm => List.mem_append_left _ hm
    | _ => exact fun m hm => hm

theorem sane_evolve {w : World} (h : w.Sane) (v : Event) : (v.evolve w).Sane := by
  cases v with
  | tick ms => exact ⟨List.mem_append_right _ (List.mem_singleton.mpr rfl), h.hourly, h.keys⟩
  | turfs rows => exact ⟨List.mem_append_right _ (List.mem_singleton.mpr rfl), h.hourly, h.keys⟩
  | bookings rows => exact ⟨h.current, h.hourly, h.keys⟩
  | isBooked ids value =>
    refine ⟨h.current, fun s hs => ?_, ?_⟩
    · obtain ⟨s', hs', rfl⟩ := Rows.mem_update.mp hs
      have hold := h.hourly s' hs'
      split_ifs
      · exact ⟨hold.date, hold.startTime, hold.endTime⟩
      · exact hold
    · have hkeys : (Db.setSlots ids value w.db.slots).map Slot.key = w.db.slots.map Slot.key :=
        Rows.keys_update fun _ => rfl
      change ((Db.setSlots ids value w.db.slots).map Slot.key).Nodup
      rw [hkeys]
      exact h.keys
  | generate turf date =>
    have hsane : World.Sane { w with uuid := w.uuid + (slotsToCreate turf date).length } :=
      ⟨h.current, h.hourly, h.keys⟩
    exact hsane.apply (fits_insert turf date w.uuid)

/-! ### The rules of a call -/

/-- A statement leaves the world as it is, but for the next id. -/
theorem act_world (m : Stmt) (v w : World) : ∃ n, (m.act v w).world = { w with uuid := n } := by
  cases m with
  | slotCreateMany data =>
    simp only [Stmt.act]
    split_ifs <;> exact ⟨_, rfl⟩
  | slotDeleteMany before =>
    simp only [Stmt.act]
    split_ifs <;> exact ⟨_, rfl⟩
  | _ => exact ⟨w.uuid, rfl⟩

/-- A call makes one write at a time, and finds it fitting. -/
def rules : Rules Stmt Empty Write World Call where
  inv := World.Sane
  rely _ _ w w' := w.Later w'
  start _ _ := True
  allow _ _ _ _ _ := True
  post _ _ ws w := ∃ x : Write, ws = [x] ∧ x.Fits w

theorem later_uuid (w : World) (n : ℕ) : w.Later { w with uuid := n } :=
  ⟨le_refl _, fun _ hm => hm, fun _ hk => hk⟩

theorem rules_lawful : rules.Lawful engine where
  refl _ _ w := .refl w
  trans h h' := h.trans h'
  start _ _ := trivial
  act_inv m v w hw := by
    obtain ⟨n, hn⟩ := act_world m v w
    change (m.act v w).world.Sane
    rw [hn]
    exact ⟨hw.current, hw.hourly, hw.keys⟩
  act_rely m v w _ _ _ := by
    obtain ⟨n, hn⟩ := act_world m v w
    change w.Later (m.act v w).world
    rw [hn]
    exact later_uuid w n
  commit_inv {c held ws w} hw hpost := by
    obtain ⟨x, rfl, hx⟩ := hpost
    exact hw.apply hx
  commit_rely {c held ws w n ks} _ hpost _ _ := by
    obtain ⟨x, rfl, hx⟩ := hpost
    exact World.later_apply hx

section

variable {c : Session Call} {w : World} {α ι : Type}

/-- What a part of a program leaves behind: it has not begun a transaction, others can rely on
what it did, and `P`. -/
abbrev Leaves (w : World) (P : World → Prop) : Post Err Empty Write World Unit :=
  Keeps (fun _ l w' => l = .idle ∧ w.Later w' ∧ P w') fun _ _ _ => True

/-- What is claimed of a call that does not throw. -/
abbrev Ensures (P : World → Prop) : Post Err Empty Write World α :=
  Keeps (fun _ _ w' => P w') fun _ _ _ => True

/-- A statement that reads. -/
theorem wp_read {m : Stmt} {f : m.Reply → Op α} {P : World → Prop} {r : World → m.Reply}
    (hwrites : ∀ v w, (m.act v w).writes = []) (hact : ∀ w, m.act w w = ⟨.ok (r w), [], [], w⟩)
    (h : ∀ w', w.Later w' → w'.Sane → wp engine rules c (f (r w')) (Ensures P) .idle w') :
    wp engine rules c ((stmt m).bind f) (Ensures P) .idle w := by
  refine wp_stmt_read hwrites (fun w' hw hsane _ => ?_) fun _ _ _ _ _ _ _ => trivial
  change wp _ _ _ (resume (m.act w' w').reply f) _ .idle (m.act w' w').world
  rw [hact]
  exact h w' hw hsane

/-- What a loop does for each element, if later rounds keep it. -/
theorem wp_each {f : ι → Op Unit} {is : List ι} {P : ι → World → Prop}
    (hP : ∀ i w w', World.Later w w' → P i w → P i w')
    (hf : ∀ i ∈ is, ∀ w, wp engine rules c (f i) (Leaves w (P i)) .idle w) :
    wp engine rules c (Script.forEach f is) (Leaves w fun w' => ∀ i ∈ is, P i w') .idle w := by
  refine wp_forEach rules_lawful (J := fun past l w' => l = .idle ∧ w.Later w' ∧ ∀ i ∈ past, P i w')
    (Z := fun _ _ _ => True) (fun i hi past l w₁ h => ?_)
    (fun past l w₁ w₂ h hw _ => ⟨h.1, h.2.1.trans hw, fun i hi => hP i _ _ hw (h.2.2 i hi)⟩)
    ⟨rfl, .refl w, by simp⟩
  obtain ⟨rfl, hw₁, hpast⟩ := h
  refine wp_mono (hf i hi w₁) ?_
  rintro (e | _) l w₂ - hq
  · trivial
  · obtain ⟨hl, hw₂, hi⟩ := hq
    refine ⟨hl, hw₁.trans hw₂, fun j hj => ?_⟩
    rcases List.mem_append.mp hj with hj | hj
    · exact hP j _ _ hw₂ (hpast j hj)
    · rw [List.mem_singleton.mp hj]
      exact hi

/-- The hours that are generated of a turf on a date. -/
def World.Stocked (w : World) (turf : Turf) (date : Time) : Prop :=
  ∀ d ∈ slotsToCreate turf date, w.Kept d.key

theorem World.Stocked.later {w' : World} {turf : Turf} {date : Time} (h : w.Stocked turf date)
    (hw : w.Later w') : w'.Stocked turf date :=
  fun d hd => hw.kept _ (h d hd)

theorem wp_generate (turf : Turf) (date : Time) :
    wp engine rules c (SlotService.generateTurfSlots turf date)
      (Leaves w fun w' => w'.Stocked turf date) .idle w := by
  rw [SlotService.generateTurfSlots, ← Prog.bind_ret (stmt _)]
  refine wp_stmt_auto (fun w₁ hw₁ _ _ => ?_) fun _ _ _ _ _ _ _ => trivial
  simp only [engine, Stmt.act]
  split_ifs with hmissing
  · exact ⟨fun _ _ _ _ => trivial, fun hws => absurd rfl hws⟩
  · refine ⟨fun hws => absurd hws (by simp), fun _ => ⟨⟨_, rfl, fits_insert turf date w₁.uuid⟩, ?_⟩⟩
    intro w₂ hw₂ _
    have hnext := later_uuid w₁ (w₁.uuid + (slotsToCreate turf date).length)
    have hcommit := World.later_apply (w := { w₁ with
      uuid := w₁.uuid + (slotsToCreate turf date).length }) (fits_insert turf date w₁.uuid)
    refine ⟨rfl, ((hw₁.trans hnext).trans hcommit).trans hw₂, fun d hd => hw₂.kept _ ?_⟩
    obtain ⟨s, hs, hkey⟩ := @newRows_key w₁.uuid _ _ hd
    rw [← hkey]
    exact World.kept_insert hs

end

/-! ### The calls -/

namespace Request

/-- The turfs that a call generates slots of. -/
def turfs (rows : List Turf) : Request → List Turf
  | .generateDailySlots | .generateSlotsForNextDays _ => rows.filter (·.isActive)
  | .generateForTurf turfId _ => (Rows.lookup (·.id) turfId rows).toList
  | .cleanupOldSlots => []

/-- The days that a call generates slots for, counted from today. -/
def days : Request → List ℕ
  | .generateDailySlots => [1]
  | .generateSlotsForNextDays days => List.range days
  | .generateForTurf _ days => List.range days
  | .cleanupOldSlots => []

end Request

/-- All hours are there of all the turfs that there were at one moment since the call began, for
the days that follow an instant since it began. -/
def Call.Supplied (w : World) (c : Call) : Prop :=
  ∃ m ∈ w.past, c.start ≤ m.1 ∧ ∃ now, c.start ≤ now ∧ now ≤ w.now ∧
    ∀ turf ∈ c.request.turfs m.2, ∀ i ∈ c.request.days,
      w.Stocked turf (startOfUTCDay now + i * dayMs)

section

variable {w : World} {n : ℕ} {start : Time}

/-- What a call has supplied when it ends, is so from then on. -/
theorem supplied_of {c : Call} {w₁ w₂ w₃ : World} (hstart : c.start ≤ w₁.now) (hsane₁ : w₁.Sane)
    {now : Time} (hnow : c.start ≤ now) (hle : now ≤ w₂.now) (hw₁ : w₁.Later w₂) (hw₂ : w₂.Later w₃)
    (h : ∀ turf ∈ c.request.turfs w₁.db.turfs, ∀ i ∈ c.request.days,
      w₂.Stocked turf (startOfUTCDay now + i * dayMs)) : c.Supplied w₃ :=
  ⟨(w₁.now, w₁.db.turfs), hw₂.past _ (hw₁.past _ hsane₁.current), hstart, now, hnow,
    le_trans hle hw₂.now, fun turf hturf i hi => (h turf hturf i hi).later hw₂⟩

theorem wp_generateDailySlots (hstart : start ≤ w.now) :
    wp engine rules ⟨n, ⟨.generateDailySlots, start⟩⟩ SlotService.generateDailySlots
      (Ensures fun w' => Call.Supplied w' ⟨.generateDailySlots, start⟩) .idle w := by
  refine wp_read (r := fun w => w.now) (fun _ _ => rfl) (fun _ => rfl) fun w₁ hw₁ _ => ?_
  have hstart₁ := le_trans hstart hw₁.now
  simp only [SlotService.generateSlotsForDate, Prog.bind_eq, Prog.pure_eq, Prog.bind_assoc]
  refine wp_read (r := fun w => w.db.turfs.filter (·.isActive)) (fun _ _ => rfl)
    (fun _ => rfl) fun w₂ hw₂ hsane₂ => ?_
  refine wp_bind rules_lawful (wp_mono (wp_each (P := fun turf w' =>
    w'.Stocked turf (startOfUTCDay (w₁.now + dayMs))) (fun _ _ _ hw h => h.later hw)
    fun turf _ w' => wp_generate turf _) ?_)
  rintro (e | _) l w₃ - hq
  · trivial
  obtain ⟨rfl, hw₃, hstocked⟩ := hq
  intro w₄ hw₄ _
  refine supplied_of (le_trans hstart₁ hw₂.now) hsane₂ hstart₁ (le_trans hw₂.now hw₃.now) hw₃ hw₄
    fun turf hturf i hi => ?_
  obtain rfl := List.mem_singleton.mp hi
  have htomorrow : startOfUTCDay w₁.now + (1 : ℕ) * dayMs = startOfUTCDay (w₁.now + dayMs) := by
    rw [startOfUTCDay_next, Nat.cast_one, one_mul]
  rw [htomorrow]
  exact hstocked turf hturf

theorem wp_generateSlotsForNextDays (hstart : start ≤ w.now) (days : ℕ) :
    wp engine rules ⟨n, ⟨.generateSlotsForNextDays days, start⟩⟩
      (SlotService.generateSlotsForNextDays days)
      (Ensures fun w' => Call.Supplied w' ⟨.generateSlotsForNextDays days, start⟩) .idle w := by
  refine wp_read (r := fun w => w.db.turfs.filter (·.isActive)) (fun _ _ => rfl)
    (fun _ => rfl) fun w₁ hw₁ hsane₁ => ?_
  have hstart₁ := le_trans hstart hw₁.now
  by_cases hnone : w₁.db.turfs.filter (·.isActive) = []
  · rw [if_pos hnone]
    intro w₂ hw₂ _
    refine supplied_of hstart₁ hsane₁ hstart₁ (le_refl _) (.refl w₁) hw₂ fun turf hturf => ?_
    change turf ∈ w₁.db.turfs.filter (·.isActive) at hturf
    rw [hnone] at hturf
    cases hturf
  · rw [if_neg hnone]
    refine wp_read (r := fun w => w.now) (fun _ _ => rfl) (fun _ => rfl) fun w₂ hw₂ _ => ?_
    -- a day is done when all turfs have its slots
    refine wp_bind rules_lawful (wp_mono (wp_each (P := fun (i : ℕ) w' =>
      ∀ turf ∈ w₁.db.turfs.filter (·.isActive),
        w'.Stocked turf (startOfUTCDay w₂.now + i * dayMs))
      (fun _ _ _ hw h turf hturf => (h turf hturf).later hw) fun i _ w' => ?_) ?_)
    · exact wp_each (P := fun turf w' => w'.Stocked turf (startOfUTCDay w₂.now + i * dayMs))
        (fun _ _ _ hw h => h.later hw) fun turf _ w' => wp_generate turf _
    · rintro (e | _) l w₃ - hq
      · trivial
      obtain ⟨rfl, hw₃, hstocked⟩ := hq
      intro w₄ hw₄ _
      exact supplied_of hstart₁ hsane₁ (le_trans hstart₁ hw₂.now) hw₃.now (hw₂.trans hw₃) hw₄
        fun turf hturf i hi => hstocked i hi turf hturf

theorem wp_generateForTurf (hstart : start ≤ w.now) (turfId : TurfId) (days : ℕ) :
    wp engine rules ⟨n, ⟨.generateForTurf turfId days, start⟩⟩
      (SlotService.generateForTurf turfId days)
      (Ensures fun w' => Call.Supplied w' ⟨.generateForTurf turfId days, start⟩) .idle w := by
  refine wp_read (r := fun w => w.db.turf? turfId) (fun _ _ => rfl) (fun _ => rfl)
    fun w₁ hw₁ hsane₁ => ?_
  have hstart₁ := le_trans hstart hw₁.now
  have hturfs : Request.turfs w₁.db.turfs (.generateForTurf turfId days) =
      (w₁.db.turf? turfId).toList := rfl
  cases hturf : w₁.db.turf? turfId with
  | none =>
    intro w₂ hw₂ _
    refine supplied_of hstart₁ hsane₁ hstart₁ (le_refl _) (.refl w₁) hw₂ fun turf hmem => ?_
    rw [hturfs, hturf] at hmem
    cases hmem
  | some turf =>
    refine wp_read (r := fun w => w.now) (fun _ _ => rfl) (fun _ => rfl) fun w₂ hw₂ _ => ?_
    refine wp_bind rules_lawful (wp_mono (wp_each (P := fun (i : ℕ) w' =>
      w'.Stocked turf (startOfUTCDay w₂.now + i * dayMs)) (fun _ _ _ hw h => h.later hw)
      fun i _ w' => wp_generate turf _) ?_)
    rintro (e | _) l w₃ - hq
    · trivial
    obtain ⟨rfl, hw₃, hstocked⟩ := hq
    intro w₄ hw₄ _
    refine supplied_of hstart₁ hsane₁ (le_trans hstart₁ hw₂.now) hw₃.now (hw₂.trans hw₃) hw₄
      fun turf' hmem i hi => ?_
    rw [hturfs, hturf, Option.toList_some, List.mem_singleton] at hmem
    rw [hmem]
    exact hstocked i hi

/-- The clean-up deletes slots that are old when it reads the clock, and so ever after. -/
theorem wp_cleanupOldSlots (hstart : start ≤ w.now) :
    wp engine rules ⟨n, ⟨.cleanupOldSlots, start⟩⟩ SlotService.cleanupOldSlots
      (Ensures fun w' => Call.Supplied w' ⟨.cleanupOldSlots, start⟩) .idle w := by
  have hdone : ∀ {w' : World}, start ≤ w'.now → w'.Sane →
      Call.Supplied w' ⟨.cleanupOldSlots, start⟩ := by
    intro w' hstart' hsane'
    refine supplied_of hstart' hsane' hstart' (le_refl _) (.refl w') (.refl w') fun turf hturf => ?_
    cases hturf
  refine wp_read (r := fun w => w.now) (fun _ _ => rfl) (fun _ => rfl) fun w₁ hw₁ _ => ?_
  have hstart₁ := le_trans hstart hw₁.now
  refine wp_stmt_auto (fun w₂ hw₂ _ _ => ?_) fun _ _ _ _ _ _ _ => trivial
  have hstart₂ := le_trans hstart₁ hw₂.now
  simp only [engine, Stmt.act]
  split_ifs with hbooked
  · exact ⟨fun _ _ _ _ => trivial, fun hws => absurd rfl hws⟩
  · have hfits : (Write.delete (startOfUTCDay (w₁.now - 30 * dayMs))).Fits w₂ := by
      refine ⟨startOfUTCDay_mono ?_, fun s hs hsel b hb he => hbooked ⟨s, hs, hsel, b, hb, he⟩⟩
      have hnow := hw₂.now
      linarith
    refine ⟨fun hws => absurd hws (by simp), fun _ => ⟨⟨_, rfl, hfits⟩, fun w₃ hw₃ hsane₃ => ?_⟩⟩
    have hlater := (World.later_apply hfits).trans hw₃
    exact hdone (le_trans hstart₂ hlater.now) hsane₃

end

theorem wp_body {w : World} (n : ℕ) (c : Call) (hstart : c.start ≤ w.now) :
    wp engine rules ⟨n, c⟩ c.body (Ensures fun w' => c.Supplied w') .idle w := by
  obtain ⟨request, start⟩ := c
  cases request with
  | generateDailySlots => exact wp_generateDailySlots hstart
  | generateSlotsForNextDays days => exact wp_generateSlotsForNextDays hstart days
  | generateForTurf turfId days => exact wp_generateForTurf hstart turfId days
  | cleanupOldSlots => exact wp_cleanupOldSlots hstart

theorem starts : Starts service rules fun c => Ensures fun w => c.call.Supplied w where
  evolve_inv v _ h := sane_evolve h v
  evolve_rely v w _ _ _ := later_evolve w v
  body n c _ _ _ haccept := wp_body n c (le_of_eq (of_decide_eq_true haccept))

/-! ### Runs -/

/-- Nothing has been called, the log begins, and the slots that there are are in order. -/
structure Sys.Initial (s : Sys) : Prop where
  threads : s.threads = []
  past : s.world.past = [(s.world.now, s.world.db.turfs)]
  hourly : ∀ slot ∈ s.world.db.slots, Hourly slot
  keys : (s.world.db.slots.map Slot.key).Nodup

/-- The system keeps to the rules. -/
abbrev Lawful (s : Sys) : Prop :=
  Sound service rules (fun c => Ensures fun w => c.call.Supplied w) s

variable {s : Sys} {as : List Act}

theorem Sys.Initial.always (hs : s.Initial) : service.Always Lawful s as := by
  have hstart : Lawful s := {
    inv := ⟨by simp [hs.past], hs.hourly, hs.keys⟩
    starts := fun _ _ => trivial
    ids := fun i t ht => by simp [hs.threads] at ht
    excl := fun i t ht => by simp [hs.threads] at ht
    wps := fun i t ht => by simp [hs.threads] at ht }
  exact Service.always_sound rules_lawful starts hstart (Service.each_of_forall permits_any s as)

/-- Whatever else happens: when a call that generates slots has ended without an error, the
hours it was to generate are there, and stay until they are old. -/
theorem slots_supplied (hs : s.Initial) {i : ℕ} {c : Call} {r : Reply}
    (he : (service.run s as).Ended i c (.ok r)) : c.Supplied (service.run s as).world := by
  have hlast : Lawful (service.run s as) := hs.always.last
  obtain ⟨l, hsupplied⟩ := hlast.post rules_lawful he
  exact hsupplied

/-- The service in surroundings that stand still. -/
def still : Service Stmt Stmt.Reply Err Empty Write World Call Event Reply :=
  { service with evolve := fun _ w => w }

/-- What a step does to a row. -/
theorem has_step {t : Sys} (h : Lawful t) (a : Act) {slot : Slot} (hslot : slot ∈ t.world.db.slots) :
    (service.step t a).world.Has slot ∨ t.world.Disposable slot := by
  cases a with
  | spawn c =>
    simp only [Service.step]
    split_ifs <;> exact .inl (World.has_self hslot)
  | fault i =>
    simp only [Service.step, Service.interrupt]
    split
    · exact .inl (World.has_self hslot)
    · split <;> exact .inl (World.has_self hslot)
  | env v => exact .inl (has_evolve t.world v hslot)
  | run i =>
    have hact : ∀ m v w, ((engine.act m v w).world.now, (engine.act m v w).world.db) = (w.now, w.db) := by
      intro m v w
      obtain ⟨n, hn⟩ := act_world m v w
      change ((m.act v w).world.now, (m.act v w).world.db) = _
      rw [hn]
    -- what a statement does has nothing to do with the surroundings
    have hframe := still.step_frame (fun w : World => (w.now, w.db)) hact (fun _ _ => rfl) t (.run i)
    rcases hframe with ⟨-, hsame⟩ | ⟨cm, hcm, hbase, -⟩
    · obtain ⟨-, hdb⟩ := Prod.mk.inj hsame
      refine .inl (World.has_self ?_)
      change slot ∈ (still.step t (.run i)).world.db.slots
      rw [hdb]
      exact hslot
    · have hcm : service.committed t (.run i) = some cm := hcm
      obtain ⟨hnow, hdb⟩ := Prod.mk.inj hbase
      obtain ⟨-, -, ⟨-, x, hx, hfits⟩, hworld⟩ := h.commit_post rules_lawful (permits_any t _) hcm
      have hdone : (service.step t (.run i)).world = cm.base.apply x := by
        rw [hworld, hx]
        rfl
      rw [hdone]
      rcases World.has_apply hfits (hdb.symm ▸ hslot) with hhas | ⟨hfree, hold, hnone⟩
      · exact .inl hhas
      · exact .inr ⟨hfree, hnow ▸ hold, hdb ▸ hnone⟩

/-- No two slots of a turf overlap, and no step takes a slot away but an old one that is free
and has no booking. -/
theorem slots_in_order (hs : s.Initial) :
    service.Always (fun t => ∀ slot ∈ t.world.db.slots, ∀ slot' ∈ t.world.db.slots,
      slot.turfId = slot'.turfId → slot ≠ slot' →
      slot.finish ≤ slot'.start ∨ slot'.finish ≤ slot.start) s as ∧
    service.Each (fun t a => ∀ slot ∈ t.world.db.slots,
      (service.step t a).world.Has slot ∨ t.world.Disposable slot) s as := by
  constructor
  · refine hs.always.mono fun t ht slot hslot slot' hslot' hturf hne => ?_
    have hsane : t.world.Sane := ht.inv
    refine (hsane.hourly slot hslot).apart (hsane.hourly slot' hslot') hturf fun hkey => ?_
    exact hne (Rows.eq_of_key hsane.keys hslot hslot' hkey)
  · exact hs.always.each fun t a ht slot hslot => has_step ht a hslot

/-! ### A turf that closes past midnight -/

namespace Arena

def turf : Turf :=
  ⟨1, "Arena", "", "Road", "Dhaka", .FOOTBALL, 10, ⟨22, 0⟩, ⟨1, 0⟩, 0, true, [], 0, 0⟩

def sys : Sys := ⟨⟨0, 0, ⟨[turf], [], [], [], [], [], [], []⟩, [(0, [turf])]⟩, []⟩

theorem initial : sys.Initial := ⟨rfl, rfl, by decide, by decide⟩

/-- Two days are generated, while the turf is edited to open earlier, and a slot is booked. -/
def generated : List Act :=
  [.spawn ⟨.generateForTurf 1 2, 0⟩, .run 0, .env (.turfs [{ turf with openTime := ⟨20, 0⟩ }]),
    .run 0, .run 0, .env (.isBooked [1] true), .run 0]

end Arena

theorem slots_supplied_edited : Call.Supplied (service.run Arena.sys Arena.generated).world
    ⟨.generateForTurf 1 2, 0⟩ :=
  slots_supplied (i := 0) (r := .message "2 slots generated for turf 1 successfully") Arena.initial
    (by decide +kernel)

theorem slots_in_order_edited :
    let slots := (service.run Arena.sys Arena.generated).world.db.slots
    ∀ slot ∈ slots, ∀ slot' ∈ slots, slot.turfId = slot'.turfId → slot ≠ slot' →
      slot.finish ≤ slot'.start ∨ slot'.finish ≤ slot.start :=
  (slots_in_order Arena.initial).1.last

/-! ### Calls that run alone -/

/-- The world as the calls see it that come one after the other. -/
def World.plain (w : World) (t : TurfSync.World) : TurfSync.World :=
  { t with db := w.db, out := { t.out with now := w.now, uuid := w.uuid } }

/-- Both end the same way, in the same world. -/
structure Alike {α : Type} (t : TurfSync.World) (r : Except Err α × Local Empty Write × World)
    (q : Except Err Unit × TurfSync.World) : Prop where
  idle : r.2.1 = .idle
  reply : r.1.map (fun _ => ()) = q.1
  world : r.2.2.plain t = q.2

section

variable {c : Session Call} {w : World} {t : TurfSync.World}

theorem alike_generate (turf : Turf) (date : Time) (w : World) :
    Alike t (engine.solo c (SlotService.generateTurfSlots turf date) .idle w)
      (TurfSync.SlotService.generateTurfSlots turf date (w.plain t)) := by
  rw [SlotService.generateTurfSlots, stmt, Engine.solo_perform_auto]
  simp only [engine, Stmt.act, TurfSync.SlotService.generateTurfSlots,
    TurfSync.SlotService.slotCreateMany]
  split_ifs <;> first | contradiction | exact ⟨rfl, rfl, rfl⟩

/-- What is returned in the end does not matter. -/
theorem Alike.ret {α : Type} {p : Op Unit} {a : α} {q : Except Err Unit × TurfSync.World}
    (h : Alike t (engine.solo c p .idle w) q) :
    Alike t (engine.solo c (p.bind fun _ => .ret a) .idle w) q := by
  obtain ⟨hidle, hreply, hworld⟩ := h
  rw [Engine.solo_bind]
  generalize engine.solo c p .idle w = r at *
  obtain ⟨(e | u), l, w'⟩ := r
  · exact ⟨hidle, hreply, hworld⟩
  · exact ⟨hidle, hreply, hworld⟩

theorem alike_forEach {ι : Type} {f : ι → Op Unit}
    {g : ι → TurfSync.World → Except Err Unit × TurfSync.World}
    (h : ∀ i w, Alike t (engine.solo c (f i) .idle w) (g i (w.plain t))) (is : List ι) (w : World) :
    Alike t (engine.solo c (Script.forEach f is) .idle w) (forEachOf g is (w.plain t)) := by
  induction is generalizing w with
  | nil => exact ⟨rfl, rfl, rfl⟩
  | cons i is ih =>
    obtain ⟨hidle, hreply, hworld⟩ := h i w
    rw [Script.forEach, Engine.solo_bind, forEachOf]
    generalize engine.solo c (f i) .idle w = r at *
    generalize g i (w.plain t) = q at *
    obtain ⟨r, l, w₁⟩ := r
    obtain ⟨q, w₂⟩ := q
    simp only at hidle hreply hworld
    subst hidle hreply hworld
    cases r with
    | ok u => exact ih w₁
    | error e => exact ⟨rfl, rfl, rfl⟩

theorem forEachOf_idle {ι : Type} (is : List ι) (w : TurfSync.World) :
    forEachOf (fun _ w => (.ok (), w)) is w = (.ok (), w) := by
  induction is with
  | nil => rfl
  | cons i is ih => exact ih

/-- The calls one after the other. -/
def Request.alone : Request → TurfSync.World → Except Err Unit × TurfSync.World
  | .generateDailySlots => TurfSync.SlotService.generateDailySlots
  | .generateSlotsForNextDays days => TurfSync.SlotService.generateSlotsForNextDays days
  | .generateForTurf turfId days => TurfSync.SlotService.generateForTurf turfId days
  | .cleanupOldSlots => TurfSync.SlotService.cleanupOldSlots

theorem solo_clock {α : Type} (f : Time → Op α) (w : World) :
    engine.solo c ((stmt .clock).bind f) .idle w = engine.solo c (f w.now) .idle w := rfl

theorem solo_turfs {α : Type} (f : List Turf → Op α) (w : World) :
    engine.solo c ((stmt .turfFindManyActive).bind f) .idle w =
      engine.solo c (f (w.db.turfs.filter (·.isActive))) .idle w := rfl

theorem solo_turf {α : Type} (turfId : TurfId) (f : Option Turf → Op α) (w : World) :
    engine.solo c ((stmt (.turfFindUnique turfId)).bind f) .idle w =
      engine.solo c (f (w.db.turf? turfId)) .idle w := rfl

/-- A call that runs alone does what it does in the model of calls one after the other. -/
theorem alike_alone (n : ℕ) (call : Call) (w : World) :
    Alike t (engine.solo ⟨n, call⟩ call.body .idle w) (call.request.alone (w.plain t)) := by
  obtain ⟨request, start⟩ := call
  cases request with
  | generateDailySlots =>
    change Alike t (engine.solo _ SlotService.generateDailySlots .idle w) _
    rw [SlotService.generateDailySlots, Prog.bind_eq, solo_clock]
    refine Alike.ret ?_
    rw [SlotService.generateSlotsForDate, Prog.bind_eq, solo_turfs]
    exact alike_forEach (fun turf => alike_generate turf _) _ w
  | generateSlotsForNextDays days =>
    change Alike t (engine.solo _ (SlotService.generateSlotsForNextDays days) .idle w) _
    rw [SlotService.generateSlotsForNextDays, Prog.bind_eq, solo_turfs]
    by_cases hnone : w.db.turfs.filter (·.isActive) = []
    · have hidle : TurfSync.SlotService.generateSlotsForNextDays days (w.plain t) =
          (.ok (), w.plain t) := by
        have hturfs : (w.plain t).db.turfs.filter (·.isActive) = [] := hnone
        rw [TurfSync.SlotService.generateSlotsForNextDays, hturfs]
        exact forEachOf_idle _ _
      rw [if_pos hnone, Request.alone, hidle]
      exact ⟨rfl, rfl, rfl⟩
    · rw [if_neg hnone, Prog.bind_eq, solo_clock]
      refine Alike.ret ?_
      exact alike_forEach (fun i => alike_forEach (fun turf => alike_generate turf _) _) _ w
  | generateForTurf turfId days =>
    change Alike t (engine.solo _ (SlotService.generateForTurf turfId days) .idle w)
      (TurfSync.SlotService.generateForTurf turfId days (w.plain t))
    have hrow : (w.plain t).db.turf? turfId = w.db.turf? turfId := rfl
    rw [SlotService.generateForTurf, Prog.bind_eq, solo_turf, TurfSync.SlotService.generateForTurf,
      hrow]
    cases w.db.turf? turfId with
    | none => exact ⟨rfl, rfl, rfl⟩
    | some turf =>
      simp only [Prog.bind_eq]
      rw [solo_clock]
      refine Alike.ret ?_
      exact alike_forEach (fun i => alike_generate turf _) _ w
  | cleanupOldSlots =>
    change Alike t (engine.solo _ SlotService.cleanupOldSlots .idle w)
      (TurfSync.SlotService.cleanupOldSlots (w.plain t))
    rw [SlotService.cleanupOldSlots, Prog.bind_eq, solo_clock]
    refine Alike.ret ?_
    rw [stmt, Engine.solo_perform_auto]
    by_cases hbooked : ∃ s ∈ w.db.slots, Selected (startOfUTCDay (w.now - 30 * dayMs)) s ∧
        ∃ b ∈ w.db.bookings, b.slotId = s.id
    · have hplain : TurfSync.SlotService.cleanupOldSlots (w.plain t) = (.error .P2003, w.plain t) :=
        if_pos hbooked
      rw [hplain]
      simp only [engine, Stmt.act, if_pos hbooked]
      exact ⟨rfl, rfl, rfl⟩
    · have hplain : TurfSync.SlotService.cleanupOldSlots (w.plain t) = (.ok (),
          (w.apply (.delete (startOfUTCDay (w.now - 30 * dayMs)))).plain t) := if_neg hbooked
      rw [hplain]
      simp only [engine, Stmt.act, if_neg hbooked]
      exact ⟨rfl, rfl, rfl⟩

end

end TurfSync.SlotJobs
