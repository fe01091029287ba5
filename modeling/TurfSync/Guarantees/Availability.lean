import TurfSync.Guarantees.Invalidation

/-! The listings of available slots over runs of calls that come one after the other. A
cached listing is what the database holds unless a refund, the update of a turf or the
generation of slots has changed the day it is of: none of them deletes it. -/

namespace TurfSync

open Txn

/-! ### Generated slots -/

/-- The calls of `SlotService` that generate slots. -/
inductive Generation where
  | generateForTurf (turfId : TurfId) (days : ℕ)
  | generateSlotsForDate (date : Time)
  | generateDailySlots
  | generateSlotsForNextDays (days : ℕ)
  deriving DecidableEq, Repr

namespace Generation

open SlotService

def run (w : World) : Generation → Except Err Unit × World
  | generateForTurf turfId days => SlotService.generateForTurf turfId days w
  | generateSlotsForDate date => SlotService.generateSlotsForDate date w
  | generateDailySlots => SlotService.generateDailySlots w
  | generateSlotsForNextDays days => SlotService.generateSlotsForNextDays days w

/-- The rows for all active turfs. -/
def rowsOn (w : World) (date : Time) : List NewSlot :=
  (w.db.turfs.filter (·.isActive)).flatMap fun turf => slotsToCreate turf date

/-- The rows that a call tries to insert. -/
def rows (w : World) : Generation → List NewSlot
  | generateForTurf turfId days => match w.db.turf? turfId with
    | none => []
    | some turf => (List.range days).flatMap fun i => slotsToCreate turf (dayAfter w i)
  | generateSlotsForDate date => rowsOn w date
  | generateDailySlots => rowsOn w (startOfUTCDay (w.out.now + dayMs))
  | generateSlotsForNextDays days => (List.range days).flatMap fun i => rowsOn w (dayAfter w i)

variable {w : World}

theorem forEachOf_active {w' : World} (date : Time) (hturfs : w'.db.turfs = w.db.turfs) :
    forEachOf (fun turf => generateTurfSlots turf date) (w.db.turfs.filter (·.isActive)) w' =
      (.ok (), w'.withSlots (rowsOn w date)) := by
  refine forEachOf_withSlots fun turf hturf w'' hw'' => generateTurfSlots_ok ?_
  rw [Db.turf?, hw'', hturfs, Rows.lookup, List.find?_isSome]
  exact ⟨turf, (List.mem_filter.mp hturf).1, by simp⟩

/-- A call inserts all of its rows at once. -/
theorem run_eq (g : Generation) : g.run w = (.ok (), w.withSlots (g.rows w)) := by
  cases g with
  | generateForTurf turfId days =>
    simp only [run, rows, SlotService.generateForTurf]
    cases hturf : w.db.turf? turfId with
    | none => rfl
    | some turf =>
      refine forEachOf_withSlots fun i _ w' hw' => generateTurfSlots_ok ?_
      rw [Db.turf?, hw', (Rows.lookup_some hturf).2]
      exact Option.isSome_of_mem hturf
  | generateSlotsForDate date => exact forEachOf_active date rfl
  | generateDailySlots => exact forEachOf_active _ rfl
  | generateSlotsForNextDays days =>
    exact forEachOf_withSlots fun i _ w' hw' => forEachOf_active _ hw'

end Generation

section

variable {w : World} {data : List NewSlot} {turfId : TurfId} {date : Time}

/-- No listing is cached for the turf and day of a row that would be inserted. -/
def World.Unlisted (w : World) (data : List NewSlot) : Prop :=
  ∀ d ∈ data, (∀ s ∈ w.db.slots, s.key ≠ d.key) →
    ∀ e ∈ w.out.slotCache, ¬ (e.1 = d.turfId ∧ e.2.1 = startOfUTCDay d.date)

instance (w : World) (data : List NewSlot) : Decidable (w.Unlisted data) :=
  inferInstanceAs (Decidable (∀ d ∈ data, (∀ s ∈ w.db.slots, _) → ∀ e ∈ w.out.slotCache, _))

/-- Rows that are taken on a day change nothing there. -/
theorem filter_withSlots (h : ∀ d ∈ data, d.turfId = turfId → startOfUTCDay d.date = date →
    ∃ s ∈ w.db.slots, s.key = d.key) :
    (w.withSlots data).db.slots.filter (fun s => s.turfId = turfId ∧ s.date = date) =
      w.db.slots.filter fun s => s.turfId = turfId ∧ s.date = date := by
  have hfilter := @Rows.filter_insertAll _ _ _ Slot.key w.db.slots (newRows w.out.uuid data)
    fun k => decide (k.1 = turfId ∧ k.2.1 = date)
  have htaken : ∀ s ∈ (newRows w.out.uuid data).filter
      fun s => decide (s.key.1 = turfId ∧ s.key.2.1 = date),
      ∃ s' ∈ w.db.slots.filter fun s => decide (s.key.1 = turfId ∧ s.key.2.1 = date),
        s'.key = s.key := by
    intro s hs
    obtain ⟨hs, hon⟩ := List.mem_filter.mp hs
    obtain ⟨d, hd, id, -, -, rfl⟩ := mem_newRows hs
    obtain ⟨hturf, hdate⟩ := of_decide_eq_true hon
    obtain ⟨s', hs', hkey⟩ := h d hd hturf hdate
    refine ⟨s', List.mem_filter.mpr ⟨hs', ?_⟩, hkey⟩
    rw [hkey]
    exact hon
  rw [Rows.insertAll_of_taken htaken] at hfilter
  exact hfilter

theorem slotsOn_withSlots (h : ∀ d ∈ data, d.turfId = turfId → startOfUTCDay d.date = date →
    ∃ s ∈ w.db.slots, s.key = d.key) :
    (w.withSlots data).db.slotsOn turfId date = w.db.slotsOn turfId date := by
  unfold Db.slotsOn
  rw [filter_withSlots h]

theorem ids_newRows {uuid : ℕ} : ((newRows uuid data).map (·.id)).Nodup := by
  have hids : (newRows uuid data).map (·.id) = (List.range data.length).map (uuid + ·) := by
    refine List.ext_getElem (by simp [newRows]) fun i hi hi' => ?_
    simp [newRows, NewSlot.row]
  rw [hids]
  exact List.nodup_range.map fun i j => Nat.add_left_cancel

/-- Generated slots that are on no listed day leave the listings current. -/
theorem World.Listed.withSlots (h : w.Listed nowhere) (hdata : w.Unlisted data) :
    (w.withSlots data).Listed nowhere := by
  obtain ⟨rows, hsub, hrows⟩ := @Rows.insertAll_eq _ _ _ Slot.key w.db.slots
    (newRows w.out.uuid data)
  have hslots : (w.withSlots data).db.slots = w.db.slots ++ rows := hrows
  have hnew : ∀ s ∈ rows, w.out.uuid ≤ s.id ∧ s.id < w.out.uuid + data.length := by
    intro s hs
    obtain ⟨d, -, id, hle, hlt, rfl⟩ := mem_newRows (hsub.subset hs)
    exact ⟨hle, hlt⟩
  refine ⟨?_, fun s hs => ?_, fun b hb => ?_, fun e he _ => ?_⟩
  · rw [hslots, List.map_append, List.nodup_append]
    refine ⟨h.ids, ids_newRows.sublist (hsub.map _), fun x hx y hy => ?_⟩
    obtain ⟨s, hs, rfl⟩ := List.mem_map.mp hx
    obtain ⟨s', hs', rfl⟩ := List.mem_map.mp hy
    exact Nat.ne_of_lt (Nat.lt_of_lt_of_le (h.drawn s hs) (hnew s' hs').1)
  · rw [hslots] at hs
    rcases List.mem_append.mp hs with hs | hs
    · exact Nat.lt_of_lt_of_le (h.drawn s hs) (Nat.le_add_right _ _)
    · exact (hnew s hs).2
  · obtain ⟨s, hs, hhouse⟩ := h.housed b hb
    exact ⟨s, hslots ▸ List.mem_append_left _ hs, hhouse⟩
  · refine (h.current e he not_false).congr rfl (slotsOn_withSlots fun d hd hturf hdate => ?_)
      fun s hs => ⟨s, hslots ▸ List.mem_append_left _ hs, rfl⟩
    by_contra hfree
    exact hdata d hd (fun s hs hkey => hfree ⟨s, hs, hkey⟩) e he ⟨hturf.symm, hdate.symm⟩

end

/-! ### `TurfService` -/

namespace TurfService

open SlotService

variable {utcOffset : Time → Time} {w : World} {turfId : TurfId} {turf : Turf} {date : Time}

/-- The rows that `getAvailableSlots` tries to insert when nothing is cached. -/
def missing (w : World) (turf : Turf) (date : Time) : List NewSlot :=
  if (w.db.slotsOn turf.id date).length < turf.endHour - turf.currentHour then
    slotsToCreate turf date
  else []

theorem listSlots_eq (hturf : w.db.turf? turfId = some turf) : listSlots turfId turf date w =
    let w' := w.withSlots (missing w turf date)
    let listing : Listing := ⟨turf, w'.db.slotsOn turfId date, date⟩
    (.ok listing, { w' with out := w'.out.setListing turfId date listing }) := by
  obtain rfl := (Rows.lookup_some hturf).2
  unfold listSlots missing
  simp only
  split_ifs
  · rw [generateTurfSlots_ok (Option.isSome_of_mem hturf)]
  · rfl

theorem mem_of_listing? {o : Outside} {listing : Listing}
    (h : o.listing? turfId date = some listing) : (turfId, date, listing) ∈ o.slotCache := by
  obtain ⟨⟨t, d, l⟩, he, rfl⟩ := Option.map_eq_some_iff.mp h
  have hkey := List.find?_some he
  simp only [decide_eq_true_eq] at hkey
  obtain ⟨rfl, rfl⟩ := hkey
  exact List.mem_of_find?_eq_some he

/-- What is listed from the database is current, once the missing slots are there. -/
theorem listSlots_current (hturf : w.db.turf? turfId = some turf) :
    (w.withSlots (missing w turf date)).db.Current turfId date
      ⟨turf, (w.withSlots (missing w turf date)).db.slotsOn turfId date, date⟩ where
  turf := hturf
  slots := rfl
  day := rfl
  complete := by
    obtain rfl := (Rows.lookup_some hturf).2
    by_cases hshort : (w.db.slotsOn turf.id date).length < turf.endHour - turf.currentHour
    · right
      intro d hd _
      have hmiss : missing w turf date = slotsToCreate turf date := if_pos hshort
      obtain ⟨s, hs, hkey⟩ := @newRows_key w.out.uuid _ _ hd
      obtain ⟨s', hs', hkey'⟩ := @Rows.key_insertAll _ _ _ Slot.key w.db.slots _ _ hs
      rw [hmiss]
      exact ⟨s', hs', hkey'.trans hkey⟩
    · left
      have hmiss : missing w turf date = [] := if_neg hshort
      rw [hmiss]
      exact Nat.le_of_not_lt hshort

/-- Nothing is in the cache. -/
def uncached (w : World) : World := { w with out := { w.out with slotCache := [] } }

/-- The call answers as it would with an empty cache. -/
def AnswersAsUncached (utcOffset : Time → Time) (w : World) (turfId : TurfId) (date : DateParam) :
    Prop :=
  (getAvailableSlots utcOffset turfId date w).1 =
    (getAvailableSlots utcOffset turfId date (uncached w)).1

instance (utcOffset : Time → Time) (w : World) (turfId : TurfId) (date : DateParam) :
    Decidable (AnswersAsUncached utcOffset w turfId date) := inferInstanceAs (Decidable (_ = _))

/-- A current listing is what the database gives. -/
theorem listSlots_of_current {listing : Listing} (h : w.db.Current turfId date listing) :
    (listSlots turfId listing.turf date w).1 = .ok listing := by
  have hid : listing.turf.id = turfId := (Rows.lookup_some h.turf).2
  have hslots : (w.withSlots (missing w listing.turf date)).db.slotsOn turfId date =
      w.db.slotsOn turfId date := by
    refine slotsOn_withSlots fun d hd _ hdate => ?_
    unfold missing at hd
    split_ifs at hd with hshort
    · rw [hid, ← h.slots] at hshort
      exact h.complete.resolve_left (Nat.not_le.mpr hshort) d hd hdate
    · cases hd
  have hreply : (listSlots turfId listing.turf date w).1 =
      .ok ⟨listing.turf, listing.slots, date⟩ := by
    rw [listSlots_eq h.turf, h.slots, ← hslots]
  rw [hreply, ← h.day]

/-- While all cached listings are current, every call answers as with an empty cache. -/
theorem answersAsUncached_of_listed (h : w.Listed nowhere) (turfId : TurfId) (date : DateParam) :
    AnswersAsUncached utcOffset w turfId date := by
  have hempty : ∀ d, (uncached w).out.listing? turfId d = none := fun _ => rfl
  unfold AnswersAsUncached getAvailableSlots
  rw [show (uncached w).out.now = w.out.now from rfl]
  cases date.searchDate utcOffset w.out.now with
  | none => rfl
  | some d =>
    simp only [hempty, show (uncached w).db = w.db from rfl]
    cases hcached : w.out.listing? turfId d with
    | some cached =>
      have hcurrent : w.db.Current turfId d cached :=
        h.current _ (mem_of_listing? hcached) not_false
      simp only [hcurrent.turf]
      exact (@listSlots_of_current (uncached w) _ _ _ hcurrent).symm
    | none =>
      cases hturf : w.db.turf? turfId with
      | none => rfl
      | some turf =>
        simp only
        rw [listSlots_eq hturf, @listSlots_eq (uncached w) _ _ _ hturf]
        rfl

/-- No other day that is cached gets one of the slots that the call generates. -/
def ListingFits (utcOffset : Time → Time) (w : World) (turfId : TurfId) (date : DateParam) : Prop :=
  ∀ d ∈ date.searchDate utcOffset w.out.now, w.out.listing? turfId d = none →
    ∀ turf ∈ w.db.turf? turfId, w.Unlisted (missing w turf d)

instance (utcOffset : Time → Time) (w : World) (turfId : TurfId) (date : DateParam) :
    Decidable (ListingFits utcOffset w turfId date) :=
  inferInstanceAs (Decidable (∀ d ∈ date.searchDate utcOffset w.out.now, _ → ∀ turf ∈ _, _))

theorem getAvailableSlots_listed (h : w.Listed nowhere) {date : DateParam}
    (hfits : ListingFits utcOffset w turfId date) :
    World.Listed nowhere (getAvailableSlots utcOffset turfId date w).2 := by
  unfold ListingFits at hfits
  unfold getAvailableSlots
  cases hdate : date.searchDate utcOffset w.out.now with
  | none => exact h
  | some d =>
    simp only
    cases hcached : w.out.listing? turfId d with
    | some cached => exact h
    | none =>
      cases hturf : w.db.turf? turfId with
      | none => exact h
      | some turf =>
        have hnew : World.Listed nowhere (w.withSlots (missing w turf d)) :=
          h.withSlots (hfits d hdate hcached turf hturf)
        simp only
        rw [listSlots_eq hturf]
        refine ⟨hnew.ids, hnew.drawn, hnew.housed, fun e he hn => ?_⟩
        rcases List.mem_append.mp he with he | he
        · exact hnew.current e (List.mem_filter.mp he).1 hn
        · rw [List.mem_singleton.mp he]
          exact listSlots_current hturf

/-- The update changes no turf that is listed. -/
def UpdateFits (w : World) (id : TurfId) (dto : UpdateTurfDto) : Prop :=
  ∀ turf ∈ w.db.turf? id, ¬ NameTaken w.db id dto → dto.set w.out.now turf ≠ turf →
    ∀ e ∈ w.out.slotCache, e.1 ≠ id

instance (w : World) (id : TurfId) (dto : UpdateTurfDto) : Decidable (UpdateFits w id dto) :=
  inferInstanceAs (Decidable (∀ turf ∈ w.db.turf? id, _ → _ → ∀ e ∈ w.out.slotCache, _))

theorem update_listed (h : w.Listed nowhere) {id : TurfId} {dto : UpdateTurfDto}
    (hfits : UpdateFits w id dto) : World.Listed nowhere (update id dto w).2 := by
  unfold UpdateFits at hfits
  unfold update
  cases hturf : w.db.turf? id with
  | none => exact h
  | some turf =>
    simp only
    split_ifs with htaken
    · exact h
    refine ⟨h.ids, h.drawn, h.housed, fun e he _ => ?_⟩
    refine (h.current e he not_false).congr ?_ rfl fun s hs => ⟨s, hs, rfl⟩
    have hlookup : Rows.lookup (·.id) e.1 (Rows.update (·.id) [id] (dto.set w.out.now) w.db.turfs) =
        if e.1 ∈ [id] then (w.db.turf? e.1).map (dto.set w.out.now) else w.db.turf? e.1 :=
      Rows.lookup_update fun _ => rfl
    refine hlookup.trans ?_
    split_ifs with hid
    · obtain hid : e.1 = id := List.mem_singleton.mp hid
      have hsame : dto.set w.out.now turf = turf := by
        by_contra hne
        exact hfits turf hturf htaken hne e he hid
      rw [hid, hturf, Option.map_some, hsame]
    · rfl

end TurfService

/-! ### Sequential runs -/

/-- One call, or one thing that happens without the services. -/
inductive Step where
  | getAvailableSlots (turfId : TurfId) (date : DateParam)
  | call (c : Call)
  | generate (g : Generation)
  | update (id : TurfId) (dto : UpdateTurfDto)
  | env (v : Env)
  deriving DecidableEq, Repr

namespace Step

variable {cfg : Config} {utcOffset : Time → Time} {s : Sys}

/-- The call runs from its start to its end. -/
def next (cfg : Config) (utcOffset : Time → Time) (s : Sys) : Step → Sys
  | getAvailableSlots turfId date =>
    { s with world := (TurfService.getAvailableSlots utcOffset turfId date s.world).2 }
  | call c => if (service cfg).accepts c s.world then (service cfg).serve s c else s
  | generate g => { s with world := (g.run s.world).2 }
  | update id dto => { s with world := (TurfService.update id dto s.world).2 }
  | env v => (service cfg).step s (.env v)

/-- The step changes nothing that is listed. -/
def Fits (utcOffset : Time → Time) (s : Sys) : Step → Prop
  | getAvailableSlots turfId date => TurfService.ListingFits utcOffset s.world turfId date
  | call c => c.Fits s.world
  | generate g => s.world.Unlisted (g.rows s.world)
  | update id dto => TurfService.UpdateFits s.world id dto
  | env _ => True

/-- A call of `getAvailableSlots` answers as it would with an empty cache. -/
def Answers (utcOffset : Time → Time) (s : Sys) : Step → Prop
  | getAvailableSlots turfId date => TurfService.AnswersAsUncached utcOffset s.world turfId date
  | _ => True

instance (utcOffset : Time → Time) (s : Sys) : DecidablePred (Fits utcOffset s)
  | getAvailableSlots _ _ => inferInstanceAs (Decidable (TurfService.ListingFits _ _ _ _))
  | call c => inferInstanceAs (Decidable (c.Fits s.world))
  | generate _ => inferInstanceAs (Decidable (World.Unlisted _ _))
  | update _ _ => inferInstanceAs (Decidable (TurfService.UpdateFits _ _ _))
  | env _ => inferInstanceAs (Decidable True)

instance (utcOffset : Time → Time) (s : Sys) : DecidablePred (Answers utcOffset s)
  | getAvailableSlots _ _ => inferInstanceAs (Decidable (TurfService.AnswersAsUncached _ _ _ _))
  | call _ | generate _ | update _ _ | env _ => inferInstanceAs (Decidable True)

/-- Every step of a run meets `M`, in the state it is taken in. -/
def Each (cfg : Config) (utcOffset : Time → Time) (M : Sys → Step → Prop) : Sys → List Step → Prop
  | _, [] => True
  | s, a :: as => M s a ∧ Each cfg utcOffset M (a.next cfg utcOffset s) as

def decideEach (cfg : Config) (utcOffset : Time → Time) (M : Sys → Step → Prop)
    [∀ s a, Decidable (M s a)] : (s : Sys) → (as : List Step) → Decidable (Each cfg utcOffset M s as)
  | _, [] => inferInstanceAs (Decidable True)
  | s, a :: as =>
    have := decideEach cfg utcOffset M (a.next cfg utcOffset s) as
    inferInstanceAs (Decidable (M s a ∧ Each cfg utcOffset M (a.next cfg utcOffset s) as))

instance (cfg : Config) (utcOffset : Time → Time) (M : Sys → Step → Prop)
    [∀ s a, Decidable (M s a)] (s : Sys) (as : List Step) : Decidable (Each cfg utcOffset M s as) :=
  decideEach cfg utcOffset M s as

theorem next_listed (h : s.world.Listed nowhere) {a : Step} (ha : a.Fits utcOffset s) :
    (a.next cfg utcOffset s).world.Listed nowhere := by
  cases a with
  | getAvailableSlots turfId date => exact TurfService.getAvailableSlots_listed h ha
  | call c =>
    unfold next
    simp only
    split_ifs
    · exact (Call.body_rests h ha).listed
    · exact h
  | generate g =>
    have hrows : (s.world.withSlots (g.rows s.world)).Listed nowhere := h.withSlots ha
    unfold next
    simp only
    rw [g.run_eq]
    exact hrows
  | update id dto => exact TurfService.update_listed h ha
  | env v =>
    cases v with
    | tick ms => exact h.out (Nat.le_refl _) fun _ he => he
    | expireLock slotId => exact h.out (Nat.le_refl _) fun _ he => he

/-- A run from current listings. -/
theorem each_answers (h : s.world.Listed nowhere) {as : List Step}
    (has : Each cfg utcOffset (Fits utcOffset) s as) :
    Each cfg utcOffset (Answers utcOffset) s as := by
  induction as generalizing s with
  | nil => trivial
  | cons a as ih =>
    have hanswer : a.Answers utcOffset s := by
      cases a with
      | getAvailableSlots turfId date => exact TurfService.answersAsUncached_of_listed h turfId date
      | _ => trivial
    exact ⟨hanswer, ih (next_listed h has.1) has.2⟩

end Step

/-- A system to start from: nothing is cached, `uuid()` will draw none of the ids of the
slots, and each booking is of a slot of its turf. -/
structure Sys.Opened (s : Sys) : Prop where
  ids : (s.world.db.slots.map (·.id)).Nodup
  drawn : ∀ slot ∈ s.world.db.slots, slot.id < s.world.out.uuid
  housed : ∀ b ∈ s.world.db.bookings, s.world.db.Houses b.slotId b.turfId
  cache : s.world.out.slotCache = []

theorem Sys.Opened.listed {s : Sys} (h : s.Opened) : s.world.Listed nowhere where
  ids := h.ids
  drawn := h.drawn
  housed := h.housed
  current e he := by
    rw [h.cache] at he
    cases he

/-- As long as no step changes a slot or a turf that is listed without deleting its
listings, every call answers as it would with an empty cache. -/
theorem listings_answer {cfg : Config} {utcOffset : Time → Time} {s : Sys} (h : s.Opened)
    {as : List Step} (has : Step.Each cfg utcOffset (Step.Fits utcOffset) s as) :
    Step.Each cfg utcOffset (Step.Answers utcOffset) s as := Step.each_answers h.listed has

namespace Arena

theorem opened : sys.Opened where
  ids := by decide
  drawn := by decide
  housed := fun b hb => by cases hb
  cache := rfl

/-- The listing of the day of the two slots. -/
def look : Step := .getAvailableSlots 1 (.at_ (5 * dayMs + hourMs))

/-- User 7 books slot 1 and pays. -/
def bought : List Step :=
  [.call (.create (dto 1 none) 7 0), .call (.createPaymentIntent 101 7), .call (.handleWebhook (some 1))]

/-- The turf is open past midnight and has no slots yet. -/
def night : Sys := { sys with world := { sys.world with
  db := { db with turfs := [{ turf with openTime := ⟨22, 0⟩, closeTime := ⟨2, 0⟩ }], slots := [] } } }

end Arena

/-- Bookings, a refund, an update and generated slots, between which the day is looked
at. -/
theorem listings_answer_arena : Step.Each (Arena.cfg true) (fun _ => 0) (Step.Answers fun _ => 0)
    Arena.sys ([Arena.look] ++ Arena.bought ++ [Arena.look, .call (.create (Arena.dto 2 none) 8 0),
      .call (.refund 101 7), .update 1 { pricePerHour := some 1200 }, Arena.look,
      .generate .generateDailySlots, Arena.look, .env (.tick 60000), .call (.cancel 104 8),
      Arena.look]) :=
  listings_answer Arena.opened (by decide +kernel)

/-- A refund of a slot that is listed as booked; the update of a price that is listed; and
a night whose last hours are slots of the next day, which has been listed before. -/
theorem listings_stale :
    Arena.sys.Opened ∧
    ¬ Step.Each (Arena.cfg true) (fun _ => 0) (Step.Answers fun _ => 0) Arena.sys
      (Arena.bought ++ [Arena.look, .call (.refund 101 7), Arena.look]) ∧
    ¬ Step.Each (Arena.cfg true) (fun _ => 0) (Step.Answers fun _ => 0) Arena.sys
      [Arena.look, .update 1 { pricePerHour := some 1200 }, Arena.look] ∧
    ¬ Step.Each (Arena.cfg true) (fun _ => 0) (Step.Answers fun _ => 0) Arena.night
      [.getAvailableSlots 1 (.at_ dayMs), .getAvailableSlots 1 (.at_ 0),
        .getAvailableSlots 1 (.at_ dayMs)] :=
  ⟨Arena.opened, by decide +kernel, by decide +kernel, by decide +kernel⟩

end TurfSync
