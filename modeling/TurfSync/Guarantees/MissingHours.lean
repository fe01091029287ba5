import TurfSync.Guarantees.Availability
import TurfSync.Guarantees.OpeningHours

/-! Whether a listing has all current hours. `getAvailableSlots` generates the slots of a day
if it finds fewer rows than the turf is open for hours. It counts rows of any hour, among
them those of former opening hours and of the night before, and it counts the hours past
midnight, which are rows of the next day. So a day with hours missing is left alone exactly
if its stray rows make up for the missing hours and those past midnight. -/

namespace TurfSync

open Txn SlotService

/-! ### The hours of a day -/

/-- The slots that generation places on the date itself. -/
def placedOn (turf : Turf) (date : Time) : List NewSlot :=
  (slotsToCreate turf date).filter fun d => startOfUTCDay d.date = date

/-- The slots that generation places on the next date. -/
def spilled (turf : Turf) (date : Time) : List NewSlot :=
  (slotsToCreate turf date).filter fun d => ¬ startOfUTCDay d.date = date

/-- The current hours of the date that have no row. -/
def Db.absent (db : Db) (turf : Turf) (date : Time) : List NewSlot :=
  (placedOn turf date).filter fun d => ∀ s ∈ db.slotsOn turf.id date, s.startTime ≠ d.startTime

/-- The rows of the date at other hours. -/
def Db.strays (db : Db) (turf : Turf) (date : Time) : List Slot :=
  (db.slotsOn turf.id date).filter fun s => ∀ d ∈ placedOn turf date, d.startTime ≠ s.startTime

/-- A listing has a slot at every current hour of the date. -/
def Listing.Complete (l : Listing) (turf : Turf) (date : Time) : Prop :=
  ∀ d ∈ placedOn turf date, ∃ s ∈ l.slots, s.startTime = d.startTime

instance (l : Listing) (turf : Turf) (date : Time) : Decidable (l.Complete turf date) :=
  inferInstanceAs (Decidable (∀ d ∈ placedOn turf date, ∃ s ∈ l.slots, _))

section

variable {db : Db} {turf : Turf} {turfId : TurfId} {date : Time}

theorem mem_slotsOn {s : Slot} :
    s ∈ db.slotsOn turfId date ↔ s ∈ db.slots ∧ s.turfId = turfId ∧ s.date = date := by
  rw [Db.slotsOn, List.mem_insertionSort, List.mem_filter, decide_eq_true_eq]

/-- On one day of one turf, the unique index tells the rows apart by their start. -/
theorem nodup_slotsOn (hkeys : (db.slots.map Slot.key).Nodup) :
    ((db.slotsOn turfId date).map (·.startTime)).Nodup := by
  have hperm : (db.slotsOn turfId date).Perm
      (db.slots.filter fun s => s.turfId = turfId ∧ s.date = date) := List.perm_insertionSort _ _
  rw [(hperm.map (·.startTime)).nodup_iff]
  have hsub : ((db.slots.filter fun s => s.turfId = turfId ∧ s.date = date).map Slot.key).Nodup :=
    hkeys.sublist (List.filter_sublist.map Slot.key)
  refine List.Nodup.map_on (fun s hs s' hs' he => ?_) hsub.of_map
  have hday := of_decide_eq_true (List.mem_filter.mp hs).2
  have hday' := of_decide_eq_true (List.mem_filter.mp hs').2
  refine Rows.eq_of_key hsub hs hs' ?_
  simp only [Slot.key, hday.1, hday.2, hday'.1, hday'.2, he]

theorem slotAt_placed (hdate : startOfUTCDay date = date) {hour : ℕ} :
    startOfUTCDay (slotAt turf date hour).date = date ↔ hour < 24 := by
  have hday : dayMs ≠ 0 := by decide
  simp only [slotAt]
  split_ifs with hover
  · rw [startOfUTCDay_next, hdate]
    exact iff_of_false (fun h => hday (by linarith)) (by omega)
  · exact iff_of_true hdate (by omega)

theorem nodup_placedOn (hdate : startOfUTCDay date = date) :
    ((placedOn turf date).map (·.startTime)).Nodup := by
  rw [placedOn, slotsToCreate, List.filter_map, List.map_map]
  refine List.Nodup.map_on (fun hour hh hour' hh' he => ?_) ((List.nodup_range' 1).filter _)
  have hlt := (slotAt_placed hdate).mp (of_decide_eq_true (List.mem_filter.mp hh).2)
  have hlt' := (slotAt_placed hdate).mp (of_decide_eq_true (List.mem_filter.mp hh').2)
  simp only [Function.comp_apply, slotAt, TimeOfDay.mk.injEq, and_true] at he
  rwa [Nat.mod_eq_of_lt hlt, Nat.mod_eq_of_lt hlt'] at he

/-- The count that `getAvailableSlots` makes. -/
theorem short_iff (hkeys : (db.slots.map Slot.key).Nodup) (hdate : startOfUTCDay date = date) :
    (db.slotsOn turf.id date).length < turf.endHour - turf.currentHour ↔
      (db.strays turf date).length < (db.absent turf date).length + (spilled turf date).length := by
  have hbalance : (db.slotsOn turf.id date).length + (db.absent turf date).length =
      (db.strays turf date).length + (placedOn turf date).length :=
    Rows.length_balance _ (nodup_slotsOn hkeys) (nodup_placedOn hdate)
  have hhours : (placedOn turf date).length + (spilled turf date).length =
      turf.endHour - turf.currentHour := by
    have hsplit := (slotsToCreate turf date).length_eq_length_filter_add
      fun d => decide (startOfUTCDay d.date = date)
    simp only [← decide_not] at hsplit
    rw [placedOn, spilled, ← hsplit, slotsToCreate, List.length_map, List.length_range']
  omega

theorem absent_eq_nil_iff : db.absent turf date = [] ↔
    ∀ d ∈ placedOn turf date, ∃ s ∈ db.slotsOn turf.id date, s.startTime = d.startTime := by
  simp [Db.absent, List.filter_eq_nil_iff]

end

/-! ### Histories -/

/-- What changes slots and opening hours. Any row may be passed on as the turf, also one
that has been updated since it was read. -/
inductive Upkeep where
  | generateTurfSlots (turf : Turf) (date : Time)
  | update (id : TurfId) (dto : UpdateTurfDto)
  deriving DecidableEq, Repr

namespace Upkeep

def next (w : World) : Upkeep → World
  | generateTurfSlots turf date => (SlotService.generateTurfSlots turf date w).2
  | update id dto => (TurfService.update id dto w).2

def run (w : World) (us : List Upkeep) : World := us.foldl next w

variable {w : World}

/-- The unique index holds. -/
theorem next_keys (hkeys : (w.db.slots.map Slot.key).Nodup) (u : Upkeep) :
    ((u.next w).db.slots.map Slot.key).Nodup := by
  cases u with
  | generateTurfSlots turf date =>
    show (((SlotService.generateTurfSlots turf date w).2.db.slots).map Slot.key).Nodup
    by_cases hdata : ∀ d ∈ slotsToCreate turf date, (w.db.turf? d.turfId).isSome
    · rw [SlotService.generateTurfSlots, slotCreateMany_ok hdata]
      exact Rows.nodup_insertAll hkeys
    · have hfail : ∃ d ∈ slotsToCreate turf date, (w.db.turf? d.turfId).isNone := by
        simpa using hdata
      rw [SlotService.generateTurfSlots, slotCreateMany, if_pos hfail]
      exact hkeys
  | update id dto =>
    have hslots : (TurfService.update id dto w).2.db.slots = w.db.slots := by
      unfold TurfService.update
      cases w.db.turf? id with
      | none => rfl
      | some turf =>
        simp only
        split_ifs <;> rfl
    show ((TurfService.update id dto w).2.db.slots.map Slot.key).Nodup
    rwa [hslots]

theorem run_keys (hkeys : (w.db.slots.map Slot.key).Nodup) (us : List Upkeep) :
    ((run w us).db.slots.map Slot.key).Nodup := by
  induction us generalizing w with
  | nil => exact hkeys
  | cons u us ih => exact ih (next_keys hkeys u)

end Upkeep

/-! ### Listings -/

section

variable {utcOffset : Time → Time} {param : DateParam} {now : Time} {w : World} {turf : Turf}
  {turfId : TurfId} {date : Time}

theorem DateParam.searchDate_day (h : param.searchDate utcOffset now = some date) :
    startOfUTCDay date = date := by
  cases param with
  | invalid => cases h
  | absent | at_ t =>
    obtain rfl := Option.some.inj h
    exact startOfUTCDay_idem _

/-- After generation no hour is missing. -/
theorem complete_generated (w : World) (turf : Turf) (date : Time) :
    ∀ d ∈ placedOn turf date,
      ∃ s ∈ (w.withSlots (slotsToCreate turf date)).db.slotsOn turf.id date,
        s.startTime = d.startTime := by
  intro d hd
  obtain ⟨hd, hon⟩ := List.mem_filter.mp hd
  obtain ⟨r, hr, hrkey⟩ := @newRows_key w.out.uuid _ _ hd
  obtain ⟨s, hs, hskey⟩ : ∃ s ∈ (w.withSlots (slotsToCreate turf date)).db.slots, s.key = r.key :=
    Rows.key_insertAll hr
  have hplace : s.key = d.key := hskey.trans hrkey
  obtain ⟨hour, -, rfl⟩ := List.mem_map.mp hd
  simp only [Slot.key, NewSlot.key, Prod.mk.injEq] at hplace
  obtain ⟨hturf, hdate, hstart⟩ := hplace
  exact ⟨s, mem_slotsOn.mpr ⟨hs, hturf, hdate.trans (of_decide_eq_true hon)⟩, hstart⟩

/-- The slots that are listed when nothing is cached. -/
theorem listed_complete_iff (hkeys : (w.db.slots.map Slot.key).Nodup)
    (hdate : startOfUTCDay date = date) :
    (∀ d ∈ placedOn turf date,
      ∃ s ∈ (w.withSlots (TurfService.missing w turf date)).db.slotsOn turf.id date,
        s.startTime = d.startTime) ↔
      w.db.absent turf date = [] ∨
        (w.db.strays turf date).length <
          (w.db.absent turf date).length + (spilled turf date).length := by
  by_cases hshort : (w.db.slotsOn turf.id date).length < turf.endHour - turf.currentHour
  · rw [TurfService.missing, if_pos hshort]
    exact iff_of_true (complete_generated w turf date) (.inr ((short_iff hkeys hdate).mp hshort))
  · have hleft : ¬ _ := fun h => hshort ((short_iff hkeys hdate).mpr h)
    rw [TurfService.missing, if_neg hshort, or_iff_left hleft, absent_eq_nil_iff]
    rfl

end

/-- After any generations and updates, a listing that is not cached has all current hours of
the date if and only if no hour of it is missing from the table, or the stray rows are fewer
than the missing hours and those past midnight. -/
theorem listing_complete_iff {w₀ w : World} (hkeys : (w₀.db.slots.map Slot.key).Nodup)
    (us : List Upkeep) (hw : w = Upkeep.run w₀ us) {utcOffset : Time → Time} {param : DateParam}
    {turfId : TurfId} {turf : Turf} {date : Time}
    (hdate : param.searchDate utcOffset w.out.now = some date)
    (hmiss : w.out.listing? turfId date = none) (hturf : w.db.turf? turfId = some turf) :
    ∃ listing, (TurfService.getAvailableSlots utcOffset turfId param w).1 = .ok listing ∧
      (listing.Complete turf date ↔ w.db.absent turf date = [] ∨
        (w.db.strays turf date).length <
          (w.db.absent turf date).length + (spilled turf date).length) := by
  have hkeys' : (w.db.slots.map Slot.key).Nodup := hw ▸ Upkeep.run_keys hkeys us
  obtain rfl := (Rows.lookup_some hturf).2
  unfold TurfService.getAvailableSlots
  simp only [hdate, hmiss, hturf, TurfService.listSlots_eq hturf]
  exact ⟨_, rfl, listed_complete_iff hkeys' (DateParam.searchDate_day hdate)⟩

namespace Arena

/-- The arena after an update of its opening hours. -/
def reopened (openTime closeTime : TimeOfDay) : World :=
  Upkeep.run sys.world [.update 1 { openTime := some openTime, closeTime := some closeTime }]

/-- Its turf after the update. -/
def reopenedTurf (openTime closeTime : TimeOfDay) : Turf :=
  { turf with openTime := openTime, closeTime := closeTime }

end Arena

/-- The turf opens an hour earlier. -/
theorem listing_complete_earlier : ∃ listing,
    (TurfService.getAvailableSlots (fun _ => 0) 1 (.at_ (5 * dayMs))
      (Arena.reopened ⟨17, 0⟩ ⟨20, 0⟩)).1 = .ok listing ∧
      listing.Complete (Arena.reopenedTurf ⟨17, 0⟩ ⟨20, 0⟩) (5 * dayMs) := by
  obtain ⟨listing, hreply, hiff⟩ := @listing_complete_iff Arena.sys.world
    (Arena.reopened ⟨17, 0⟩ ⟨20, 0⟩) (by decide +kernel) _ rfl (fun _ => 0) (.at_ (5 * dayMs)) 1
    (Arena.reopenedTurf ⟨17, 0⟩ ⟨20, 0⟩) (5 * dayMs) (by decide +kernel) (by decide +kernel)
    (by decide +kernel)
  exact ⟨listing, hreply, hiff.mpr (by decide +kernel)⟩

/-- The turf moves from the evening to the morning: the two rows of the evening hide that
both hours of the morning are missing. -/
theorem listing_incomplete :
    let w := Arena.reopened ⟨8, 0⟩ ⟨10, 0⟩
    let turf := Arena.reopenedTurf ⟨8, 0⟩ ⟨10, 0⟩
    w.db.turf? 1 = some turf ∧ w.out.listing? 1 (5 * dayMs) = none ∧ ∃ listing,
      (TurfService.getAvailableSlots (fun _ => 0) 1 (.at_ (5 * dayMs)) w).1 = .ok listing ∧
      listing.slots.map (·.startTime) = [⟨18, 0⟩, ⟨19, 0⟩] ∧ ¬ listing.Complete turf (5 * dayMs) := by
  intro w turf
  exact ⟨by decide +kernel, by decide +kernel,
    ⟨turf, w.db.slotsOn 1 (5 * dayMs), 5 * dayMs⟩, by decide +kernel, by decide +kernel,
    by decide +kernel⟩

end TurfSync
