import Mathlib.Data.List.ProdSigma
import TurfSync.Services.Slot
import TurfSync.Guarantees.Slots

/-! The table of slots. Generating a turf's slots for some consecutive days, in any order
and any number of times, leaves each hour of each business day once: an hour is counted
from the first of the days on, and the hours of two days differ because a day has at
most 24. Old slots are cleaned up by one deletion, which goes through exactly when none
of the free ones has ever been booked; along a run those are the slots that a cancellation,
a clean-up of bookings or a refund has freed. -/

namespace TurfSync

open Txn SlotService

/-! ### Slots as intervals -/

/-- Minutes since midnight. -/
def TimeOfDay.minutes (t : TimeOfDay) : ℕ := t.hour * 60 + t.minute

/-- What the pattern of `CreateTurfDto` accepts. -/
def TimeOfDay.Accepted (t : TimeOfDay) : Prop := t.hour < 24 ∧ t.minute < 60

instance (t : TimeOfDay) : Decidable t.Accepted := inferInstanceAs (Decidable (_ ∧ _))

namespace Slot

/-- The instant a slot starts at. -/
def start (s : Slot) : Time := setUTCHours s.date s.startTime.hour s.startTime.minute

/-- The next instant after the start at which it is `endTime`. -/
def finish (s : Slot) : Time :=
  s.start + ((s.endTime.minutes + 1440 - s.startTime.minutes) % 1440 : ℕ) * 60000

end Slot

theorem startOfUTCDay_add_days (t : Time) (n : ℕ) :
    startOfUTCDay (t + n * dayMs) = startOfUTCDay t + n * dayMs := by
  have hmod : (t + n * dayMs) % dayMs = t % dayMs := Int.add_mul_emod_self_right t n dayMs
  unfold startOfUTCDay
  rw [hmod]
  ring

/-- The slot of an hour of a business day starts at that hour. -/
theorem slotAt_start (turf : Turf) {date : Time} (hdate : startOfUTCDay date = date) (id : SlotId)
    {hour : ℕ} (hhour : hour < 48) : ((slotAt turf date hour).row id).start = date + hour * hourMs := by
  have hday : dayMs = 24 * hourMs := rfl
  have hnext : startOfUTCDay (date + dayMs) = date + dayMs := by
    simpa [hdate] using startOfUTCDay_add_days date 1
  simp only [Slot.start, NewSlot.row, slotAt, setUTCHours]
  by_cases hover : 24 ≤ hour
  · have hmod : hour % 24 = hour - 24 := by omega
    rw [if_pos hover, hnext, hnext, hmod, hday, Nat.cast_sub hover]
    push_cast
    ring
  · have hmod : hour % 24 = hour := by omega
    rw [if_neg hover, hdate, hdate, hmod]
    push_cast
    ring

theorem slotAt_finish (turf : Turf) (date : Time) (id : SlotId) (hour : ℕ) :
    ((slotAt turf date hour).row id).finish = ((slotAt turf date hour).row id).start + hourMs := by
  have hmin : ((hour + 1) % 24 * 60 + 0 + 1440 - (hour % 24 * 60 + 0)) % 1440 = 60 := by omega
  simp only [Slot.finish, NewSlot.row, slotAt, TimeOfDay.minutes, hmin]
  rfl

theorem hours_le {turf : Turf} (hopen : turf.openTime.Accepted) (hclose : turf.closeTime.Accepted) :
    turf.endHour ≤ turf.currentHour + 24 ∧ turf.currentHour < turf.endHour := by
  have h1 := hopen.1
  have h2 := hclose.1
  unfold Turf.endHour Turf.currentHour
  split_ifs with hle <;> omega

/-! ### What generation writes -/

/-- The place of a row in the unique index. -/
def NewSlot.key (d : NewSlot) : TurfId × Time × TimeOfDay := (d.turfId, startOfUTCDay d.date, d.startTime)

/-- The rows of one statement, with fresh ids. -/
def newRows (uuid : ℕ) (data : List NewSlot) : List Slot := data.mapIdx fun i d => d.row (uuid + i)

theorem mem_newRows {uuid : ℕ} {data : List NewSlot} {s : Slot} (h : s ∈ newRows uuid data) :
    ∃ d ∈ data, ∃ id, uuid ≤ id ∧ id < uuid + data.length ∧ s = d.row id := by
  obtain ⟨i, hi, rfl⟩ := List.mem_mapIdx.mp h
  exact ⟨data[i], List.getElem_mem hi, uuid + i, by omega, by omega, rfl⟩

theorem newRows_key {uuid : ℕ} {data : List NewSlot} {d : NewSlot} (h : d ∈ data) :
    ∃ s ∈ newRows uuid data, s.key = d.key := by
  obtain ⟨i, hi, rfl⟩ := List.getElem_of_mem h
  exact ⟨_, List.mem_mapIdx.mpr ⟨i, hi, rfl⟩, rfl⟩

/-- The world after an insertion of slots. -/
def World.withSlots (w : World) (data : List NewSlot) : World :=
  { w with
    db := { w.db with slots := Rows.insertAll Slot.key w.db.slots (newRows w.out.uuid data) }
    out := { w.out with uuid := w.out.uuid + data.length } }

theorem withSlots_append (w : World) (data data' : List NewSlot) :
    (w.withSlots data).withSlots data' = w.withSlots (data ++ data') := by
  have hrows : newRows w.out.uuid (data ++ data') =
      newRows w.out.uuid data ++ newRows (w.out.uuid + data.length) data' := by
    simp only [newRows, List.mapIdx_append, Nat.add_left_comm, Nat.add_comm]
  simp only [World.withSlots, hrows, Rows.insertAll_append, List.length_append, Nat.add_assoc]

theorem slotCreateMany_ok {data : List NewSlot} {w : World}
    (h : ∀ d ∈ data, (w.db.turf? d.turfId).isSome) :
    slotCreateMany data w = (.ok (), w.withSlots data) := by
  have hall : ¬ ∃ d ∈ data, (w.db.turf? d.turfId).isNone := by
    rintro ⟨d, hd, hn⟩
    have hsome := h d hd
    rw [Option.isNone_iff_eq_none] at hn
    rw [hn] at hsome
    cases hsome
  rw [slotCreateMany, if_neg hall]
  rfl

theorem generateTurfSlots_ok {turf : Turf} {date : Time} {w : World}
    (h : (w.db.turf? turf.id).isSome) :
    generateTurfSlots turf date w = (.ok (), w.withSlots (slotsToCreate turf date)) := by
  refine slotCreateMany_ok fun d hd => ?_
  obtain ⟨hour, -, rfl⟩ := List.mem_map.mp hd
  exact h

/-- Some insertions of slots, one after another, are one insertion of all their rows. -/
theorem forEachOf_withSlots {ι : Type} {f : ι → World → Except Err Unit × World}
    {data : ι → List NewSlot} {is : List ι} {w : World}
    (h : ∀ i ∈ is, ∀ w', w'.db.turfs = w.db.turfs → f i w' = (.ok (), w'.withSlots (data i))) :
    forEachOf f is w = (.ok (), w.withSlots (is.flatMap data)) := by
  induction is generalizing w with
  | nil => rfl
  | cons i is ih =>
    have hrest : ∀ j ∈ is, ∀ w', w'.db.turfs = (w.withSlots (data i)).db.turfs →
        f j w' = (.ok (), w'.withSlots (data j)) :=
      fun j hj w' hw' => h j (by simp [hj]) w' hw'
    rw [forEachOf, h i (by simp) w rfl]
    simp only
    rw [ih hrest, withSlots_append, List.flatMap_cons]

/-! ### The hours of consecutive days -/

/-- The place in the unique index of hour `k`, counted from the day `first`. -/
def hourKey (turf : Turf) (first : Time) (k : ℕ) : TurfId × Time × TimeOfDay :=
  (turf.id, first + (k / 24 : ℕ) * dayMs, ⟨k % 24, 0⟩)

theorem hourKey_inj {turf : Turf} {first : Time} {k k' : ℕ}
    (h : hourKey turf first k = hourKey turf first k') : k = k' := by
  simp only [hourKey, Prod.mk.injEq, TimeOfDay.mk.injEq, true_and, and_true] at h
  obtain ⟨hday, hhour⟩ := h
  have hpos : dayMs ≠ 0 := by decide
  have hcast : ((k / 24 : ℕ) : ℤ) = (k' / 24 : ℕ) := mul_right_cancel₀ hpos (add_left_cancel hday)
  have hdiv : k / 24 = k' / 24 := Int.ofNat_inj.mp hcast
  omega

/-- The slot of an hour of day `i`: it starts at hour `24 * i + hour`. -/
theorem slotAt_day (turf : Turf) {first : Time} (hfirst : startOfUTCDay first = first) (i : ℕ)
    {hour : ℕ} (hhour : hour < 48) (id : SlotId) :
    let s := (slotAt turf (first + i * dayMs) hour).row id
    s.key = hourKey turf first (24 * i + hour) ∧ s.start = first + (24 * i + hour : ℕ) * hourMs := by
  have hdate : startOfUTCDay (first + i * dayMs) = first + i * dayMs := by
    rw [startOfUTCDay_add_days, hfirst]
  have hnext : startOfUTCDay (first + i * dayMs + dayMs) = first + i * dayMs + dayMs := by
    simpa [hdate] using startOfUTCDay_add_days (first + i * dayMs) 1
  intro s
  constructor
  · show (slotAt turf (first + i * dayMs) hour).key = _
    simp only [NewSlot.key, slotAt, hourKey, Prod.mk.injEq, TimeOfDay.mk.injEq, true_and, and_true]
    by_cases hover : 24 ≤ hour
    · have hdiv : (24 * i + hour) / 24 = i + 1 := by omega
      rw [if_pos hover, hnext, hdiv]
      refine ⟨?_, by omega⟩
      push_cast
      ring
    · have hdiv : (24 * i + hour) / 24 = i := by omega
      rw [if_neg hover, hdate, hdiv]
      exact ⟨rfl, by omega⟩
  · have hstart : s.start = _ := slotAt_start turf hdate id hhour
    have hday : dayMs = 24 * hourMs := rfl
    rw [hstart, hday]
    push_cast
    ring

/-- The hours of the first `n` days that a turf is open. -/
def openHours (turf : Turf) (n : ℕ) : List ℕ :=
  (List.range n ×ˢ List.range' turf.currentHour (turf.endHour - turf.currentHour)).map
    fun x => 24 * x.1 + x.2

theorem length_openHours (turf : Turf) (n : ℕ) :
    (openHours turf n).length = n * (turf.endHour - turf.currentHour) := by
  simp [openHours, List.length_product]

/-- The business hours of different days are different hours. -/
theorem nodup_openHours {turf : Turf} (hle : turf.endHour ≤ turf.currentHour + 24) (n : ℕ) :
    (openHours turf n).Nodup := by
  refine List.Nodup.map_on ?_ (List.nodup_range.product (List.nodup_range' 1))
  rintro ⟨i, hour⟩ hm ⟨i', hour'⟩ hm' he
  obtain ⟨-, hh⟩ := List.mem_product.mp hm
  obtain ⟨-, hh'⟩ := List.mem_product.mp hm'
  simp only [List.mem_range'_1] at hh hh'
  simp only at he
  have hi : i = i' := by omega
  subst hi
  have hhour : hour = hour' := by omega
  rw [hhour]

/-- The rows of a turf after slots of it have been generated, and where they come from. -/
theorem ofTurf_withSlots {w : World} {turf : Turf} {data : List NewSlot}
    (hnone : ∀ s ∈ w.db.slots, s.turfId ≠ turf.id) (hdata : ∀ d ∈ data, d.turfId = turf.id) :
    (w.withSlots data).db.slots.filter (·.turfId = turf.id) =
      Rows.insertAll Slot.key [] (newRows w.out.uuid data) := by
  have hfilter := @Rows.filter_insertAll _ _ _ Slot.key w.db.slots (newRows w.out.uuid data)
    fun k => decide (k.1 = turf.id)
  have hold : w.db.slots.filter (fun s => decide (s.turfId = turf.id)) = [] := by
    simpa [List.filter_eq_nil_iff] using hnone
  have hnew : (newRows w.out.uuid data).filter (fun s => decide (s.turfId = turf.id)) =
      newRows w.out.uuid data := by
    refine List.filter_eq_self.mpr fun s hs => ?_
    obtain ⟨d, hd, id, -, -, rfl⟩ := mem_newRows hs
    exact decide_eq_true (hdata d hd)
  exact hfilter.trans (by
    show Rows.insertAll Slot.key (w.db.slots.filter fun s => decide (s.turfId = turf.id))
      ((newRows w.out.uuid data).filter fun s => decide (s.turfId = turf.id)) = _
    rw [hold, hnew])

/-- An hour apart or more. -/
theorem hours_apart {k k' : ℕ} (h : k < k') (first : Time) :
    first + k * hourMs + hourMs ≤ first + k' * hourMs := by
  have hle : ((k : ℤ) + 1) * hourMs ≤ k' * hourMs :=
    Int.mul_le_mul_of_nonneg_right (by omega) (by decide)
  linarith

/-- No call of `generateTurfSlots` changes anything but the end of the table of slots. -/
theorem generation_appends (turf : Turf) (date : Time) (w : World) :
    ∃ rows, (generateTurfSlots turf date w).2.db = { w.db with slots := w.db.slots ++ rows } ∧
      ∀ s ∈ rows, s.turfId = turf.id ∧ s.isBooked = false := by
  by_cases hdata : ∀ d ∈ slotsToCreate turf date, (w.db.turf? d.turfId).isSome
  · obtain ⟨rows, hsub, hrows⟩ := @Rows.insertAll_eq _ _ _ Slot.key w.db.slots
      (newRows w.out.uuid (slotsToCreate turf date))
    refine ⟨rows, ?_, fun s hs => ?_⟩
    · rw [generateTurfSlots, slotCreateMany_ok hdata, ← hrows]
      rfl
    · obtain ⟨d, hd, id, -, -, rfl⟩ := mem_newRows (hsub.subset hs)
      obtain ⟨hour, -, rfl⟩ := List.mem_map.mp hd
      exact ⟨rfl, rfl⟩
  · have hfail : ∃ d ∈ slotsToCreate turf date, (w.db.turf? d.turfId).isNone := by
      simpa using hdata
    refine ⟨[], ?_, by simp⟩
    rw [generateTurfSlots, slotCreateMany, if_pos hfail]
    simp

/-- The rows of all business hours of the days in `calls`. -/
def daysToCreate (turf : Turf) (first : Time) (calls : List ℕ) : List NewSlot :=
  calls.flatMap fun i : ℕ => slotsToCreate turf (first + i * dayMs)

section

variable {turf : Turf} {first : Time} {n : ℕ} {calls : List ℕ} {s : Slot}

theorem mem_daysToCreate {d : NewSlot} : d ∈ daysToCreate turf first calls ↔ ∃ i ∈ calls, ∃ hour,
    (turf.currentHour ≤ hour ∧ hour < turf.endHour) ∧
      slotAt turf (first + i * dayMs) hour = d := by
  simp only [daysToCreate, slotsToCreate, List.mem_flatMap, List.mem_map, List.mem_range'_1]
  constructor
  · rintro ⟨i, hi, hour, hh, rfl⟩
    exact ⟨i, hi, hour, ⟨hh.1, by omega⟩, rfl⟩
  · rintro ⟨i, hi, hour, hh, rfl⟩
    exact ⟨i, hi, hour, ⟨hh.1, by omega⟩, rfl⟩

theorem forEachOf_days {w : World} (hturf : (w.db.turf? turf.id).isSome) :
    forEachOf (fun i : ℕ => generateTurfSlots turf (first + i * dayMs)) calls w =
      (.ok (), w.withSlots (daysToCreate turf first calls)) := by
  refine forEachOf_withSlots fun i _ w' hw' => generateTurfSlots_ok ?_
  rw [Db.turf?, hw']
  exact hturf

/-- A generated row is the slot of some hour. -/
theorem hour_of_mem (hcalls : ∀ i, i ∈ calls ↔ i < n) {uuid : ℕ}
    (h : s ∈ Rows.insertAll Slot.key [] (newRows uuid (daysToCreate turf first calls))) :
    ∃ i < n, ∃ hour, (turf.currentHour ≤ hour ∧ hour < turf.endHour) ∧
      ∃ id, s = (slotAt turf (first + i * dayMs) hour).row id := by
  have hs : s ∈ newRows uuid (daysToCreate turf first calls) :=
    (Rows.mem_insertAll h).resolve_left (by simp)
  obtain ⟨d, hd, id, -, -, rfl⟩ := mem_newRows hs
  obtain ⟨i, hi, hour, hh, rfl⟩ := mem_daysToCreate.mp hd
  exact ⟨i, (hcalls i).mp hi, hour, hh, id, rfl⟩

/-- The generated rows are those of the open hours, each once. -/
theorem keys_generated (hfirst : startOfUTCDay first = first) (hcur : turf.currentHour < 24)
    (hle : turf.endHour ≤ turf.currentHour + 24) (hcalls : ∀ i, i ∈ calls ↔ i < n) (uuid : ℕ)
    (k : TurfId × Time × TimeOfDay) :
    k ∈ (Rows.insertAll Slot.key [] (newRows uuid (daysToCreate turf first calls))).map Slot.key ↔
      k ∈ (openHours turf n).map (hourKey turf first) := by
  constructor
  · intro hk
    obtain ⟨s, hs, rfl⟩ := List.mem_map.mp hk
    obtain ⟨i, hi, hour, hh, id, rfl⟩ := hour_of_mem hcalls hs
    refine List.mem_map.mpr ⟨24 * i + hour, ?_, (slotAt_day turf hfirst i (by omega) id).1.symm⟩
    refine List.mem_map.mpr ⟨(i, hour), ?_, rfl⟩
    simp only [List.mem_product, List.mem_range, List.mem_range'_1]
    omega
  · intro hk
    obtain ⟨a, ha, rfl⟩ := List.mem_map.mp hk
    obtain ⟨⟨i, hour⟩, hm, rfl⟩ := List.mem_map.mp ha
    simp only [List.mem_product, List.mem_range, List.mem_range'_1] at hm
    have hd : slotAt turf (first + i * dayMs) hour ∈ daysToCreate turf first calls :=
      mem_daysToCreate.mpr ⟨i, (hcalls i).mpr hm.1, hour, by omega, rfl⟩
    obtain ⟨r, hr, hkey⟩ := @newRows_key uuid _ _ hd
    obtain ⟨b, hb, he⟩ := @Rows.key_insertAll _ _ _ Slot.key [] _ _ hr
    refine List.mem_map.mpr ⟨b, hb, ?_⟩
    rw [he, hkey]
    exact (slotAt_day turf hfirst i (by omega) 0).1

end

/-- Generating the slots of a turf for `n` consecutive days, in any order and any number
of times, from no slots of the turf: each hour of each business day is there once, and no
row that was there changes. -/
theorem slots_generated {w : World} {turf : Turf} {first : Time} {n : ℕ} {calls : List ℕ}
    (hopen : turf.openTime.Accepted) (hclose : turf.closeTime.Accepted)
    (hfirst : startOfUTCDay first = first) (hturf : (w.db.turf? turf.id).isSome)
    (hnone : ∀ s ∈ w.db.slots, s.turfId ≠ turf.id) (hcalls : ∀ i, i ∈ calls ↔ i < n) :
    let r := forEachOf (fun i : ℕ => generateTurfSlots turf (first + i * dayMs)) calls w
    let slots := r.2.db.slots.filter (·.turfId = turf.id)
    r.1 = .ok () ∧
      slots.length = n * (if turf.closeTime.hour ≤ turf.openTime.hour
        then turf.closeTime.hour + 24 - turf.openTime.hour
        else turf.closeTime.hour - turf.openTime.hour) ∧
      (∀ s ∈ slots, s.finish = s.start + hourMs ∧
        s.endTime = ⟨(s.startTime.hour + 1) % 24, s.startTime.minute⟩) ∧
      slots.Pairwise (fun s s' => s.finish ≤ s'.start ∨ s'.finish ≤ s.start) ∧
      ∀ w' date, ∃ rows, (generateTurfSlots turf date w').2.db =
        { w'.db with slots := w'.db.slots ++ rows } ∧ ∀ s ∈ rows, s.isBooked = false := by
  obtain ⟨hle, hlt⟩ := hours_le hopen hclose
  have hcur : turf.currentHour < 24 := hopen.1
  have hdata : ∀ d ∈ daysToCreate turf first calls, d.turfId = turf.id := by
    intro d hd
    obtain ⟨i, -, hour, -, rfl⟩ := mem_daysToCreate.mp hd
    rfl
  intro r slots
  have hrun : r = (.ok (), w.withSlots (daysToCreate turf first calls)) := forEachOf_days hturf
  have hslots : slots = Rows.insertAll Slot.key [] (newRows w.out.uuid
      (daysToCreate turf first calls)) := by
    show r.2.db.slots.filter _ = _
    rw [hrun]
    exact ofTurf_withSlots hnone hdata
  have hnodup : (slots.map Slot.key).Nodup := by
    rw [hslots]
    exact Rows.nodup_insertAll List.nodup_nil
  have hkeys : (slots.map Slot.key).Perm ((openHours turf n).map (hourKey turf first)) := by
    refine (List.perm_ext_iff_of_nodup hnodup ?_).mpr fun k => ?_
    · exact (nodup_openHours hle n).map fun k k' => hourKey_inj
    · rw [hslots]
      exact keys_generated hfirst hcur hle hcalls w.out.uuid k
  have hhour : ∀ s ∈ slots, s.finish = s.start + hourMs ∧
      s.endTime = ⟨(s.startTime.hour + 1) % 24, s.startTime.minute⟩ ∧
      ∃ k : ℕ, s.key = hourKey turf first k ∧ s.start = first + k * hourMs := by
    intro s hs
    obtain ⟨i, -, hour, hh, id, rfl⟩ := hour_of_mem hcalls (hslots ▸ hs)
    refine ⟨slotAt_finish turf _ id hour, ?_, _, slotAt_day turf hfirst i (by omega) id⟩
    simp [NewSlot.row, slotAt]
  refine ⟨by rw [hrun], ?_, fun s hs => ⟨(hhour s hs).1, (hhour s hs).2.1⟩, ?_, fun w' date => ?_⟩
  · have hlen := hkeys.length_eq
    rw [List.length_map, List.length_map, length_openHours] at hlen
    rw [hlen]
    unfold Turf.endHour Turf.currentHour
    split_ifs <;> rfl
  · have hne : slots.Pairwise fun s s' => s.key ≠ s'.key := List.pairwise_map.mp hnodup
    refine hne.imp_of_mem fun {s s'} hs hs' hkey => ?_
    obtain ⟨hfin, -, k, hk, hstart⟩ := hhour s hs
    obtain ⟨hfin', -, k', hk', hstart'⟩ := hhour s' hs'
    have hkk : k ≠ k' := fun he => hkey (by rw [hk, hk', he])
    rcases Nat.lt_or_gt_of_ne hkk with hlt | hlt
    · left
      rw [hfin, hstart, hstart']
      exact hours_apart hlt first
    · right
      rw [hfin', hstart, hstart']
      exact hours_apart hlt first
  · obtain ⟨rows, hdb, hrows⟩ := generation_appends turf date w'
    exact ⟨rows, hdb, fun s hs => (hrows s hs).2⟩

/-- Two nights from 20:30 to 4:00, the second one generated first and once more. -/
theorem slots_generated_overnight :
    let turf : Turf := { Arena.turf with openTime := ⟨20, 30⟩, closeTime := ⟨4, 0⟩ }
    let w : World := { Arena.sys.world with db := { Arena.db with turfs := [turf], slots := [] } }
    ((forEachOf (fun i : ℕ => generateTurfSlots turf (0 + i * dayMs)) [1, 0, 1] w).2.db.slots.filter
      (·.turfId = turf.id)).length = 16 := by
  intro turf w
  have hgen := @slots_generated w turf 0 2 [1, 0, 1] (by decide) (by decide) (by decide) (by decide)
    (by simp [w]) (by intro i; simp; omega)
  exact hgen.2.1

/-! ### Cleaning up -/

/-- A slot that `cleanupOldSlots` may delete: free, more than 30 days old and never
booked. -/
def Db.Disposable (db : Db) (now : Time) (s : Slot) : Prop :=
  s.isBooked = false ∧ s.date < startOfUTCDay (now - 30 * dayMs) ∧
    ∀ b ∈ db.bookings, b.slotId ≠ s.id

instance (db : Db) (now : Time) : DecidablePred (db.Disposable now) := fun _ =>
  inferInstanceAs (Decidable (_ ∧ _ ∧ _))

/-- `cleanupOldSlots` succeeds, deletes every slot that it may delete, and nothing else. -/
def CleansUp (w : World) : Prop :=
  cleanupOldSlots w = (.ok (), { w with
    db := { w.db with slots := w.db.slots.filter (¬ w.db.Disposable w.out.now ·) } })

/-- The foreign key of an old free slot that has a booking row. -/
theorem cleanupOldSlots_error {w : World} {s : Slot} (hs : s ∈ w.db.slots) (hold : Old w.out.now s)
    {b : Booking} (hb : b ∈ w.db.bookings) (he : b.slotId = s.id) :
    cleanupOldSlots w = (.error .P2003, w) := by
  rw [cleanupOldSlots, if_pos ⟨s, hs, hold, b, hb, he⟩]

theorem not_cleansUp {w : World} (h : cleanupOldSlots w = (.error .P2003, w)) : ¬ CleansUp w := by
  intro hclean
  rw [CleansUp, h] at hclean
  cases congrArg Prod.fst hclean

theorem cleansUp_of_unbooked {w : World} (h : ∀ s ∈ w.db.slots, s.isBooked = false →
    s.date < startOfUTCDay (w.out.now - 30 * dayMs) → ∀ b ∈ w.db.bookings, b.slotId ≠ s.id) :
    CleansUp w := by
  have hnone : ¬ ∃ s ∈ w.db.slots, Old w.out.now s ∧ ∃ b ∈ w.db.bookings, b.slotId = s.id := by
    rintro ⟨s, hs, ⟨hold, hfree⟩, b, hb, he⟩
    exact h s hs hfree hold b hb he
  have hfilter : w.db.slots.filter (¬ Old w.out.now ·) =
      w.db.slots.filter (¬ w.db.Disposable w.out.now ·) := by
    refine List.filter_congr fun s hs => decide_eq_decide.mpr (not_congr ?_)
    constructor
    · rintro ⟨hold, hfree⟩
      exact ⟨hfree, hold, h s hs hfree hold⟩
    · rintro ⟨hfree, hold, -⟩
      exact ⟨hold, hfree⟩
  rw [CleansUp, cleanupOldSlots, if_neg hnone, hfilter]

/-- In any state: exactly when no free slot that old has a booking row. -/
theorem cleansUp_iff (w : World) : CleansUp w ↔ ∀ s ∈ w.db.slots, s.isBooked = false →
    s.date < startOfUTCDay (w.out.now - 30 * dayMs) → ∀ b ∈ w.db.bookings, b.slotId ≠ s.id := by
  refine ⟨fun h s hs hfree hold b hb he => ?_, cleansUp_of_unbooked⟩
  exact not_cleansUp (cleanupOldSlots_error hs ⟨hold, hfree⟩ hb he) h

/-- A slot is generated, booked by user 7 and cancelled; from then on, once it is old,
nothing is cleaned up any more. -/
theorem cleansUp_fails :
    let w := (generateForTurf 1 1 { Arena.sys.world with db := { Arena.db with slots := [] } }).2
    let t := (service (Arena.cfg true)).run ⟨w, []⟩
      (Arena.first 0 (.create ⟨1, 100, some 0, none, none⟩ 7 0) 20 ++
        Arena.first 1 (.cancel 103 7) 12 ++ [.env (.tick 3000000000)])
    t.Quiet ∧ w.db.slots.length = 2 ∧ cleanupOldSlots t.world = (.error .P2003, t.world) ∧
      ¬ CleansUp t.world := by
  intro w t
  have hold : ∃ s ∈ t.world.db.slots, Old t.world.out.now s ∧
      ∃ b ∈ t.world.db.bookings, b.slotId = s.id := by decide +kernel
  obtain ⟨s, hs, hold, b, hb, he⟩ := hold
  have herror := cleanupOldSlots_error hs hold hb he
  exact ⟨by decide +kernel, by decide +kernel, herror, not_cleansUp herror⟩

/-! ### The slots that stay -/

/-- The calls that free a slot and keep its booking. -/
def Call.Releases : Call → Prop
  | .cancel _ _ | .cleanupStalePendingBookings _ | .refund _ _ => True
  | _ => False

/-- A cancellation, a clean-up or a refund has freed the slot. -/
def World.Freed (w : World) (id : SlotId) : Prop :=
  ∃ e ∈ w.history, e.session.call.Releases ∧ ∃ ids, .slotSet ids false ∈ e.writes ∧ id ∈ ids

/-- A free slot has a booking row if it has been freed, and only then. -/
structure World.Frees (w : World) : Prop where
  freed : ∀ s ∈ w.db.slots, s.isBooked = false → ∀ b ∈ w.db.bookings, b.slotId = s.id → w.Freed s.id
  booked : ∀ id, w.Freed id → ∃ b ∈ w.db.bookings, b.slotId = id

section

variable {cfg : Config} {c : Session Call} {w : World} {ws : List Write} {id : SlotId}

theorem World.freed_result : (Commits.result c ws w).Freed id ↔
    w.Freed id ∨ c.call.Releases ∧ ∃ ids, .slotSet ids false ∈ ws ∧ id ∈ ids := by
  simp only [World.Freed, Commits.result, List.mem_append, List.mem_singleton, or_and_right, exists_or,
    exists_eq_left]

/-- A slot that is free was free before, or has been freed. -/
theorem Db.free_of_applyAll {db : Db} {s : Slot} (hs : s ∈ (db.applyAll ws).slots)
    (hfree : s.isBooked = false) : (∃ s' ∈ db.slots, s'.id = s.id ∧ s'.isBooked = false) ∨
      ∃ ids, .slotSet ids false ∈ ws ∧ s.id ∈ ids := by
  induction ws generalizing db with
  | nil => exact .inl ⟨s, hs, rfl, hfree⟩
  | cons x ws ih =>
    rcases ih hs with ⟨s', hs', hid, hfree'⟩ | ⟨ids, hx, hid⟩
    · cases x with
      | slotSet ids v =>
        obtain ⟨s'', hs'', rfl⟩ := Rows.mem_update.mp hs'
        split_ifs at hid hfree' with hmem
        · subst hfree'
          exact .inr ⟨ids, List.mem_cons_self, hid ▸ hmem⟩
        · exact .inl ⟨s'', hs'', hid, hfree'⟩
      | _ => exact .inl ⟨s', hs', hid, hfree'⟩
    · exact .inr ⟨ids, List.mem_cons_of_mem _ hx, hid⟩

namespace Commits

/-- A slot is freed by one of three calls, and has a booking. -/
theorem frees (hc : Commits cfg c w ws) {ids : List SlotId} (hx : .slotSet ids false ∈ ws)
    (hid : id ∈ ids) : c.call.Releases ∧ ∃ b ∈ w.db.bookings, b.slotId = id := by
  cases hc with
  | book => simp at hx
  | succeeded => split_ifs at hx <;> simp at hx
  | cancel call _ _ hvacates | cleanup call _ hvacates =>
    simp only [List.mem_cons, reduceCtorEq, mem_release, Write.slotSet.injEq, and_true, false_or] at hx
    obtain ⟨b, hb, -, hslot⟩ := hvacates.slots id (hx.2 ▸ hid)
    exact ⟨by rw [call]; trivial, b, hb, hslot⟩
  | @refund _ _ b freed call _ _ hb hslots =>
    simp only [List.mem_cons, reduceCtorEq, mem_release, Write.slotSet.injEq, and_true, false_or] at hx
    obtain ⟨hne, rfl⟩ := hx
    rw [hslots.resolve_left hne, List.mem_singleton] at hid
    exact ⟨by rw [call]; trivial, b, hb, hid.symm⟩
  | _ => simp at hx

/-- The slot of a new booking is not free. -/
theorem insert_booked (hc : Commits cfg c w ws) {b : Booking} (hb : .bookingInsert b ∈ ws) {s : Slot}
    (hs : s ∈ (w.db.applyAll ws).slots) (hslot : b.slotId = s.id) : s.isBooked = true := by
  obtain ⟨rfl, -⟩ := hc.insert_booking hb
  obtain ⟨s', -, rfl⟩ := Rows.mem_update.mp hs
  split_ifs at hslot ⊢ with hmem
  · rfl
  · exact absurd (List.mem_singleton.mpr hslot.symm) hmem

/-- A booking row after a commit was inserted by it or was there, on the same slot. -/
theorem booking_back (hw : w.WellFormed cfg) (hc : Commits cfg c w ws) {b : Booking}
    (hb : b ∈ (w.db.applyAll ws).bookings) :
    .bookingInsert b ∈ ws ∨ ∃ b' ∈ w.db.bookings, b'.slotId = b.slotId := by
  have hvalid := hc.valid hw.valid
  rcases Db.booking_of_applyAll hb with ⟨b', hb', hid⟩ | ⟨b', hb', hid⟩
  · obtain ⟨b'', hb'', hages⟩ := hc.ages hw.valid (hw.valid.booking?_of_mem hb')
    obtain ⟨hm, hid'⟩ := Db.mem_of_booking? hb''
    obtain rfl := Rows.eq_of_key hvalid.bookings hm hb (hid'.trans hid)
    exact .inr ⟨b', hb', hages.slotId.symm⟩
  · have hm : b' ∈ (w.db.applyAll ws).bookings := by
      obtain ⟨rfl, -⟩ := hc.insert_booking hb'
      exact List.mem_append_right _ (List.mem_singleton_self b')
    obtain rfl := Rows.eq_of_key hvalid.bookings hm hb hid
    exact .inl hb'

end Commits

theorem stable_frees (cfg : Config) : Stable cfg World.Frees where
  out _ _ h := ⟨h.freed, h.booked⟩
  commit {c w ws} hw h hc := by
    refine ⟨fun s hs hfree b hb hslot => World.freed_result.mpr ?_, fun id hfreed => ?_⟩
    · rcases Db.free_of_applyAll hs hfree with ⟨s', hs', hid, hfree'⟩ | ⟨ids, hx, hmem⟩
      · rcases hc.booking_back hw hb with hb | ⟨b', hb', hslot'⟩
        · have hbooked := hc.insert_booked hb hs hslot
          exact nomatch hfree.symm.trans hbooked
        · exact .inl (hid ▸ h.freed s' hs' hfree' b' hb' (hslot'.trans (hslot.trans hid.symm)))
      · exact .inr ⟨(hc.frees hx hmem).1, ids, hx, hmem⟩
    · have hbooking : ∃ b ∈ w.db.bookings, b.slotId = id := by
        rcases World.freed_result.mp hfreed with hfreed | ⟨-, ids, hx, hmem⟩
        · exact h.booked id hfreed
        · exact (hc.frees hx hmem).2
      obtain ⟨b, hb, hslot⟩ := hbooking
      obtain ⟨b', hb', hages⟩ := hc.ages hw.valid (hw.valid.booking?_of_mem hb)
      exact ⟨b', (Db.mem_of_booking? hb').1, hages.slotId.trans hslot⟩

end

/-- Along every run of the booking operations: the clean-up works exactly while no cancellation,
clean-up of bookings or refund has freed a slot that is free and old. -/
theorem cleansUp_run {cfg : Config} {s : Sys} (hs : s.Fresh) (as : List Act) :
    (service cfg).Always (fun t => CleansUp t.world ↔ ∀ slot ∈ t.world.db.slots, slot.isBooked = false →
      slot.date < startOfUTCDay (t.world.out.now - 30 * dayMs) → ¬ t.world.Freed slot.id) s as := by
  have hfrees : s.world.Frees := {
    freed := by simp [hs.db.bookings]
    booked := by simp [World.Freed, hs.history] }
  refine (hs.initial.always (stable_frees cfg) hfrees).mono fun t ht => ?_
  have hkept : t.world.Frees := ht.inv.2
  constructor
  · intro hclean slot hslot hfree hold hfreed
    obtain ⟨b, hb, he⟩ := hkept.booked slot.id hfreed
    exact not_cleansUp (cleanupOldSlots_error hslot ⟨hold, hfree⟩ hb he) hclean
  · intro hnone
    exact cleansUp_of_unbooked fun slot hslot hfree hold b hb he =>
      hnone slot hslot hfree hold (hkept.freed slot hslot hfree b hb he)

end TurfSync
