import TurfSync.Guarantees.Availability
import TurfSync.Protocol.Flags
import TurfSync.Protocol.PageKeys
import Mathlib.Data.List.Infix

/-! The turf pages against the database. A cached page is what the database gives as long as
no review, image, generated slot or booking changes what it shows: of the calls that do so,
only those of `TurfService` itself delete pages. And two queries share a key only if some text
they filter by contains the separator. -/

namespace TurfSync

open Txn

/-! ### The turfs after a review -/

namespace Reviews

/-- The rating of a turf is set at `now`. -/
def rate (rating : ℚ) (now : Time) (t : Turf) : Turf := { t with rating := rating, updatedAt := now }

theorem solo_reviewCreate (c : Session Call) (d : NewReview) (w : World) :
    ∃ r w', engine.solo c (Script.perform (S := Stmt) (.reviewCreate d)) .idle w = (r, .idle, w') ∧
      w'.db.turfs = w.db.turfs ∧ w'.now = w.now := by
  rw [Engine.solo_perform_auto]
  simp only [engine, Stmt.act]
  split_ifs <;> exact ⟨_, _, rfl, rfl, rfl⟩

theorem updateTurfRating_turfs (c : Session Call) (turfId : TurfId) (w : World) :
    (engine.solo c (ReviewService.updateTurfRating turfId) .idle w).2.2.db.turfs = w.db.turfs ∨
    ∃ rating, (engine.solo c (ReviewService.updateTurfRating turfId) .idle w).2.2.db.turfs =
      Rows.update (·.id) [turfId] (rate rating w.now) w.db.turfs := by
  have haverage : ∃ w', engine.solo c (Script.perform (S := Stmt) (.reviewAverage turfId)) .idle w =
      (.ok (average turfId w.db.reviews), .idle, w') ∧ w'.db = w.db ∧ w'.now = w.now := by
    rw [Engine.solo_perform_auto]
    exact ⟨_, rfl, rfl, rfl⟩
  obtain ⟨w', haverage, hdb, hnow⟩ := haverage
  rw [ReviewService.updateTurfRating, Prog.bind_eq, Engine.solo_bind, haverage, Engine.andThen_ok,
    Engine.solo_perform_auto, ← hdb, ← hnow]
  by_cases hturf : (w'.db.turf? turfId).isNone
  · have hact : engine.act (.turfUpdate turfId ((average turfId w'.db.reviews).getD 0)) w' w' =
        ⟨.error .P2025, [], [], w'⟩ := if_pos hturf
    rw [hact]
    exact .inl rfl
  · have hact : engine.act (.turfUpdate turfId ((average turfId w'.db.reviews).getD 0)) w' w' =
        ⟨.ok (), [], [.turfRating turfId ((average turfId w'.db.reviews).getD 0) w'.now], w'⟩ := if_neg hturf
    rw [hact]
    exact .inr ⟨_, rfl⟩

/-- The rating of the turf is set, or the turfs are as before. -/
theorem createReview_turfs (c : Session Call) (dto : CreateReviewDto) (u : UserId) (w : World) :
    (engine.solo c (ReviewService.createReview dto u) .idle w).2.2.db.turfs = w.db.turfs ∨
    ∃ b rating, w.db.booking? dto.bookingId = some b ∧ b.userId = u ∧ b.status = .COMPLETED ∧
      w.db.review? dto.bookingId = none ∧
      (engine.solo c (ReviewService.createReview dto u) .idle w).2.2.db.turfs =
        Rows.update (·.id) [b.turfId] (rate rating w.now) w.db.turfs := by
  have hbooking : engine.solo c (query (.bookingFindUnique dto.bookingId)) .idle w =
      (.ok (w.db.booking? dto.bookingId), .idle, w) := rfl
  have hreview : engine.solo c (query (.reviewFindUnique dto.bookingId)) .idle w =
      (.ok (w.db.review? dto.bookingId), .idle, w) := rfl
  rw [ReviewService.createReview, Prog.bind_eq, Engine.solo_bind, hbooking, Engine.andThen_ok]
  cases hb : w.db.booking? dto.bookingId with
  | none => exact .inl rfl
  | some b =>
    simp only
    split_ifs with huser hstatus
    · exact .inl rfl
    · exact .inl rfl
    rw [Prog.bind_eq, Engine.solo_bind, hreview, Engine.andThen_ok]
    cases hr : w.db.review? dto.bookingId with
    | some _ => exact .inl rfl
    | none =>
      simp only
      rw [Prog.bind_eq, Engine.solo_bind]
      obtain ⟨r, w', hcreate, hturfs, hnow⟩ := solo_reviewCreate c ⟨u, b.turfId, b.id, dto.rating, dto.comment⟩ w
      rw [hcreate]
      cases r with
      | error e => exact .inl hturfs
      | ok review =>
        rw [Engine.andThen_ok, Prog.bind_eq, Engine.solo_bind]
        have hrated := updateTurfRating_turfs c b.turfId w'
        rw [hturfs, hnow] at hrated
        rcases hs : engine.solo c (ReviewService.updateTurfRating b.turfId) .idle w' with ⟨e | a, l, w''⟩
        all_goals
          rw [hs] at hrated
          rcases hrated with hsame | ⟨rating, hset⟩
          · exact .inl hsame
          · exact .inr ⟨b, rating, rfl, not_not.mp huser, not_not.mp hstatus, trivial, hset⟩

end Reviews

namespace Pages

/-! ### What a page depends on -/

section

variable {p : Platform} {a : FindArgs} {db db' : Db} {turfId : TurfId} {date : Time}

/-- A page looks at the turfs that its filters select, and at their open slots. -/
theorem find_congr (hturfs : db'.turfs = db.turfs)
    (hslots : ∀ turf ∈ db.turfs, a.Selects p turf → ∀ d ∈ a.date, openSlots db' turf.id d = openSlots db turf.id d) :
    a.find p db' = a.find p db := by
  have hfilter : (db.turfs.filter fun turf => a.Matches p db' turf) =
      db.turfs.filter fun turf => a.Matches p db turf := by
    refine List.filter_congr fun turf hturf => decide_eq_decide.mpr (and_congr_right fun hselects => ?_)
    exact forall₂_congr fun d hd => by rw [hslots turf hturf hselects d hd]
  unfold FindArgs.find
  rw [hturfs, hfilter]
  refine congrArg (paginate · a.page a.limit) (List.map_congr_left fun turf hturf => ?_)
  obtain ⟨hmem, hmatches⟩ := List.mem_filter.mp ((List.mem_insertionSort _).mp hturf)
  have hviews : a.date.map (openSlots db' turf.id) = a.date.map (openSlots db turf.id) := by
    cases hdate : a.date with
    | none => rfl
    | some d => exact congrArg some (hslots turf hmem (of_decide_eq_true hmatches).1 d hdate)
  rw [FindArgs.view, FindArgs.view, hviews]

/-- Columns that no filter asks for and no order depends on. -/
structure Unasked (f : Turf → Turf) : Prop where
  id : ∀ t, (f t).id = t.id
  name : ∀ t, (f t).name = t.name
  city : ∀ t, (f t).city = t.city
  sportType : ∀ t, (f t).sportType = t.sportType
  pricePerHour : ∀ t, (f t).pricePerHour = t.pricePerHour
  isActive : ∀ t, (f t).isActive = t.isActive
  createdAt : ∀ t, (f t).createdAt = t.createdAt

/-- A page that does not show a turf does not depend on its other columns. -/
theorem find_setTurf {f : Turf → Turf} (hf : Unasked f) (hslots : db'.slots = db.slots)
    (hturfs : db'.turfs = Rows.update (·.id) [turfId] f db.turfs)
    (hshown : ∀ v ∈ (a.find p db).data, v.turf.id ≠ turfId) : a.find p db' = a.find p db := by
  let g : Turf → Turf := fun t => if t.id ∈ [turfId] then f t else t
  have hid : ∀ t, (g t).id = t.id := fun t => by dsimp only [g]; split_ifs <;> simp [hf.id]
  have hcreated : ∀ t, (g t).createdAt = t.createdAt := fun t => by
    dsimp only [g]; split_ifs <;> simp [hf.createdAt]
  have hselects : ∀ t, a.Selects p (g t) ↔ a.Selects p t := fun t => by
    dsimp only [g]
    split_ifs
    · simp only [FindArgs.Selects, hf.isActive, hf.city, hf.sportType, hf.name, hf.pricePerHour]
    · exact Iff.rfl
  have hopen : ∀ id d, openSlots db' id d = openSlots db id d := fun id d => by
    rw [openSlots, hslots, openSlots]
  have hmatches : ∀ t, a.Matches p db' (g t) ↔ a.Matches p db t := fun t => by
    simp only [FindArgs.Matches, hselects, hid, hopen]
  have hsorted : (db'.turfs.filter fun turf => a.Matches p db' turf).insertionSort
      (fun t t' => t'.createdAt ≤ t.createdAt) =
      ((db.turfs.filter fun turf => a.Matches p db turf).insertionSort
        fun t t' => t'.createdAt ≤ t.createdAt).map g := by
    rw [hturfs, Rows.update, List.filter_map]
    have hfilter : (db.turfs.filter ((fun turf => decide (a.Matches p db' turf)) ∘ g)) =
        db.turfs.filter fun turf => a.Matches p db turf :=
      List.filter_congr fun t _ => decide_eq_decide.mpr (hmatches t)
    rw [hfilter]
    refine (List.map_insertionSort _ _ g _ fun t _ t' _ => ?_).symm
    rw [hcreated, hcreated]
  have hview : ∀ t, t.id ≠ turfId → a.view db' (g t) = a.view db t := fun t ht => by
    have hsame : g t = t := if_neg fun hmem => ht (List.mem_singleton.mp hmem)
    rw [hsame, FindArgs.view, FindArgs.view]
    congr 2
    funext d
    exact hopen t.id d
  unfold FindArgs.find paginate at hshown ⊢
  rw [hsorted, List.map_map]
  simp only [List.length_map, ← List.map_drop, ← List.map_take] at hshown ⊢
  congr 1
  exact List.map_congr_left fun t ht => hview t (hshown _ (List.mem_map_of_mem ht))

/-- Flags of slots elsewhere leave the open slots of a turf and day. -/
theorem openSlots_flagged {dirty : Slot → Prop} (h : db.Flagged dirty db')
    (hd : ∀ s ∈ db.slots, s.turfId = turfId → s.date = date → ¬ dirty s) :
    openSlots db' turfId date = openSlots db turfId date := by
  obtain ⟨flag, hslots, hflag⟩ := h.slots
  unfold openSlots
  rw [hslots, List.filter_map, List.map_map]
  have hfilter : db.slots.filter ((fun s : Slot => decide (s.turfId = turfId ∧ s.date = date ∧ s.isBooked = false)) ∘
      fun s => { s with isBooked := flag s }) =
      db.slots.filter fun s => decide (s.turfId = turfId ∧ s.date = date ∧ s.isBooked = false) := by
    refine List.filter_congr fun s hs => decide_eq_decide.mpr ?_
    refine and_congr_right fun hturf => and_congr_right fun hdate => ?_
    have hsame : flag s = s.isBooked := by
      by_contra hne
      exact hd s hs hturf hdate (hflag s hs hne)
    show flag s = false ↔ _
    rw [hsame]
  rw [hfilter]
  rfl

/-- Generated slots of other turfs or days leave the open slots of a turf and day. -/
theorem openSlots_withSlots {w : TurfSync.World} {data : List NewSlot}
    (h : ∀ d ∈ data, d.turfId = turfId → startOfUTCDay d.date = date → ∃ s ∈ w.db.slots, s.key = d.key) :
    openSlots (w.withSlots data).db turfId date = openSlots w.db turfId date := by
  have hopen : ∀ slots : List Slot, slots.filter (fun s => s.turfId = turfId ∧ s.date = date ∧ s.isBooked = false) =
      (slots.filter fun s => s.turfId = turfId ∧ s.date = date).filter fun s => s.isBooked = false := fun slots => by
    rw [List.filter_filter]
    refine List.filter_congr fun s _ => ?_
    simp only [Bool.decide_and]
    rw [Bool.and_comm (decide (s.isBooked = false)), Bool.and_assoc]
  rw [openSlots, hopen, filter_withSlots h, ← hopen, openSlots]

end

/-! ### Current pages -/

/-- Every cached page is what the database gives. -/
structure World.Current (p : Platform) (w : World) : Prop where
  turfs : ∀ e ∈ w.turfCache, w.db.turf? e.1 = some e.2
  lists : ∀ e ∈ w.listCache, e.args.find p w.db = e.page

namespace World

/-- No cached page shows the turf. -/
def Unshown (w : World) (id : TurfId) : Prop :=
  (∀ e ∈ w.turfCache, e.1 ≠ id) ∧ ∀ e ∈ w.listCache, ∀ v ∈ e.page.data, v.turf.id ≠ id

instance (w : World) (id : TurfId) : Decidable (w.Unshown id) :=
  inferInstanceAs (Decidable ((∀ e ∈ w.turfCache, _) ∧ ∀ e ∈ w.listCache, ∀ v ∈ e.page.data, _))

/-- No list is cached that is of the turfs with open slots on the date, and selects the turf. -/
def Unlisted (p : Platform) (w : World) (turfId : TurfId) (date : Time) : Prop :=
  ∀ e ∈ w.listCache, e.args.date = some date → ∀ turf ∈ w.db.turfs, turf.id = turfId → ¬ e.args.Selects p turf

instance (p : Platform) (w : World) (turfId : TurfId) (date : Time) : Decidable (w.Unlisted p turfId date) :=
  inferInstanceAs (Decidable (∀ e ∈ w.listCache, _ → ∀ turf ∈ w.db.turfs, _ → _))

variable {p : Platform} {w : World} {shop : Customer.World} {id : TurfId}

theorem mem_of_turf? {turf : Turf} (h : w.turf? id = some turf) : (id, turf) ∈ w.turfCache := by
  obtain ⟨⟨id', turf⟩, he, rfl⟩ := Option.map_eq_some_iff.mp h
  have hid := List.find?_some he
  obtain rfl : id' = id := by simpa using hid
  exact List.mem_of_find?_eq_some he

theorem mem_of_list? {key : String} {page : Page} (h : w.list? key = some page) :
    ∃ e ∈ w.listCache, e.key = key ∧ e.page = page := by
  obtain ⟨e, he, rfl⟩ := Option.map_eq_some_iff.mp h
  have hkey := List.find?_some he
  exact ⟨e, List.mem_of_find?_eq_some he, by simpa using hkey, rfl⟩

namespace Current

theorem delTurf (h : w.Current p) : (w.delTurf id).Current p where
  turfs e he := h.turfs e (List.mem_of_mem_filter he)
  lists := h.lists

theorem delLists (h : ∀ e ∈ w.turfCache, w.db.turf? e.1 = some e.2) : w.delLists.Current p :=
  ⟨h, nofun⟩

/-- The turfs and the pages read from the database are the same as before. -/
theorem withShop (h : w.Current p) (hturfs : ∀ e ∈ w.turfCache, shop.base.db.turf? e.1 = w.db.turf? e.1)
    (hlists : ∀ e ∈ w.listCache, e.args.find p shop.base.db = e.args.find p w.db) :
    World.Current p { w with shop := shop } where
  turfs e he := (hturfs e he).trans (h.turfs e he)
  lists e he := (hlists e he).trans (h.lists e he)

/-- A call that changes flags only. -/
theorem flagged (h : w.Current p) {dirty : Slot → Prop} (hshop : w.db.Flagged dirty shop.base.db)
    (hd : ∀ s ∈ w.db.slots, dirty s → w.Unlisted p s.turfId s.date) :
    World.Current p { w with shop := shop } := by
  refine h.withShop (fun e _ => by rw [Db.turf?, hshop.turfs, Db.turf?]) fun e he => ?_
  refine find_congr hshop.turfs fun turf hturf hselects d hdate => openSlots_flagged hshop ?_
  rintro s hs hid rfl hdirty
  exact hd s hs hdirty e he hdate turf hturf hid.symm hselects

/-- A turf that is not shown gets other columns. -/
theorem setTurfs (h : w.Current p) {f : Turf → Turf} (hf : Unasked f)
    (hslots : shop.base.db.slots = w.db.slots)
    (hturfs : shop.base.db.turfs = Rows.update (·.id) [id] f w.db.turfs)
    (hshown : w.Unshown id) : World.Current p { w with shop := shop } := by
  refine h.withShop (fun e he => ?_) fun e he => ?_
  · have hlookup : Rows.lookup (·.id) e.1 (Rows.update (·.id) [id] f w.db.turfs) =
        if e.1 ∈ [id] then (w.db.turf? e.1).map f else w.db.turf? e.1 := Rows.lookup_update hf.id
    rw [Db.turf?, hturfs, hlookup, if_neg fun hmem => hshown.1 e he (List.mem_singleton.mp hmem)]
  · refine find_setTurf hf hslots hturfs ?_
    rw [h.lists e he]
    exact hshown.2 e he

/-- Generated slots that are on no listed day. -/
theorem withSlots (h : w.Current p) {data : List NewSlot}
    (hdata : ∀ d ∈ data, (∀ s ∈ w.db.slots, s.key ≠ d.key) →
      w.Unlisted p d.turfId (startOfUTCDay d.date)) :
    (w.withBase (w.shop.base.withSlots data)).Current p := by
  refine h.withShop (fun _ _ => rfl) fun e he => ?_
  refine find_congr rfl fun turf hturf hselects day hday => openSlots_withSlots fun d hd hid hdate => ?_
  by_contra hfree
  subst hdate
  exact hdata d hd (fun s hs hkey => hfree ⟨s, hs, hkey⟩) e he hday turf hturf hid.symm hselects

end Current

end World

section

variable {p : Platform} {w : World} {shop : Customer.World} {id : TurfId}

/-! ### The calls -/

/-- The call answers as it would with an empty cache. -/
def Uncached {α : Type} (call : World → Except Err α × World) (w : World) : Prop :=
  (call w).1 = (call w.uncached).1

instance {α : Type} [DecidableEq α] (call : World → Except Err α × World) (w : World) :
    Decidable (Uncached call w) := inferInstanceAs (Decidable (_ = _))

/-- A list is cached under the key of the query only if it is of that query. -/
def KeyFits (p : Platform) (w : World) (query : QueryTurfDto) : Prop :=
  ∀ e ∈ w.listCache, e.key = query.cacheKey p → query.args p = some e.args

instance (p : Platform) (w : World) (query : QueryTurfDto) : Decidable (KeyFits p w query) :=
  inferInstanceAs (Decidable (∀ e ∈ w.listCache, _ → _))

/-- The rows that would be inserted are on no listed day. -/
def Ungenerated (p : Platform) (w : World) (data : List NewSlot) : Prop :=
  ∀ d ∈ data, (∀ s ∈ w.db.slots, s.key ≠ d.key) → w.Unlisted p d.turfId (startOfUTCDay d.date)

instance (p : Platform) (w : World) (data : List NewSlot) : Decidable (Ungenerated p w data) :=
  inferInstanceAs (Decidable (∀ d ∈ data, (∀ s ∈ w.db.slots, _) → _))

namespace TurfService

open TurfSync.TurfService (getAvailableSlots listSlots_eq missing)

theorem findOne_uncached (h : w.Current p) (id : TurfId) : Uncached (findOne id) w := by
  have hempty : w.uncached.turf? id = none := rfl
  have hrow : w.uncached.db.turf? id = w.db.turf? id := rfl
  unfold Uncached findOne
  simp only [hempty, hrow]
  cases hcached : w.turf? id with
  | none => cases w.db.turf? id <;> rfl
  | some cached => simp only [h.turfs _ (World.mem_of_turf? hcached)]

theorem findAll_uncached (h : w.Current p) {query : QueryTurfDto} (hkey : KeyFits p w query) :
    Uncached (findAll p query) w := by
  have hempty : w.uncached.list? (query.cacheKey p) = none := rfl
  unfold Uncached findAll
  simp only [hempty]
  cases hcached : w.list? (query.cacheKey p) with
  | none => cases query.args p <;> rfl
  | some cached =>
    obtain ⟨e, he, hsame, rfl⟩ := World.mem_of_list? hcached
    have hfound : e.args.find p w.uncached.db = e.page := h.lists e he
    simp only [hkey e he hsame, hfound]

theorem findOne_current (h : w.Current p) (id : TurfId) : (findOne id w).2.Current p := by
  unfold findOne
  split
  · exact h
  split
  · exact h
  · rename_i turf hturf
    refine ⟨fun e he => ?_, h.lists⟩
    rcases List.mem_append.mp he with he | he
    · exact h.turfs e (List.mem_of_mem_filter he)
    · rw [List.mem_singleton.mp he]
      exact hturf

theorem findAll_current (h : w.Current p) (query : QueryTurfDto) : (findAll p query w).2.Current p := by
  unfold findAll
  split
  · exact h
  split
  · exact h
  · refine ⟨h.turfs, fun e he => ?_⟩
    rcases List.mem_append.mp he with he | he
    · exact h.lists e (List.mem_of_mem_filter he)
    · rw [List.mem_singleton.mp he]
      rfl

/-- A turf is edited, and its page and all lists are deleted. -/
theorem edited_current (h : w.Current p) {f : Turf → Turf} (hf : ∀ t, (f t).id = t.id)
    (hturfs : shop.base.db.turfs = Rows.update (·.id) [id] f w.db.turfs) :
    World.Current p ((World.delTurf { w with shop := shop } id).delLists) := by
  refine World.Current.delLists fun e he => ?_
  obtain ⟨hmem, hne⟩ := List.mem_filter.mp he
  have hlookup : Rows.lookup (·.id) e.1 (Rows.update (·.id) [id] f w.db.turfs) =
      if e.1 ∈ [id] then (w.db.turf? e.1).map f else w.db.turf? e.1 := Rows.lookup_update hf
  have hrow : shop.base.db.turf? e.1 = w.db.turf? e.1 := by
    rw [Db.turf?, hturfs, hlookup, if_neg fun hid => of_decide_eq_true hne (List.mem_singleton.mp hid)]
  exact hrow.trans (h.turfs e hmem)

theorem update_current (h : w.Current p) (id : TurfId) (dto : UpdateTurfDto) :
    (update id dto w).2.Current p := by
  unfold update TurfSync.TurfService.update
  cases hturf : w.shop.base.db.turf? id with
  | none => exact h
  | some turf =>
    simp only
    split_ifs with htaken
    · exact h
    · exact edited_current (f := dto.set w.now) h (fun _ => rfl) rfl

theorem remove_current (h : w.Current p) (id : TurfId) : (remove id w).2.Current p := by
  unfold remove
  split
  · exact h
  · exact edited_current (f := fun t => { t with isActive := false, updatedAt := w.now }) h (fun _ => rfl) rfl

theorem create_current (h : w.Current p) (dto : CreateTurfDto) : (create dto w).2.Current p := by
  unfold create
  split_ifs
  · exact h
  · exact h
  have hgenerated : ∀ (w' : TurfSync.World) (id : TurfId), SlotService.generateForTurf id 7 w' =
      (.ok (), w'.withSlots ((Generation.generateForTurf id 7).rows w')) :=
    fun w' id => Generation.run_eq (.generateForTurf id 7)
  simp only [hgenerated]
  refine World.Current.delLists fun e he => ?_
  have hrow := h.turfs e he
  have hlookup : ∀ turf : Turf, Rows.lookup (·.id) e.1 (w.db.turfs ++ [turf]) = some e.2 := fun turf => by
    rw [Rows.lookup_append, show Rows.lookup (·.id) e.1 w.db.turfs = some e.2 from hrow]
    rfl
  exact hlookup _

theorem getAvailableSlots_current (h : w.Current p) (turfId : TurfId) (date : DateParam)
    (hfits : ∀ d ∈ date.searchDate p.utcOffset w.now, w.shop.base.out.listing? turfId d = none →
      ∀ turf ∈ w.db.turf? turfId, Ungenerated p w (missing w.shop.base turf d)) :
    (w.withBase (getAvailableSlots p.utcOffset turfId date w.shop.base).2).Current p := by
  unfold getAvailableSlots
  cases hdate : date.searchDate p.utcOffset w.shop.base.out.now with
  | none => exact h
  | some d =>
    simp only
    cases hcached : w.shop.base.out.listing? turfId d with
    | some cached => exact h
    | none =>
      cases hturf : w.shop.base.db.turf? turfId with
      | none => exact h
      | some turf =>
        have hnew := h.withSlots (hfits d hdate hcached turf hturf)
        simp only
        rw [listSlots_eq hturf]
        exact ⟨hnew.turfs, hnew.lists⟩

end TurfService

namespace UploadController

/-- The upload goes through, and finds its turf. -/
def Uploads (turfId : TurfId) (file : File) (uploaded : Uploaded) (w : World) : Prop :=
  (UploadService.uploadTurfImages file uploaded).isOk = true ∧ (w.db.turf? turfId).isSome = true

instance (turfId : TurfId) (file : File) (uploaded : Uploaded) (w : World) :
    Decidable (Uploads turfId file uploaded w) := inferInstanceAs (Decidable (_ ∧ _))

/-- The image is there, and is deleted. -/
def Deletes (turfId : TurfId) (imageUrl : String) (destroyed : Bool) (w : World) : Prop :=
  destroyed = true ∧ ∃ turf ∈ w.db.turf? turfId, imageUrl ∈ turf.images

instance (turfId : TurfId) (imageUrl : String) (destroyed : Bool) (w : World) :
    Decidable (Deletes turfId imageUrl destroyed w) := inferInstanceAs (Decidable (_ ∧ _))

theorem uploadTurfImage_current (h : w.Current p) {turfId : TurfId} {file : File} {uploaded : Uploaded}
    (hfits : Uploads turfId file uploaded w → w.Unshown turfId) :
    (uploadTurfImage turfId file uploaded w).2.Current p := by
  unfold uploadTurfImage
  cases hupload : UploadService.uploadTurfImages file uploaded with
  | error e => exact h
  | ok imageUrl =>
    cases hturf : w.db.turf? turfId with
    | none => exact h
    | some turf =>
      have hshown := hfits ⟨by rw [hupload]; rfl, by rw [hturf]; rfl⟩
      exact h.setTurfs (f := fun t => { t with images := t.images ++ [imageUrl], updatedAt := w.now })
        ⟨fun _ => rfl, fun _ => rfl, fun _ => rfl, fun _ => rfl, fun _ => rfl, fun _ => rfl, fun _ => rfl⟩
        rfl rfl hshown

theorem deleteTurfImage_current (h : w.Current p) {turfId : TurfId} {imageUrl : String} {destroyed : Bool}
    (hfits : Deletes turfId imageUrl destroyed w → w.Unshown turfId) :
    (deleteTurfImage turfId imageUrl destroyed w).2.Current p := by
  unfold deleteTurfImage
  cases hturf : w.db.turf? turfId with
  | none => exact h
  | some turf =>
    simp only
    by_cases himage : imageUrl ∉ turf.images
    · rw [if_pos himage]
      exact h
    rw [if_neg himage]
    cases destroyed with
    | false => exact h
    | true =>
      have hshown := hfits ⟨rfl, turf, hturf, not_not.mp himage⟩
      exact h.setTurfs
        (f := fun t => { t with images := turf.images.filter (· ≠ imageUrl), updatedAt := w.now })
        ⟨fun _ => rfl, fun _ => rfl, fun _ => rfl, fun _ => rfl, fun _ => rfl, fun _ => rfl, fun _ => rfl⟩
        rfl rfl hshown

end UploadController

theorem createReview_current (h : w.Current p) (cfg : Config) (dto : CreateReviewDto) (userId : UserId)
    (hfits : ∀ b ∈ w.db.booking? dto.bookingId, b.userId = userId → b.status = .COMPLETED →
      w.shop.reviewing.db.review? dto.bookingId = none → w.Unshown b.turfId) :
    World.Current p { w with shop := (Customer.Call.exec cfg userId w.shop (.createReview dto)).2 } := by
  rcases Reviews.createReview_turfs ⟨w.shop.base.history.length, ⟨dto, userId⟩⟩ dto userId
    w.shop.reviewing with hsame | ⟨b, rating, hb, huser, hstatus, hreview, hset⟩
  · refine h.withShop (fun e _ => ?_) fun e _ => find_congr hsame fun _ _ _ _ _ => rfl
    exact congrArg (Rows.lookup (·.id) e.1) hsame
  · exact h.setTurfs (f := Reviews.rate rating w.now)
      ⟨fun _ => rfl, fun _ => rfl, fun _ => rfl, fun _ => rfl, fun _ => rfl, fun _ => rfl, fun _ => rfl⟩
      rfl hset (hfits b hb huser hstatus hreview)

/-! ### Sequential runs -/

/-- A call that runs from its start to its end, or something that happens without the calls. -/
inductive Step where
  | findAll (query : QueryTurfDto)
  | findOne (id : TurfId)
  | createTurf (dto : CreateTurfDto)
  | update (id : TurfId) (dto : UpdateTurfDto)
  | remove (id : TurfId)
  | createReview (dto : CreateReviewDto) (userId : UserId)
  | uploadTurfImage (turfId : TurfId) (file : File) (uploaded : Uploaded)
  | deleteTurfImage (turfId : TurfId) (imageUrl : String) (destroyed : Bool)
  | generate (g : Generation)
  | getAvailableSlots (turfId : TurfId) (date : DateParam)
  | create (dto : CreateBookingDto) (userId : UserId)
  | cancel (id : BookingId) (userId : UserId)
  | env (v : Env)
  deriving DecidableEq, Repr

namespace Step

def exec (cfg : Config) (p : Platform) (w : World) : Step → World
  | findAll query => (TurfService.findAll p query w).2
  | findOne id => (TurfService.findOne id w).2
  | createTurf dto => (TurfService.create dto w).2
  | update id dto => (TurfService.update id dto w).2
  | remove id => (TurfService.remove id w).2
  | createReview dto userId =>
    { w with shop := (Customer.Call.exec cfg userId w.shop (.createReview dto)).2 }
  | uploadTurfImage turfId file uploaded =>
    (UploadController.uploadTurfImage turfId file uploaded w).2
  | deleteTurfImage turfId imageUrl destroyed =>
    (UploadController.deleteTurfImage turfId imageUrl destroyed w).2
  | generate g => w.withBase (g.run w.shop.base).2
  | getAvailableSlots turfId date =>
    w.withBase (TurfSync.TurfService.getAvailableSlots p.utcOffset turfId date w.shop.base).2
  | create dto userId => { w with shop := (Customer.Call.exec cfg userId w.shop (.create dto)).2 }
  | cancel id userId => { w with shop := (Customer.Call.exec cfg userId w.shop (.cancel id)).2 }
  | env v => w.withBase { w.shop.base with out := v.evolve w.shop.base.out }

/-- The call changes nothing that a cached page shows, unless it deletes the page; and a query
finds no other query under its key. -/
def Fits (p : Platform) (w : World) : Step → Prop
  | findAll query => KeyFits p w query
  | createReview dto userId => ∀ b ∈ w.db.booking? dto.bookingId, b.userId = userId →
      b.status = .COMPLETED → w.shop.reviewing.db.review? dto.bookingId = none → w.Unshown b.turfId
  | uploadTurfImage turfId file uploaded =>
    UploadController.Uploads turfId file uploaded w → w.Unshown turfId
  | deleteTurfImage turfId imageUrl destroyed =>
    UploadController.Deletes turfId imageUrl destroyed w → w.Unshown turfId
  | generate g => Ungenerated p w (g.rows w.shop.base)
  | getAvailableSlots turfId date => ∀ d ∈ date.searchDate p.utcOffset w.now,
      w.shop.base.out.listing? turfId d = none → ∀ turf ∈ w.db.turf? turfId,
        Ungenerated p w (TurfSync.TurfService.missing w.shop.base turf d)
  | create dto _ => ∀ s ∈ w.db.slots, BookingService.FreeSlot dto w.db s → w.Unlisted p s.turfId s.date
  | cancel id userId => ∀ s ∈ w.db.slots, BookingService.LastOn id userId w.db s → w.Unlisted p s.turfId s.date
  | _ => True

/-- A call of `findAll` or `findOne` answers as it would with an empty cache. -/
def Answers (p : Platform) (w : World) : Step → Prop
  | findAll query => Uncached (TurfService.findAll p query) w
  | findOne id => Uncached (TurfService.findOne id) w
  | _ => True

instance (p : Platform) (w : World) : DecidablePred (Fits p w)
  | findAll _ => inferInstanceAs (Decidable (KeyFits p w _))
  | createReview _ _ => inferInstanceAs (Decidable (∀ b ∈ w.db.booking? _, _ → _ → _ → _))
  | uploadTurfImage _ _ _ => inferInstanceAs (Decidable (UploadController.Uploads _ _ _ w → _))
  | deleteTurfImage _ _ _ => inferInstanceAs (Decidable (UploadController.Deletes _ _ _ w → _))
  | generate g => inferInstanceAs (Decidable (Ungenerated p w (g.rows w.shop.base)))
  | getAvailableSlots _ _ =>
    inferInstanceAs (Decidable (∀ d ∈ DateParam.searchDate _ _ _, _ → ∀ turf ∈ w.db.turf? _, _))
  | create _ _ => inferInstanceAs (Decidable (∀ s ∈ w.db.slots, BookingService.FreeSlot _ w.db s → _))
  | cancel _ _ => inferInstanceAs (Decidable (∀ s ∈ w.db.slots, BookingService.LastOn _ _ w.db s → _))
  | findOne _ | createTurf _ | update _ _ | remove _ | env _ => inferInstanceAs (Decidable True)

instance (p : Platform) (w : World) : DecidablePred (Answers p w)
  | findAll _ => inferInstanceAs (Decidable (Uncached _ w))
  | findOne _ => inferInstanceAs (Decidable (Uncached _ w))
  | createTurf _ | update _ _ | remove _ | createReview _ _ | uploadTurfImage _ _ _
  | deleteTurfImage _ _ _ | generate _ | getAvailableSlots _ _ | create _ _ | cancel _ _ | env _ =>
    inferInstanceAs (Decidable True)

/-- Every step of a run meets `M`, in the world it is taken in. -/
def Each (cfg : Config) (p : Platform) (M : World → Step → Prop) : World → List Step → Prop
  | _, [] => True
  | w, a :: as => M w a ∧ Each cfg p M (a.exec cfg p w) as

def decideEach (cfg : Config) (p : Platform) (M : World → Step → Prop) [∀ w a, Decidable (M w a)] :
    (w : World) → (as : List Step) → Decidable (Each cfg p M w as)
  | _, [] => inferInstanceAs (Decidable True)
  | w, a :: as =>
    have := decideEach cfg p M (a.exec cfg p w) as
    inferInstanceAs (Decidable (M w a ∧ Each cfg p M (a.exec cfg p w) as))

instance (cfg : Config) (p : Platform) (M : World → Step → Prop) [∀ w a, Decidable (M w a)] (w : World)
    (as : List Step) : Decidable (Each cfg p M w as) := decideEach cfg p M w as

theorem exec_current (h : w.Current p) (cfg : Config) {a : Step} (ha : a.Fits p w) :
    (a.exec cfg p w).Current p := by
  cases a with
  | findAll query => exact TurfService.findAll_current h query
  | findOne id => exact TurfService.findOne_current h id
  | createTurf dto => exact TurfService.create_current h dto
  | update id dto => exact TurfService.update_current h id dto
  | remove id => exact TurfService.remove_current h id
  | createReview dto userId => exact createReview_current h cfg dto userId ha
  | uploadTurfImage turfId file uploaded => exact UploadController.uploadTurfImage_current h ha
  | deleteTurfImage turfId imageUrl destroyed => exact UploadController.deleteTurfImage_current h ha
  | generate g =>
    show World.Current p (w.withBase (g.run w.shop.base).2)
    rw [g.run_eq]
    exact h.withSlots ha
  | getAvailableSlots turfId date => exact TurfService.getAvailableSlots_current h turfId date ha
  | create dto userId => exact h.flagged (BookingService.create_flagged dto userId _) ha
  | cancel id userId => exact h.flagged (BookingService.cancel_flagged id userId) ha
  | env v => exact ⟨h.turfs, h.lists⟩

theorem answers_of_current (h : w.Current p) {a : Step} (ha : a.Fits p w) : a.Answers p w := by
  cases a with
  | findAll query => exact TurfService.findAll_uncached h ha
  | findOne id => exact TurfService.findOne_uncached h id
  | _ => trivial

/-- A run from current pages. -/
theorem each_answers (h : w.Current p) (cfg : Config) {as : List Step}
    (has : Each cfg p (Fits p) w as) : Each cfg p (Answers p) w as := by
  induction as generalizing w with
  | nil => trivial
  | cons a as ih => exact ⟨answers_of_current h has.1, ih (exec_current h cfg has.1) has.2⟩

/-! ### Keys along a run -/

/-- A list is put under the key of its query. -/
theorem exec_lists (cfg : Config) (p : Platform) (w : World) (a : Step) : ∀ e ∈ (a.exec cfg p w).listCache,
    e ∈ w.listCache ∨ ∃ query, a = .findAll query ∧ query.cacheKey p = e.key ∧ query.args p = some e.args := by
  intro e he
  cases a with
  | findAll query =>
    simp only [exec, TurfService.findAll] at he
    split at he
    · exact .inl he
    split at he
    · exact .inl he
    · rename_i args hargs
      rcases List.mem_append.mp he with he | he
      · exact .inl (List.mem_of_mem_filter he)
      · obtain rfl := List.mem_singleton.mp he
        exact .inr ⟨query, rfl, rfl, hargs⟩
  | findOne id =>
    simp only [exec, TurfService.findOne] at he
    split at he
    · exact .inl he
    split at he <;> exact .inl he
  | createTurf dto =>
    simp only [exec, TurfService.create] at he
    split_ifs at he
    · exact .inl he
    · exact .inl he
    split at he
    · exact .inl he
    · cases he
  | update id dto =>
    simp only [exec, TurfService.update] at he
    split at he
    · exact .inl he
    · cases he
  | remove id =>
    simp only [exec, TurfService.remove] at he
    split at he
    · exact .inl he
    · cases he
  | uploadTurfImage turfId file uploaded =>
    simp only [exec, UploadController.uploadTurfImage] at he
    split at he
    · exact .inl he
    split at he <;> exact .inl he
  | deleteTurfImage turfId imageUrl destroyed =>
    simp only [exec, UploadController.deleteTurfImage] at he
    split at he
    · exact .inl he
    split at he
    · exact .inl he
    split at he <;> exact .inl he
  | _ => exact .inl he

/-- While no query of the run filters by a text with a colon, no query finds the list of
another one. -/
theorem each_keyFits (hp : p.Prints) (cfg : Config) {as : List Step}
    (hlists : ∀ e ∈ w.listCache, ∃ query : QueryTurfDto, query.Plain ∧ query.cacheKey p = e.key ∧
      query.args p = some e.args)
    (hplain : ∀ query, .findAll query ∈ as → query.Plain) :
    Each cfg p (fun w a => ∀ query, a = .findAll query → KeyFits p w query) w as := by
  induction as generalizing w with
  | nil => trivial
  | cons a as ih =>
    refine ⟨?_, ih (fun e he => ?_) fun query hquery => hplain query (List.mem_cons_of_mem a hquery)⟩
    · rintro query rfl e he hkey
      obtain ⟨query', hplain', hkey', hargs⟩ := hlists e he
      rw [← hargs]
      exact args_of_cacheKey hp (hplain query List.mem_cons_self) hplain' (hkey.symm.trans hkey'.symm)
    · rcases exec_lists cfg p w a e he with he | ⟨query, rfl, hkey, hargs⟩
      · exact hlists e he
      · exact ⟨query, hplain query List.mem_cons_self, hkey, hargs⟩

end Step

end

/-- Every `findAll` and `findOne` of a run that starts with an empty cache answers as it would
with an empty cache, as long as no other call changes what a cached page shows without deleting
it, and no two queries share a key. -/
theorem pages_answer (cfg : Config) (p : Platform) {w : World} (hturfs : w.turfCache = [])
    (hlists : w.listCache = []) {as : List Step} (has : Step.Each cfg p (Step.Fits p) w as) :
    Step.Each cfg p (Step.Answers p) w as :=
  Step.each_answers ⟨by simp [hturfs], by simp [hlists]⟩ cfg has

namespace Arena

open TurfSync.Arena (dto turf)

/-- A second turf, with a colon in its name. -/
def cage : Turf := { turf with id := 2, name := "Cage:1" }

/-- User 8 has played on slot 2. -/
def played : Booking where
  id := 50
  userId := 8
  turfId := 1
  slotId := 2
  totalAmount := 1000
  status := .COMPLETED
  notes := none
  createdAt := 0

def db : Db := { TurfSync.Arena.db with turfs := [turf, cage], bookings := [played] }

def world : World where
  shop := ⟨{ TurfSync.Arena.sys.world with db := db }, []⟩
  turfCache := []
  listCache := []

/-- The slots of the turf are on 1970-01-06. -/
def platform : Platform where
  contains text part := decide (part.toLower.toList <:+: text.toLower.toList)
  newDate text :=
    if text = "1970-01-02" then some dayMs else if text = "1970-01-06" then some (5 * dayMs) else none
  numberToString q := toString q.num
  utcOffset _ := 0

def onDate (date : String) : Step := .findAll { availableDate := some date }

def photo : Step := .uploadTurfImage 1 ⟨2048, "image/png"⟩ (.result (some "https://img/1.png"))

/-- Two lists and a turf are read, changed by an edit, and read again after a review, a photo and
a booking. -/
def day : List Step :=
  [.findAll {}, .findOne 1, .update 1 { pricePerHour := some 1200 }, .createReview ⟨50, 4, none⟩ 8,
    photo, .generate (.generateForTurf 1 3), .create (dto 1 none) 7, .findAll {}, onDate "1970-01-06",
    .findOne 1, .remove 2, .findAll {}, onDate "1970-01-06"]

end Arena

theorem pages_answer_arena : Step.Each (TurfSync.Arena.cfg true) Arena.platform
    (Step.Answers Arena.platform) Arena.world Arena.day :=
  pages_answer (TurfSync.Arena.cfg true) Arena.platform rfl rfl (by decide +kernel)

/-- A photo, a review, a booking and generated slots that cached pages do not show; and a query
that finds the list of another one, whose key is `turf:list:dhaka:::1::::1:10` as well. -/
theorem pages_stale :
    let fails := fun steps =>
      ¬ Step.Each (TurfSync.Arena.cfg true) Arena.platform (Step.Answers Arena.platform) Arena.world steps
    fails [.findOne 1, Arena.photo, .findOne 1] ∧
    fails [.findAll {}, .createReview ⟨50, 4, none⟩ 8, .findAll {}] ∧
    fails [Arena.onDate "1970-01-06", .create (TurfSync.Arena.dto 1 none) 7, Arena.onDate "1970-01-06"] ∧
    fails [Arena.onDate "1970-01-02", .generate (.generateForTurf 1 3), Arena.onDate "1970-01-02"] ∧
    fails [.findAll { city := some "dhaka:", search := some "1" },
      .findAll { city := some "dhaka", search := some ":1" }] := by
  refine ⟨?_, ?_, ?_, ?_, ?_⟩ <;> decide +kernel

end Pages

end TurfSync
