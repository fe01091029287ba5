import TurfSync.Guarantees.CacheKeys
import TurfSync.Services.CachedReads
import TurfSync.Txn.Runs

/-! How old a value from the cache can be. Others change the database and delete what is cached
while a call reads it statement by statement, so a call may cache what is no longer so. What
bounds its age is how long calls take: a reply is made of what the database gave at moments not
further back than the time to live and the duration of a call. -/

namespace TurfSync.Reads

open Txn Pages

variable {p : Platform} {d : ℕ}

/-! ### Moments -/

namespace World

/-- At some moment from `since` on, the database was as `P` says. -/
def Was (w : World) (since : Time) (P : Db → Prop) : Prop := ∃ m ∈ w.past, since ≤ m.1 ∧ P m.2

/-- The value is what the database gave for the key, each part at a moment from `since` on. -/
def Shows (p : Platform) (w : World) (since : Time) : Key → Value → Prop
  | .turf id, .turf turf => w.Was since fun db => db.turf? id = some turf
  | .list key, .page page => ∃ (query : QueryTurfDto) (args : FindArgs) (data : List TurfView)
      (total : ℕ), query.cacheKey p = key ∧ query.args p = some args ∧
      page = Pagination.createPaginatedResponse data total args.page args.limit ∧
      (w.Was since fun db => (args.find p db).data = data) ∧
      w.Was since fun db => (args.find p db).pageMeta.total = total
  | .slots turfId date, .listing listing => listing.date = date ∧
      (w.Was since fun db => db.turf? turfId = some listing.turf) ∧
      w.Was since fun db => db.slotsOn turfId date = listing.slots
  | _, _ => False

/-- Time has passed, and the log is longer. -/
structure Later (w w' : World) : Prop where
  now : w.now ≤ w'.now
  past : ∀ m ∈ w.past, m ∈ w'.past

variable {w w' w'' : World} {since since' : Time} {P : Db → Prop} {key : Key} {value : Value}

theorem Later.refl (w : World) : w.Later w := ⟨le_refl _, fun _ hm => hm⟩

theorem Later.trans (h : w.Later w') (h' : w'.Later w'') : w.Later w'' :=
  ⟨le_trans h.now h'.now, fun m hm => h'.past m (h.past m hm)⟩

theorem Was.later (h : w.Was since P) (hw : w.Later w') (hle : since' ≤ since) : w'.Was since' P := by
  obtain ⟨m, hm, hsince, hP⟩ := h
  exact ⟨m, hw.past m hm, le_trans hle hsince, hP⟩

theorem Shows.later (h : w.Shows p since key value) (hw : w.Later w') (hle : since' ≤ since) :
    w'.Shows p since' key value := by
  cases key <;> cases value <;> simp only [Shows] at h ⊢
  case list.page =>
    obtain ⟨query, args, data, total, hkey, hargs, hpage, hdata, htotal⟩ := h
    exact ⟨query, args, data, total, hkey, hargs, hpage, hdata.later hw hle, htotal.later hw hle⟩
  case turf.turf => exact h.later hw hle
  case slots.listing => exact ⟨h.1, h.2.1.later hw hle, h.2.2.later hw hle⟩

/-- The log has come to the present, and what is cached was read by a call of at most `d`
milliseconds. -/
structure Sane (p : Platform) (d : ℕ) (w : World) : Prop where
  current : (w.now, w.db) ∈ w.past
  items : ∀ item ∈ w.items,
    w.Shows p (item.expiresAt - 1000 * item.key.ttlSeconds - d) item.key item.value

/-- The present is a moment from a call's start on. -/
theorem Sane.was (h : w.Sane p d) (hsince : since ≤ w.now) (hP : P w.db) : w.Was since P :=
  ⟨(w.now, w.db), h.current, hsince, hP⟩

theorem later_logged (w : World) : w.Later w.logged :=
  ⟨le_refl _, fun _ hm => List.mem_append_left _ hm⟩

theorem current_logged (w : World) : (w.logged.now, w.logged.db) ∈ w.logged.past :=
  List.mem_append_right _ (List.mem_singleton.mpr rfl)

end World

/-- What is cached is what the database gave. -/
def Write.Shown (p : Platform) (d : ℕ) (w : World) : Write → Prop
  | .cache key value expiresAt => w.Shows p (expiresAt - 1000 * key.ttlSeconds - d) key value
  | .slots _ => True

namespace World

variable {w w' : World}

theorem apply_frame (w : World) (x : Write) :
    (w.apply x).now = w.now ∧ (w.apply x).past = w.past := by
  cases x <;> exact ⟨rfl, rfl⟩

theorem foldl_frame (w : World) (xs : List Write) :
    (xs.foldl World.apply w).now = w.now ∧ (xs.foldl World.apply w).past = w.past := by
  induction xs generalizing w with
  | nil => exact ⟨rfl, rfl⟩
  | cons x xs ih =>
    have hx := apply_frame w x
    have hxs := ih (w.apply x)
    exact ⟨hxs.1.trans hx.1, hxs.2.trans hx.2⟩

/-- An entry was there, or is written. -/
theorem items_foldl (w : World) (xs : List Write) : ∀ item ∈ (xs.foldl World.apply w).items,
    item ∈ w.items ∨ .cache item.key item.value item.expiresAt ∈ xs := by
  induction xs generalizing w with
  | nil => exact fun item hitem => .inl hitem
  | cons x xs ih =>
    intro item hitem
    rcases ih (w.apply x) item hitem with hold | hnew
    · cases x with
      | cache key value expiresAt =>
        rcases List.mem_append.mp hold with hold | hold
        · exact .inl (List.mem_filter.mp hold).1
        · obtain rfl := List.mem_singleton.mp hold
          exact .inr List.mem_cons_self
      | slots rows => exact .inl hold
    · exact .inr (List.mem_cons_of_mem x hnew)

theorem later_commit (w : World) (xs : List Write) : w.Later (xs.foldl World.apply w).logged := by
  obtain ⟨hnow, hpast⟩ := foldl_frame w xs
  have hlogged := later_logged (xs.foldl World.apply w)
  exact ⟨hnow ▸ hlogged.now, fun m hm => hlogged.past m (hpast ▸ hm)⟩

theorem Sane.commit (h : w.Sane p d) {xs : List Write} (hxs : ∀ x ∈ xs, x.Shown p d w) :
    (xs.foldl World.apply w).logged.Sane p d where
  current := current_logged _
  items item hitem := by
    have hlater := later_commit w xs
    rcases items_foldl w xs item hitem with hold | hnew
    · exact (h.items item hold).later hlater (le_refl _)
    · exact Shows.later (hxs _ hnew) hlater (le_refl _)

end World

/-! ### The rules of a call -/

/-- A statement leaves the world as it is, but for the next id. -/
theorem act_world (m : Stmt) (v w : World) :
    ∃ n, (m.act p v w).world = { w with uuid := n } := by
  cases m with
  | slotCreateMany data =>
    simp only [Stmt.act]
    split_ifs <;> exact ⟨_, rfl⟩
  | _ => exact ⟨w.uuid, rfl⟩

/-- A call reads and writes within `d` milliseconds, and caches what the database gave. -/
def rules (p : Platform) (d : ℕ) : Rules Stmt Empty Write World Call where
  inv := World.Sane p d
  rely _ _ w w' := w.Later w'
  start _ _ := True
  allow c _ w _ _ := w.now ≤ c.call.start + d
  post _ _ ws w := ∀ x ∈ ws, x.Shown p d w

theorem rules_lawful (p : Platform) (d : ℕ) : (rules p d).Lawful (engine p) where
  refl _ _ w := .refl w
  trans h h' := h.trans h'
  start _ _ := trivial
  act_inv m v w hw := by
    obtain ⟨n, hn⟩ := @act_world p m v w
    change (m.act p v w).world.Sane p d
    rw [hn]
    exact ⟨hw.current, hw.items⟩
  act_rely m v w _ _ _ := by
    obtain ⟨n, hn⟩ := @act_world p m v w
    change w.Later (m.act p v w).world
    rw [hn]
    exact ⟨le_refl _, fun _ hm => hm⟩
  commit_inv hw hpost := hw.commit hpost
  commit_rely _ _ _ _ := World.later_commit _ _

section

variable {c : Session Call} {w : World} {key : Key}

/-- A statement that reads. -/
theorem wp_read {α : Type} {m : Stmt} {f : m.Reply → Op α} {Q : Post Err Empty Write World α}
    {r : World → m.Reply} (hwrites : ∀ v w, (m.act p v w).writes = [])
    (hact : ∀ w, m.act p w w = ⟨.ok (r w), [], [], w⟩)
    (hok : ∀ w', w.Later w' → w'.Sane p d → wp (engine p) (rules p d) c (f (r w')) Q .idle w')
    (hfail : ∀ w', w.Later w' → wp (engine p) (rules p d) c (.throw .infrastructure) Q .idle w') :
    wp (engine p) (rules p d) c ((stmt m).bind f) Q .idle w := by
  refine wp_stmt_read hwrites (fun w' hw hsane _ => ?_) fun w' hw _ _ => hfail w' hw
  change wp _ _ _ (resume (m.act p w' w').reply f) Q .idle (m.act p w' w').world
  rw [hact]
  exact hok w' hw hsane

/-- What is in the cache was given by the database not longer ago than the time to live and the
duration of a call. -/
theorem wp_get (hstart : c.call.start ≤ w.now) :
    wp (engine p) (rules p d) c (RedisLockService.get key) (fun r l w' => l = .idle ∧ w.Later w' ∧
      ∃ cached, r = .ok cached ∧ ∀ value ∈ cached,
        w'.Shows p (c.call.start - 1000 * key.ttlSeconds - d) key value) .idle w := by
  refine wp_tryCatch (rules_lawful p d) ?_
  rw [← Prog.bind_ret (stmt (.get key))]
  refine wp_read (r := fun w' => w'.get key) (fun _ _ => rfl) (fun _ => rfl)
    (fun w' hw hsane w'' hw' _ => ?_) fun w' hw w'' hw' _ => ?_
  · refine ⟨rfl, hw.trans hw', _, rfl, fun value hvalue => ?_⟩
    obtain ⟨item, hfind, rfl⟩ := Option.map_eq_some_iff.mp hvalue
    have hlive : item.key = key ∧ w'.now < item.expiresAt := by simpa using List.find?_some hfind
    obtain ⟨rfl, hnow⟩ := hlive
    refine (hsane.items item (List.mem_of_find?_eq_some hfind)).later hw' ?_
    have hnow' := hw.now
    linarith
  · -- a cache that cannot be read has nothing
    exact fun w₃ hw₃ _ => ⟨rfl, (hw.trans hw').trans hw₃, none, rfl, by simp⟩

/-- Of a value that the call loaded, what is cached is not older than the call. -/
theorem wp_set {value : Value} (hvalue : w.Shows p c.call.start key value) :
    wp (engine p) (rules p d) c (RedisLockService.set key value key.ttlSeconds)
      (fun r _ w' => r = .ok () ∧ w.Later w') .idle w := by
  refine wp_tryCatch (rules_lawful p d) ?_
  rw [← Prog.bind_ret (stmt (.set key value key.ttlSeconds))]
  refine wp_stmt_auto (fun w' hw _ hallow => ⟨fun hws => ?_, fun _ => ⟨?_, ?_⟩⟩) fun w' hw _ _ => ?_
  · cases hws
  · intro x hx
    rw [List.mem_singleton.mp hx]
    have hnow : w'.now ≤ c.call.start + d := hallow
    change w'.Shows p (w'.now + 1000 * key.ttlSeconds - 1000 * key.ttlSeconds - d) key value
    exact hvalue.later hw (by linarith)
  · intro w'' hw' _
    exact ⟨rfl, (hw.trans (World.later_commit w' _)).trans hw'⟩
  · intro w₂ hw₂ _ w₃ hw₃ _
    exact ⟨rfl, (hw.trans hw₂).trans hw₃⟩

/-- What a part of a program makes of the outcome: a value that the database has given since the
call began. -/
def Loads (p : Platform) (c : Session Call) (key : Key) : Post Err Empty Write World Value :=
  fun r l w => ∀ value, r = .ok value → l = .idle ∧ w.Shows p c.call.start key value

theorem wp_cacheAside {load : Op Value} (hstart : c.call.start ≤ w.now)
    (hload : ∀ w', w.Later w' → wp (engine p) (rules p d) c load (Loads p c key) .idle w') :
    wp (engine p) (rules p d) c (cacheAside key load) (fun r _ w' => ∀ value, r = .ok value →
      w'.Shows p (c.call.start - 1000 * key.ttlSeconds - d) key value) .idle w := by
  refine wp_bind (rules_lawful p d) (wp_mono (wp_get hstart) ?_)
  rintro r l w₁ - ⟨rfl, hw₁, cached, rfl, hcached⟩
  cases cached with
  | some value =>
    intro w₂ hw₂ _ value' hvalue'
    obtain rfl := Except.ok.inj hvalue'
    exact (hcached value rfl).later hw₂ (le_refl _)
  | none =>
    refine wp_bind (rules_lawful p d) (wp_mono (hload w₁ hw₁) ?_)
    rintro (e | value) l w₂ - hloads
    · intro value hvalue
      cases hvalue
    · obtain ⟨rfl, hshows⟩ := hloads value rfl
      refine wp_bind (rules_lawful p d) (wp_mono (wp_set hshows) ?_)
      rintro r l w₃ - ⟨rfl, hw₃⟩ w₄ hw₄ - value' hvalue'
      obtain rfl := Except.ok.inj hvalue'
      have httl : (0 : ℤ) ≤ key.ttlSeconds := Int.natCast_nonneg _
      have hd : (0 : ℤ) ≤ d := Int.natCast_nonneg _
      exact hshows.later (hw₃.trans hw₄) (by linarith)

/-! ### The three reads -/

theorem loads_throw (e : Err) :
    wp (engine p) (rules p d) c (.throw e) (Loads p c key) .idle w :=
  fun _ _ _ _ hr => by cases hr

theorem loads_pure {value : Value} (hshows : w.Shows p c.call.start key value) :
    wp (engine p) (rules p d) c (.ret value) (Loads p c key) .idle w := by
  intro w' hw _ value' hvalue'
  obtain rfl := Except.ok.inj hvalue'
  exact ⟨rfl, hshows.later hw (le_refl _)⟩

/-- A statement that reads, on the way to a value. -/
theorem loads_read {m : Stmt} {f : m.Reply → Op Value} {r : World → m.Reply}
    (hwrites : ∀ v w, (m.act p v w).writes = []) (hact : ∀ w, m.act p w w = ⟨.ok (r w), [], [], w⟩)
    (hok : ∀ w', w.Later w' → w'.Sane p d →
      wp (engine p) (rules p d) c (f (r w')) (Loads p c key) .idle w') :
    wp (engine p) (rules p d) c ((stmt m).bind f) (Loads p c key) .idle w :=
  wp_read hwrites hact hok fun _ _ => loads_throw _

/-- The rows and the number of the rows are read at two moments. -/
theorem loads_paginate (hstart : c.call.start ≤ w.now) {query : QueryTurfDto} {args : FindArgs}
    (hargs : query.args p = some args) (countFirst : Bool) :
    wp (engine p) (rules p d) c ((paginate args countFirst).bind fun page => .ret (.page page))
      (Loads p c (.list (query.cacheKey p))) .idle w := by
  have hdata : ∀ {w₁ : World}, w.Later w₁ → w₁.Sane p d →
      w₁.Was c.call.start fun db => (args.find p db).data = (args.find p w₁.db).data :=
    fun hw₁ hsane₁ => hsane₁.was (le_trans hstart hw₁.now) rfl
  have htotal : ∀ {w₁ : World}, w.Later w₁ → w₁.Sane p d → w₁.Was c.call.start fun db =>
      (args.find p db).pageMeta.total = (args.find p w₁.db).pageMeta.total :=
    fun hw₁ hsane₁ => hsane₁.was (le_trans hstart hw₁.now) rfl
  rw [paginate]
  split_ifs
  · rw [Prog.bind_eq, Prog.bind_assoc]
    refine loads_read (r := fun w => (args.find p w.db).pageMeta.total) (fun _ _ => rfl)
      (fun _ => rfl) fun w₁ hw₁ hsane₁ => ?_
    rw [Prog.bind_eq, Prog.bind_assoc]
    refine loads_read (r := fun w => (args.find p w.db).data) (fun _ _ => rfl)
      (fun _ => rfl) fun w₂ hw₂ hsane₂ => ?_
    exact loads_pure ⟨query, args, _, _, rfl, hargs, rfl, hdata (hw₁.trans hw₂) hsane₂,
      (htotal hw₁ hsane₁).later hw₂ (le_refl _)⟩
  · rw [Prog.bind_eq, Prog.bind_assoc]
    refine loads_read (r := fun w => (args.find p w.db).data) (fun _ _ => rfl)
      (fun _ => rfl) fun w₁ hw₁ hsane₁ => ?_
    rw [Prog.bind_eq, Prog.bind_assoc]
    refine loads_read (r := fun w => (args.find p w.db).pageMeta.total) (fun _ _ => rfl)
      (fun _ => rfl) fun w₂ hw₂ hsane₂ => ?_
    exact loads_pure ⟨query, args, _, _, rfl, hargs, rfl, (hdata hw₁ hsane₁).later hw₂ (le_refl _),
      htotal (hw₁.trans hw₂) hsane₂⟩

/-- The turf is read before its slots, between which slots may be generated. -/
theorem loads_listSlots {turf : Turf} {turfId : TurfId} {searchDate : Time}
    (hstart : c.call.start ≤ w.now) (hturf : w.Was c.call.start fun db => db.turf? turfId = some turf) :
    wp (engine p) (rules p d) c (TurfService.listSlots turf turfId searchDate)
      (Loads p c (.slots turfId searchDate)) .idle w := by
  have hlisting : ∀ {w₁ : World}, w.Later w₁ → w₁.Sane p d → w₁.Shows p c.call.start
      (.slots turfId searchDate) (.listing ⟨turf, w₁.db.slotsOn turfId searchDate, searchDate⟩) :=
    fun hw₁ hsane₁ => ⟨rfl, hturf.later hw₁ (le_refl _), hsane₁.was (le_trans hstart hw₁.now) rfl⟩
  refine loads_read (r := fun w => w.db.slotsOn turfId searchDate) (fun _ _ => rfl)
    (fun _ => rfl) fun w₁ hw₁ hsane₁ => ?_
  by_cases hfew : (w₁.db.slotsOn turfId searchDate).length < turf.endHour - turf.currentHour
  · rw [if_pos hfew]
    have hagain : ∀ w₂, w.Later w₂ → wp (engine p) (rules p d) c
        ((stmt (.slotFindMany turfId searchDate)).bind fun slots =>
          .ret (.listing ⟨turf, slots, searchDate⟩)) (Loads p c (.slots turfId searchDate)) .idle w₂ := by
      intro w₂ hw₂
      exact loads_read (r := fun w => w.db.slotsOn turfId searchDate) (fun _ _ => rfl) (fun _ => rfl)
        fun w₃ hw₃ hsane₃ => loads_pure (hlisting (hw₂.trans hw₃) hsane₃)
    refine wp_stmt_auto (fun w₂ hw₂ _ _ => ?_) fun _ _ _ _ => loads_throw _
    have hlater := hw₁.trans hw₂
    simp only [engine, Stmt.act]
    split_ifs with hmissing
    · exact ⟨fun _ => loads_throw _, fun hws => absurd rfl hws⟩
    · refine ⟨fun hws => absurd hws (by simp), fun _ => ⟨fun x hx => ?_, hagain _ ?_⟩⟩
      · rw [List.mem_singleton.mp hx]
        trivial
      · have hcommit := World.later_commit { w₂ with
          uuid := w₂.uuid + (SlotService.slotsToCreate turf searchDate).length }
        exact hlater.trans ⟨(hcommit _).now, (hcommit _).past⟩
  · rw [if_neg hfew]
    exact loads_pure (hlisting hw₁ hsane₁)

/-- What a reply is made of. -/
def Call.Replied (p : Platform) (d : ℕ) (w : World) (c : Call) (value : Value) : Prop :=
  match c.request with
  | .findAll query _ => w.Shows p (c.start - 300000 - d) (.list (query.cacheKey p)) value
  | .findOne id => w.Shows p (c.start - 300000 - d) (.turf id) value
  | .getAvailableSlots turfId date => ∃ searchDate,
      date.searchDate p.utcOffset c.start = some searchDate ∧
        w.Shows p (c.start - 60000 - d) (.slots turfId searchDate) value

theorem wp_body (n : ℕ) (c : Call) (hstart : c.start ≤ w.now) :
    wp (engine p) (rules p d) ⟨n, c⟩ (Call.body p c)
      (fun r _ w' => ∀ value, r = .ok value → c.Replied p d w' value) .idle w := by
  obtain ⟨request, start⟩ := c
  cases request with
  | findAll query countFirst =>
    refine wp_cacheAside (c := ⟨n, _⟩) hstart fun w₁ hw₁ => ?_
    cases hargs : query.args p with
    | none => exact loads_throw _
    | some args => exact loads_paginate (c := ⟨n, _⟩) (le_trans hstart hw₁.now) hargs countFirst
  | findOne id =>
    refine wp_cacheAside (c := ⟨n, _⟩) hstart fun w₁ hw₁ => ?_
    refine loads_read (r := fun w => w.db.turf? id) (fun _ _ => rfl) (fun _ => rfl)
      fun w₂ hw₂ hsane₂ => ?_
    cases hturf : w₂.db.turf? id with
    | none => exact loads_throw _
    | some turf =>
      have hwas : w₂.Was start fun db => db.turf? id = some turf :=
        hsane₂.was (le_trans hstart (hw₁.trans hw₂).now) hturf
      exact loads_pure hwas
  | getAvailableSlots turfId date =>
    change wp _ _ _ (TurfService.getAvailableSlots p turfId date start) _ _ _
    rw [TurfService.getAvailableSlots]
    cases hdate : date.searchDate p.utcOffset start with
    | none =>
      intro _ _ _ value hvalue
      cases hvalue
    | some searchDate =>
      refine wp_mono (wp_cacheAside (c := ⟨n, ⟨.getAvailableSlots turfId date, start⟩⟩) hstart
        fun w₁ hw₁ => ?_) fun r l w' _ hshows value hvalue => ⟨searchDate, hdate, hshows value hvalue⟩
      refine loads_read (r := fun w => w.db.turf? turfId) (fun _ _ => rfl) (fun _ => rfl)
        fun w₂ hw₂ hsane₂ => ?_
      cases hturf : w₂.db.turf? turfId with
      | none => exact loads_throw _
      | some turf =>
        have hstart₂ := le_trans hstart (hw₁.trans hw₂).now
        have hwas : w₂.Was start fun db => db.turf? turfId = some turf := hsane₂.was hstart₂ hturf
        exact loads_listSlots hstart₂ hwas

end

/-- The surroundings go on to the next moment. -/
theorem later_moved {w w' : World} (hnow : w.now ≤ w'.now) (hpast : w'.past = w.past) :
    w.Later w'.logged :=
  ⟨hnow, fun _ hm => (World.later_logged w').past _ (hpast.symm ▸ hm)⟩

theorem sane_moved {w w' : World} (h : w.Sane p d) (hnow : w.now ≤ w'.now) (hpast : w'.past = w.past)
    (hitems : w'.items = w.items) : w'.logged.Sane p d where
  current := World.current_logged w'
  items item hitem :=
    (h.items item (hitems ▸ hitem)).later (later_moved hnow hpast) (le_refl _)

theorem starts (p : Platform) (d : ℕ) : Starts (service p) (rules p d)
    fun c r _ w => ∀ value, r = .ok value → c.call.Replied p d w value where
  evolve_inv v w h := by
    cases v with
    | tick ms =>
      have hnow : w.now ≤ w.now + ms := le_add_of_nonneg_right (Int.natCast_nonneg ms)
      exact @sane_moved p d w { w with now := w.now + ms } h hnow rfl rfl
    | write db => exact @sane_moved p d w { w with db := db } h (le_refl _) rfl rfl
    | forget keys => exact ⟨h.current, fun item hitem => h.items item (List.mem_filter.mp hitem).1⟩
  evolve_rely v w _ _ _ := by
    cases v with
    | tick ms =>
      have hnow : w.now ≤ w.now + ms := le_add_of_nonneg_right (Int.natCast_nonneg ms)
      exact @later_moved w { w with now := w.now + ms } hnow rfl
    | write db => exact @later_moved w { w with db := db } (le_refl _) rfl
    | forget keys => exact ⟨le_refl _, fun _ hm => hm⟩
  body n c w _ _ haccept := wp_body n c (le_of_eq (of_decide_eq_true haccept))

/-! ### Every reply -/

/-- Each statement of a call is executed, or fails, within `d` milliseconds of its start. -/
def Timely (d : ℕ) (s : Sys) : Act → Prop
  | .run i => ∀ t ∈ s.threads[i]?, t.prog.result? = none → s.world.now ≤ t.session.call.start + d
  | .fault i => ∀ t ∈ s.threads[i]?, t.prog.result? = none → s.world.now ≤ t.session.call.start + d
  | _ => True

instance (d : ℕ) (s : Sys) : (a : Act) → Decidable (Timely d s a)
  | .run i => inferInstanceAs (Decidable (∀ t ∈ s.threads[i]?, _ → _))
  | .fault i => inferInstanceAs (Decidable (∀ t ∈ s.threads[i]?, _ → _))
  | .spawn _ => .isTrue trivial
  | .env _ => .isTrue trivial

theorem permits_timely {s : Sys} {a : Act} (h : Timely d s a) :
    Permits (service p) (rules p d).allow s a := by
  have hnext : ∀ (q : Op Value) {P : Prop}, (q.result? = none → P) → q.Next fun _ => P := by
    intro q P hP
    cases q with
    | call m k => exact hP rfl
    | _ => trivial
  cases a with
  | run i => exact fun _ t ht => hnext t.prog (h t ht)
  | fault i => exact fun t ht => hnext t.prog (h t ht)
  | _ => trivial

/-- A key with as many colons as separate its fields is of a query that has none in its texts. -/
theorem plain_of_key (hp : p.Prints) {q q' : QueryTurfDto} (hq : q.Plain)
    (h : q'.cacheKey p = q.cacheKey p) : q'.Plain := by
  have hlists := congrArg String.toList h
  rw [toList_cacheKey, toList_cacheKey, List.append_cancel_left_eq] at hlists
  have hcount := congrArg (List.count ':') hlists
  rw [Text.count_intercalate, Text.count_intercalate] at hcount
  have hsum : (q'.colons p).sum = (q.colons p).sum := Nat.add_right_cancel hcount
  simp only [colons_eq hp, List.sum_cons, List.sum_nil, QueryTurfDto.colonsIn] at hsum
  simp only [QueryTurfDto.Plain, List.forall_mem_cons, List.not_mem_nil, IsEmpty.forall_iff,
    implies_true, and_true, ← List.count_eq_zero] at hq ⊢
  omega

/-- What is served, and how old it is at most: a turf as the database had it at a moment not
longer than the time to live and the duration of a call before the call, a page of which the
rows and their number are of such moments, and a listing of which the turf and the slots are. -/
def Call.Recent (p : Platform) (d : ℕ) (w : World) (c : Call) (value : Value) : Prop :=
  match c.request with
  | .findOne id => ∃ turf, value = .turf turf ∧
      w.Was (c.start - 300000 - d) fun db => db.turf? id = some turf
  | .findAll query _ => query.Plain → ∃ (args : FindArgs) (data : List TurfView) (total : ℕ),
      query.args p = some args ∧
      value = .page (Pagination.createPaginatedResponse data total args.page args.limit) ∧
      (w.Was (c.start - 300000 - d) fun db => (args.find p db).data = data) ∧
      w.Was (c.start - 300000 - d) fun db => (args.find p db).pageMeta.total = total
  | .getAvailableSlots turfId date => ∃ (searchDate : Time) (turf : Turf) (slots : List Slot),
      date.searchDate p.utcOffset c.start = some searchDate ∧
      value = .listing ⟨turf, slots, searchDate⟩ ∧
      (w.Was (c.start - 60000 - d) fun db => db.turf? turfId = some turf) ∧
      w.Was (c.start - 60000 - d) fun db => db.slotsOn turfId searchDate = slots

theorem recent_of_replied (hp : p.Prints) {w : World} {c : Call} {value : Value}
    (h : c.Replied p d w value) : c.Recent p d w value := by
  obtain ⟨request, start⟩ := c
  cases request with
  | findOne id =>
    cases value with
    | turf turf => exact ⟨turf, rfl, h⟩
    | _ => exact h.elim
  | findAll query countFirst =>
    intro hquery
    cases value with
    | page page =>
      obtain ⟨query', args, data, total, hkey, hargs, rfl, hdata, htotal⟩ := h
      have hsame := args_of_cacheKey hp (plain_of_key hp hquery hkey) hquery hkey
      exact ⟨args, data, total, hsame ▸ hargs, rfl, hdata, htotal⟩
    | _ => exact h.elim
  | getAvailableSlots turfId date =>
    obtain ⟨searchDate, hdate, h⟩ := h
    cases value with
    | listing listing =>
      obtain ⟨rfl, hturf, hslots⟩ := h
      exact ⟨listing.date, listing.turf, listing.slots, hdate, rfl, hturf, hslots⟩
    | _ => exact h.elim

theorem lawful_initial {s : Sys} (hs : s.Initial) : Sound (service p) (rules p d)
    (fun c r _ w => ∀ value, r = .ok value → c.call.Replied p d w value) s where
  inv := ⟨by simp [hs.past], by simp [hs.items]⟩
  starts _ _ := trivial
  ids i t ht := by simp [hs.threads] at ht
  excl i t ht := by simp [hs.threads] at ht
  wps i t ht := by simp [hs.threads] at ht

/-- Whoever changes the database and whatever fails: what a call returns is recent. -/
theorem replies_recent (hp : p.Prints) {s : Sys} {as : List Act} (hs : s.Initial)
    (hM : (service p).Each (Timely d) s as) {i : ℕ} {c : Call} {value : Value}
    (he : ((service p).run s as).Ended i c (.ok value)) :
    c.Recent p d ((service p).run s as).world value := by
  have hsound := Service.always_sound (rules_lawful p d) (starts p d) (lawful_initial hs)
    (hM.mono fun _ _ => permits_timely)
  obtain ⟨l, hreplied⟩ := hsound.last.post (rules_lawful p d) he
  exact recent_of_replied hp (hreplied value rfl)

def Arena.turf (pricePerHour : ℚ) : Turf :=
  CreateTurfDto.row ⟨"Arena", "", "", "Dhaka", .FOOTBALL, pricePerHour, ⟨8, 0⟩, ⟨22, 0⟩, none⟩ 1 0

def Arena.db (pricePerHour : ℚ) : Db := ⟨[turf pricePerHour], [], [], [], [], [], [], []⟩

def Arena.sys : Sys := ⟨⟨0, 0, db 10, [], [(0, db 10)]⟩, []⟩

theorem Arena.initial : Arena.sys.Initial := ⟨rfl, rfl, rfl⟩

/-- A turf is read, its price is raised and it is deleted from the cache, and what was read is
cached; it is served almost five minutes later. -/
def Arena.raised : List Act :=
  [.spawn ⟨.findOne 1, 0⟩, .run 0, .run 0, .env (.tick 5), .env (.write (db 20)),
    .env (.forget [.turf 1]), .run 0, .env (.tick 299000), .spawn ⟨.findOne 1, 299005⟩, .run 1]

theorem replies_recent_raised :
    let w := ((service plainPlatform).run Arena.sys Arena.raised).world
    Call.Recent plainPlatform 5 w ⟨.findOne 1, 299005⟩ (.turf (Arena.turf 10)) ∧
      w.db.turf? 1 = some (Arena.turf 20) :=
  ⟨@replies_recent plainPlatform 5 plainPlatform_prints Arena.sys Arena.raised Arena.initial
    (by decide +kernel) 1 ⟨.findOne 1, 299005⟩ (.turf (Arena.turf 10)) (by decide +kernel),
    by decide +kernel⟩

end TurfSync.Reads
