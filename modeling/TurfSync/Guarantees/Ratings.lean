import TurfSync.Services.Review

/-! Whether the rating of a turf is the average of its reviews. A call inserts a review,
reads the average and writes it into the turf, in three statements, so what it writes is
the average of now only if no review of the turf came in since it was read. -/

namespace TurfSync.Reviews

open Txn

/-- `avg._avg.rating ?? 0`. -/
def mean (turfId : TurfId) (reviews : List Review) : ℚ := (average turfId reviews).getD 0

/-- The rating of each turf is the average of its reviews, 0 if it has none. -/
def Db.Rated (db : Db) : Prop := ∀ turf ∈ db.turfs, turf.rating = mean turf.id db.reviews

instance (db : Db) : Decidable db.Rated :=
  inferInstanceAs (Decidable (∀ turf ∈ db.turfs, turf.rating = mean turf.id db.reviews))

/-- Every call is over, and none has been interrupted by a failure of the database. -/
def Quiet (t : Sys) : Prop :=
  ∀ th ∈ t.threads, ∃ r ∈ th.prog.result?, r ≠ .error .infrastructure

instance (t : Sys) : Decidable (Quiet t) :=
  inferInstanceAs (Decidable (∀ th ∈ t.threads, ∃ r ∈ th.prog.result?, r ≠ .error .infrastructure))

/-- The entry is an average that has been read. -/
def Averages (e : Entry) : Prop :=
  match e.writes with
  | [.averaged _] => True
  | _ => False

instance : DecidablePred Averages := fun e =>
  decidable_of_iff ((match e.writes with
    | [.averaged _] => true
    | _ => false) = true) (by unfold Averages; split <;> simp)

/-- The entry is the insertion of a review of the turf. -/
def Reviewed (turfId : TurfId) (e : Entry) : Prop :=
  match e.writes with
  | [.reviewInsert r] => r.turfId = turfId
  | _ => False

instance (turfId : TurfId) : DecidablePred (Reviewed turfId) := fun e =>
  decidable_of_iff ((match e.writes with
    | [.reviewInsert r] => decide (r.turfId = turfId)
    | _ => false) = true) (by unfold Reviewed; split <;> simp)

/-- What has been written since a session has read its average, the latest first. -/
def since (session : ℕ) (es : List Entry) : List Entry :=
  es.reverse.takeWhile fun e => ¬ (e.session.id = session ∧ Averages e)

/-- If the step writes a rating, no review of the turf was inserted since the session has
read the average. -/
def RatesLatest (t : Sys) (a : Act) : Prop :=
  ∀ cm ∈ service.committed t a, match cm.writes with
    | [.turfRating id _ _] => ∀ e ∈ since cm.session.id t.world.history, ¬ Reviewed id e
    | _ => True

instance (t : Sys) (a : Act) : Decidable (RatesLatest t a) :=
  decidable_of_iff (∀ cm ∈ service.committed t a, (match cm.writes with
    | [.turfRating id _ _] => decide (∀ e ∈ since cm.session.id t.world.history, ¬ Reviewed id e)
    | _ => true) = true) (forall₂_congr fun _ _ => by split <;> simp only [decide_eq_true_eq])

/-! ### Where a call is -/

/-- No review inserted; the review of a turf inserted; its average read; the rating
written, or no review to come; stopped by a failure between. -/
inductive Stage where
  | fresh
  | inserted (turfId : TurfId)
  | averaged (turfId : TurfId) (rating : ℚ)
  | over
  | failed (e : Err)

/-- A review is followed by the average of its turf, and that by the rating. -/
def rating : Automaton Stmt Stmt.Reply Err Stage where
  init := .fresh
  may g
    | .stmt (.query _) => g = .fresh
    | .stmt (.reviewCreate _) => g = .fresh
    | .stmt (.reviewAverage turfId) => g = .inserted turfId
    | .stmt (.turfUpdate id r) => g = .averaged id r
    | _ => False
  answers _ _ := True
  next g
    | .stmt (.query _), _ => g
    | .stmt (.reviewCreate d), .ok _ => .inserted d.turfId
    | .stmt (.reviewCreate _), .error _ => .over
    | .stmt (.reviewAverage turfId), .ok avg => .averaged turfId (avg.getD 0)
    | .stmt (.turfUpdate _ _), .ok _ => .over
    | _, .error e => .failed e
    | _, _ => g

/-- How a call ends: a failure after the review is the outcome of the call. -/
def Stage.Ends (g : Stage) (r : Except Err Review) : Prop :=
  match g with
  | .fresh => True
  | .inserted _ => False
  | .averaged _ _ => False
  | .over => True
  | .failed e => r = .error e

theorem rating_plain : rating.Plain := by
  intro g m hm
  cases m with
  | stmt s => exact ⟨s, rfl⟩
  | _ => exact hm.elim

theorem body_obeys (c : Call) : (service.body c).Obeys rating rating.init Stage.Ends := by
  show (ReviewService.createReview c.dto c.userId).Obeys rating .fresh Stage.Ends
  refine Script.obeys_stmt rfl (fun found _ => ?_) fun _ => trivial
  cases found with
  | none => exact trivial
  | some booking =>
    simp only
    split_ifs
    · exact trivial
    · exact trivial
    refine Script.obeys_stmt rfl (fun existingReview _ => ?_) fun _ => trivial
    cases existingReview with
    | some _ => exact trivial
    | none =>
      refine Script.obeys_stmt rfl (fun review _ => ?_) fun _ => trivial
      refine Script.obeys_bind (Script.obeys_stmt rfl (fun avg _ => ?_) fun e => rfl)
      exact ⟨rfl, fun r _ => by cases r <;> trivial⟩

/-! ### Which ratings are out of date -/

/-- The turf whose rating the call has yet to write. -/
def Stage.turf? : Stage → Option TurfId
  | .inserted turfId => some turfId
  | .averaged turfId _ => some turfId
  | _ => none

/-- The rating of the turf may be out of date because of the call. -/
def Stage.Owes (turfId : TurfId) (g : Stage) : Prop :=
  g.turf? = some turfId ∨ ∃ e, g = .failed e

/-- An average that was read is that of now if no review came in since, and a rating that
is out of date is owed by a call. -/
structure Tracked (g : ℕ → Stage) (w : World) : Prop where
  known : ∀ i turfId r, g i = .averaged turfId r →
    (∀ e ∈ since i w.history, ¬ Reviewed turfId e) → r = mean turfId w.db.reviews
  turf : ∀ i turfId, (g i).turf? = some turfId → (w.db.turf? turfId).isSome
  failed : ∀ i e, g i = .failed e → e = .infrastructure
  rated : ∀ turf ∈ w.db.turfs, turf.rating = mean turf.id w.db.reviews ∨
    ∃ i, (g i).Owes turf.id

theorem since_snoc (session : ℕ) (es : List Entry) (e : Entry) : since session (es ++ [e]) =
    if e.session.id = session ∧ Averages e then [] else e :: since session es := by
  by_cases h : e.session.id = session ∧ Averages e <;> simp [since, List.takeWhile_cons, h]

theorem mean_append {turfId : TurfId} {reviews : List Review} {r : Review}
    (h : r.turfId ≠ turfId) : mean turfId (reviews ++ [r]) = mean turfId reviews := by
  simp [mean, average, ofTurf, List.filter_append, h]

theorem turf?_turfRating (db : Db) (id turfId : TurfId) (r : ℚ) (now : Time) :
    (db.apply (.turfRating id r now)).turf? turfId = if turfId ∈ [id] then
      (db.turf? turfId).map fun t => { t with rating := r, updatedAt := now }
    else db.turf? turfId :=
  Rows.lookup_update fun _ => rfl

variable {g : ℕ → Stage} {w w' : World}

/-- A rating that is owed stays owed when the call that moves hands its debt on. -/
theorem owes_update {i : ℕ} {stage : Stage} {turfId : TurfId}
    (howes : (g i).Owes turfId → stage.Owes turfId) (h : ∃ j, (g j).Owes turfId) :
    ∃ j, (Function.update g i stage j).Owes turfId := by
  obtain ⟨j, hj⟩ := h
  refine ⟨j, ?_⟩
  rw [Function.update_apply]
  split_ifs with hji
  · exact howes (hji ▸ hj)
  · exact hj

theorem Tracked.failed_update (h : Tracked g w) {i : ℕ} {stage : Stage}
    (hfailed : ∀ e, stage = .failed e → e = .infrastructure) (j : ℕ) (e : Err)
    (hj : Function.update g i stage j = .failed e) : e = .infrastructure := by
  rw [Function.update_apply] at hj
  split_ifs at hj
  · exact hfailed e hj
  · exact h.failed j e hj

/-- A call goes on, and the tables stay as they are. -/
theorem Tracked.move (h : Tracked g w) {i : ℕ} {stage : Stage} (hdb : w'.db = w.db)
    (hhistory : w'.history = w.history) (hturf : stage.turf? = none)
    (hfailed : ∀ e, stage = .failed e → e = .infrastructure)
    (howes : ∀ turfId, (g i).Owes turfId → stage.Owes turfId) :
    Tracked (Function.update g i stage) w' := by
  exact {
    known := by
      intro j turfId r hj hsince
      rw [hhistory] at hsince
      rw [hdb]
      rw [Function.update_apply] at hj
      split_ifs at hj
      · subst hj
        cases hturf
      · exact h.known j turfId r hj hsince
    turf := by
      intro j turfId hj
      rw [hdb]
      rw [Function.update_apply] at hj
      split_ifs at hj
      · rw [hturf] at hj
        cases hj
      · exact h.turf j turfId hj
    failed := h.failed_update hfailed
    rated := by
      intro turf hmem
      rw [hdb] at hmem ⊢
      exact (h.rated turf hmem).imp id (owes_update (howes turf.id)) }

/-- A review of a turf. -/
theorem Tracked.review (h : Tracked g w) {i : ℕ} {e : Entry} {r : Review}
    (hfresh : g i = .fresh) (he : e.writes = [.reviewInsert r])
    (hturf : (w.db.turf? r.turfId).isSome) (hdb : w'.db = w.db.apply (.reviewInsert r))
    (hhistory : w'.history = w.history ++ [e]) :
    Tracked (Function.update g i (.inserted r.turfId)) w' := by
  have haverages : ¬ Averages e := by simp [Averages, he]
  have hreviewed : Reviewed r.turfId e := by simp [Reviewed, he]
  exact {
    known := by
      intro j turfId v hj hsince
      rw [Function.update_apply] at hj
      split_ifs at hj
      rw [hhistory, since_snoc, if_neg (fun h => haverages h.2)] at hsince
      have hne : r.turfId ≠ turfId := by
        rintro rfl
        exact hsince e List.mem_cons_self hreviewed
      rw [hdb, Db.apply, mean_append hne]
      exact h.known j turfId v hj fun e' he' => hsince e' (List.mem_cons_of_mem _ he')
    turf := by
      intro j turfId hj
      rw [hdb]
      rw [Function.update_apply] at hj
      split_ifs at hj
      · obtain rfl := Option.some.inj hj
        exact hturf
      · exact h.turf j turfId hj
    failed := h.failed_update nofun
    rated := by
      intro turf hmem
      rw [hdb] at hmem ⊢
      by_cases hne : r.turfId = turf.id
      · exact .inr ⟨i, by rw [Function.update_self, hne]; exact .inl rfl⟩
      rw [Db.apply, mean_append hne]
      refine (h.rated turf hmem).imp id (owes_update fun howes => ?_)
      rw [hfresh] at howes
      rcases howes with howes | ⟨_, howes⟩ <;> cases howes }

/-- The average of a turf is read. -/
theorem Tracked.average (h : Tracked g w) {i : ℕ} {e : Entry} {turfId : TurfId}
    (hinserted : g i = .inserted turfId) (hi : e.session.id = i)
    (he : e.writes = [.averaged turfId]) (hdb : w'.db = w.db)
    (hhistory : w'.history = w.history ++ [e]) :
    Tracked (Function.update g i (.averaged turfId (mean turfId w.db.reviews))) w' := by
  have haverages : Averages e := by simp [Averages, he]
  exact {
    known := by
      intro j turfId' r hj hsince
      rw [hdb]
      rw [hhistory, since_snoc] at hsince
      rw [Function.update_apply] at hj
      split_ifs at hj with hji
      · cases hj
        rfl
      · rw [if_neg (fun h => hji (h.1.symm.trans hi))] at hsince
        exact h.known j turfId' r hj fun e' he' => hsince e' (List.mem_cons_of_mem _ he')
    turf := by
      intro j turfId' hj
      rw [hdb]
      rw [Function.update_apply] at hj
      split_ifs at hj
      · exact h.turf i turfId' (by rwa [hinserted])
      · exact h.turf j turfId' hj
    failed := h.failed_update nofun
    rated := by
      intro turf hmem
      rw [hdb] at hmem ⊢
      refine (h.rated turf hmem).imp id (owes_update fun howes => ?_)
      rw [hinserted] at howes
      rcases howes with howes | ⟨_, howes⟩
      · exact .inl howes
      · cases howes }

/-- The rating is written that was read after the last review. -/
theorem Tracked.rate (h : Tracked g w) {i : ℕ} {e : Entry} {turfId : TurfId} {r : ℚ}
    {now : Time} (haveraged : g i = .averaged turfId r)
    (he : e.writes = [.turfRating turfId r now])
    (hlatest : ∀ e ∈ since i w.history, ¬ Reviewed turfId e)
    (hdb : w'.db = w.db.apply (.turfRating turfId r now))
    (hhistory : w'.history = w.history ++ [e]) : Tracked (Function.update g i .over) w' := by
  have haverages : ¬ Averages e := by simp [Averages, he]
  have hr := h.known i turfId r haveraged hlatest
  exact {
    known := by
      intro j turfId' v hj hsince
      rw [Function.update_apply] at hj
      split_ifs at hj
      rw [hhistory, since_snoc, if_neg (fun h => haverages h.2)] at hsince
      rw [hdb]
      exact h.known j turfId' v hj fun e' he' => hsince e' (List.mem_cons_of_mem _ he')
    turf := by
      intro j turfId' hj
      rw [Function.update_apply] at hj
      split_ifs at hj
      · cases hj
      rw [hdb, turf?_turfRating]
      split_ifs
      · rw [Option.isSome_map]
        exact h.turf j turfId' hj
      · exact h.turf j turfId' hj
    failed := h.failed_update nofun
    rated := by
      intro turf hmem
      rw [hdb] at hmem ⊢
      obtain ⟨turf', hmem', rfl⟩ := Rows.mem_update.mp hmem
      by_cases hid : turf'.id ∈ [turfId]
      · rw [if_pos hid]
        rw [List.mem_singleton.mp hid]
        exact .inl hr
      · rw [if_neg hid]
        refine (h.rated turf' hmem').imp id (owes_update fun howes => ?_)
        rw [haveraged] at howes
        rcases howes with howes | ⟨_, howes⟩
        · exact absurd (List.mem_singleton.mpr (Option.some.inj howes).symm) hid
        · cases howes }

/-- A review is inserted, of a turf that exists, or nothing happens. -/
theorem reviewCreate_act (d : NewReview) (w : World) :
    (∃ e, Stmt.act (.reviewCreate d) w w = ⟨.error e, [], [], w⟩) ∨
    (w.db.turf? d.turfId).isSome ∧ Stmt.act (.reviewCreate d) w w =
      ⟨.ok (d.row w.uuid w.now), [], [.reviewInsert (d.row w.uuid w.now)],
        { w with uuid := w.uuid + 1 }⟩ := by
  simp only [Stmt.act]
  split_ifs with hmissing
  · exact .inl ⟨_, rfl⟩
  · exact .inl ⟨_, rfl⟩
  · have hturf : (w.db.turf? d.turfId).isSome :=
      Option.isSome_iff_ne_none.mpr fun hnone => hmissing (.inr (by rw [hnone]; rfl))
    exact .inr ⟨hturf, rfl⟩

/-- A command of a call that goes through. -/
theorem Tracked.runs {i : ℕ} {t : Thread Stmt Stmt.Reply Err Empty Write Call Review} {m : Cmd Stmt}
    (h : Tracked g w) (hi : t.session.id = i) (hidle : t.loc.tx = none) (hmay : rating.may (g i) m)
    (hlatest : ∀ ws ∈ (engine.exec t.loc w m).done, match ws with
      | [.turfRating id _ _] => ∀ e ∈ since t.session.id w.history, ¬ Reviewed id e
      | _ => True) :
    Tracked (Function.update g i (rating.next (g i) m (engine.exec t.loc w m).reply))
      (engine.after t.session (engine.exec t.loc w m)) := by
  obtain ⟨s, rfl⟩ := rating_plain _ _ hmay
  rw [Engine.after_auto hidle]
  rw [Engine.exec_auto hidle] at hlatest ⊢
  cases s with
  | query q =>
    have hfresh : g i = .fresh := hmay
    have hact : (engine.act (.query q) w w).writes = [] ∧ (engine.act (.query q) w w).world = w := by
      cases q <;> exact ⟨rfl, rfl⟩
    rw [if_pos hact.1, hact.2]
    exact h.move rfl rfl (by rw [hfresh]; rfl) (fun e he => h.failed i e he) fun _ h => h
  | reviewCreate d =>
    have hfresh : g i = .fresh := hmay
    -- nothing is inserted
    have hover : ∀ w' : World, w'.db = w.db → w'.history = w.history →
        Tracked (Function.update g i .over) w' := fun w' hdb hhistory => by
      refine h.move hdb hhistory rfl (fun e he => by cases he) fun turfId howes => ?_
      rw [hfresh] at howes
      rcases howes with howes | ⟨_, howes⟩ <;> cases howes
    rcases reviewCreate_act d w with ⟨e, he⟩ | ⟨hturf, he⟩
    · rw [show engine.act (.reviewCreate d) w w = _ from he]
      exact hover w rfl rfl
    · rw [show engine.act (.reviewCreate d) w w = _ from he]
      exact h.review (r := d.row w.uuid w.now) (e := ⟨t.session, _⟩) hfresh rfl hturf rfl rfl
  | reviewAverage turfId =>
    exact h.average (e := ⟨t.session, [.averaged turfId]⟩) hmay hi rfl rfl rfl
  | turfUpdate id r =>
    have haveraged : g i = .averaged id r := hmay
    have hturf := h.turf i id (by rw [haveraged]; rfl)
    have hsome : ¬ (w.db.turf? id).isNone := by
      rw [Option.isNone_iff_eq_none]
      exact Option.isSome_iff_ne_none.mp hturf
    simp only [engine, Stmt.act, if_neg hsome] at hlatest ⊢
    have hlatest := hlatest [.turfRating id r w.now] rfl
    simp only [hi] at hlatest
    exact h.rate (e := ⟨t.session, _⟩) haveraged rfl hlatest rfl rfl

/-- A command that fails. -/
theorem Tracked.fails {i : ℕ} {m : Cmd Stmt} (h : Tracked g w) (hmay : rating.may (g i) m) :
    Tracked (Function.update g i (rating.next (g i) m (.error .infrastructure))) w := by
  obtain ⟨s, rfl⟩ := rating_plain _ _ hmay
  cases s with
  | query q =>
    have hfresh : g i = .fresh := hmay
    exact h.move rfl rfl (by rw [hfresh]; rfl) (fun e he => h.failed i e he) fun _ h => h
  | reviewCreate d =>
    have hfresh : g i = .fresh := hmay
    refine h.move rfl rfl rfl (fun e he => by cases he) fun turfId howes => ?_
    rw [hfresh] at howes
    rcases howes with howes | ⟨_, howes⟩ <;> cases howes
  | reviewAverage turfId =>
    exact h.move rfl rfl rfl (fun e he => (Stage.failed.inj he).symm) fun _ _ => .inr ⟨_, rfl⟩
  | turfUpdate id r =>
    exact h.move rfl rfl rfl (fun e he => (Stage.failed.inj he).symm) fun _ _ => .inr ⟨_, rfl⟩

theorem Tracked.same (h : Tracked g w) (hdb : w'.db = w.db) (hhistory : w'.history = w.history) :
    Tracked g w' where
  known := by rw [hdb, hhistory]; exact h.known
  turf := by rw [hdb]; exact h.turf
  failed := h.failed
  rated := by rw [hdb]; exact h.rated

theorem Tracked.step {s : Sys} {a : Act} (hg : Obeying rating Stage.Ends g s)
    (h : Tracked g s.world) (hlatest : RatesLatest s a)
    (hstep : Stepped service rating Stage.Ends g s a) :
    ∃ g', Obeying rating Stage.Ends g' (service.step s a) ∧ Tracked g' (service.step s a).world := by
  cases hstep with
  | rests _ world _ obeying => exact ⟨g, obeying, by rw [world]; exact h⟩
  | evolves v _ step obeying =>
    refine ⟨g, obeying, ?_⟩
    rw [step]
    exact h.same rfl rfl
  | runs i t m k _ thread _ may _ committed step obeying =>
    refine ⟨_, obeying, ?_⟩
    rw [step]
    refine h.runs (hg.ids i t thread) (hg.plain rating_plain t (List.mem_of_getElem? thread)) may ?_
    intro ws hws
    exact hlatest ⟨t.session, ws, (service.exec t.loc s.world m).base⟩
      (by rw [committed]; exact Option.mem_map.mpr ⟨ws, hws, rfl⟩)
  | fails i t m k _ _ _ may _ step obeying =>
    refine ⟨_, obeying, ?_⟩
    rw [step]
    exact h.fails may

/-- Once every call is over, no rating is owed. -/
theorem Tracked.settled {s : Sys} (hg : Obeying rating Stage.Ends g s) (h : Tracked g s.world)
    (hquiet : Quiet s) : s.world.db.Rated := by
  intro turf hmem
  rcases h.rated turf hmem with hrated | ⟨i, howes⟩
  · exact hrated
  exfalso
  cases ht : s.threads[i]? with
  | none =>
    have hfresh := hg.later i (List.getElem?_eq_none_iff.mp ht)
    rw [hfresh] at howes
    rcases howes with howes | ⟨_, howes⟩ <;> cases howes
  | some t =>
    obtain ⟨r, hr, hfailed⟩ := hquiet t (List.mem_of_getElem? ht)
    have hends : (g i).Ends r := by
      have hobeys := hg.obeys i t ht
      cases hp : t.prog with
      | ret a =>
        rw [hp] at hr hobeys
        obtain rfl := Option.some.inj hr
        exact hobeys
      | throw e =>
        rw [hp] at hr hobeys
        obtain rfl := Option.some.inj hr
        exact hobeys
      | call m k =>
        rw [hp] at hr
        cases hr
    rcases howes with howes | ⟨e, howes⟩
    · cases hstage : g i with
      | inserted _ => rw [hstage] at hends; exact hends
      | averaged _ _ => rw [hstage] at hends; exact hends
      | _ => rw [hstage] at howes; cases howes
    · rw [howes] at hends
      obtain rfl : r = .error e := hends
      exact hfailed (by rw [h.failed i e howes])

/-- From a state in which the ratings are right, they are right whenever no call is in
progress, if no rating is written that was read before a review of the turf came in. -/
theorem rated_always {s : Sys} (hthreads : s.threads = []) (hrated : s.world.db.Rated)
    {as : List Act} (hlatest : service.Each RatesLatest s as) :
    service.Always (fun s => Quiet s → s.world.db.Rated) s as := by
  have hinit : Tracked (fun _ => rating.init) s.world := {
    known := fun _ _ _ h => nomatch h
    turf := fun _ _ h => nomatch h
    failed := fun _ _ h => nomatch h
    rated := fun turf hmem => .inl (hrated turf hmem) }
  have halways := Service.always_obeying (I := fun g s => Tracked g s.world)
    ⟨fun _ _ _ => trivial, fun _ => trivial⟩ body_obeys (fun g s a hg h hm hstep => h.step hg hm hstep)
    hthreads hinit hlatest
  exact halways.mono fun s ⟨g, hg, h⟩ hquiet => h.settled hg hquiet

namespace Pitch

def turf : Turf where
  id := 1
  name := "Pitch"
  description := "Seven a side"
  address := "Road"
  city := "Dhaka"
  sportType := .FOOTBALL
  pricePerHour := 1000
  openTime := ⟨18, 0⟩
  closeTime := ⟨20, 0⟩
  rating := 0
  isActive := true
  images := []
  createdAt := 0
  updatedAt := 0

/-- The booking of a user that has been played. -/
def played (id : BookingId) (userId : UserId) : Booking where
  id := id
  userId := userId
  turfId := 1
  slotId := id
  totalAmount := 1000
  status := .COMPLETED
  notes := none
  createdAt := 0

def sys : Sys := ⟨⟨⟨[played 1 7, played 2 8], [turf], []⟩, 0, 100, []⟩, []⟩

/-- User 7 gives five points and user 8 one. -/
def seven : Call := ⟨⟨1, 5, none⟩, 7⟩

def eight : Call := ⟨⟨2, 1, none⟩, 8⟩

/-- The first call reads its average, and writes it after the second call is over. -/
def overtaken : List Act :=
  .spawn seven :: List.replicate 4 (.run 0) ++ .spawn eight :: List.replicate 5 (.run 1) ++ [.run 0]

end Pitch

/-- The second review comes in between two statements of the first call. -/
theorem rated_pitch : service.Always (fun s => Quiet s → s.world.db.Rated) Pitch.sys
    (.spawn Pitch.seven :: List.replicate 3 (.run 0) ++ .spawn Pitch.eight ::
      List.replicate 4 (.run 1) ++ [.run 0, .run 0, .run 1]) :=
  rated_always rfl (by decide +kernel) (by decide +kernel)

theorem rated_fails : Pitch.sys.threads = [] ∧ Pitch.sys.world.db.Rated ∧
    ¬ service.Always (fun s => Quiet s → s.world.db.Rated) Pitch.sys Pitch.overtaken :=
  ⟨rfl, by decide +kernel, by decide +kernel⟩

end TurfSync.Reviews
