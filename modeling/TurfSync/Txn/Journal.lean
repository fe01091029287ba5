import TurfSync.Txn.Runs

/-! Services without transactions that keep a journal: every statement that writes
adds an entry with what it found. The entries of one session tell how far its program
has come, and nobody else adds to them. So a program can be read forward from its own
entries, every entry can be required to follow from those before it, and in every run
the whole journal does. -/

namespace TurfSync.Txn.Journal

variable {S : Type} {R : S → Type} {ε K W D C V α β B X : Type}

/-- What a session wrote, and on what. -/
structure Entry (C W B : Type) where
  session : Session C
  writes : List W
  before : B

/-- The entries of one session. -/
def own (n : ℕ) (es : List (Entry C W B)) : List (Entry C W B) := es.filter (·.session.id = n)

@[simp] theorem own_nil (n : ℕ) : own n ([] : List (Entry C W B)) = [] := rfl

theorem own_append (n : ℕ) (es es' : List (Entry C W B)) :
    own n (es ++ es') = own n es ++ own n es' := List.filter_append _ _

theorem own_self (e : Entry C W B) (es : List (Entry C W B)) :
    own e.session.id (es ++ [e]) = own e.session.id es ++ [e] := by
  simp [own]

theorem own_other {n : ℕ} {es' : List (Entry C W B)} (h : ∀ e ∈ es', e.session.id ≠ n)
    (es : List (Entry C W B)) : own n (es ++ es') = own n es := by
  have hnil : own n es' = [] := List.filter_eq_nil_iff.mpr (by simpa using h)
  rw [own_append, hnil, List.append_nil]

theorem mem_own {n : ℕ} {es : List (Entry C W B)} {e : Entry C W B} :
    e ∈ own n es ↔ e ∈ es ∧ e.session.id = n := by
  simp [own]

theorem own_split {es past later : List (Entry C W B)} {e : Entry C W B}
    (he : es = past ++ e :: later) :
    own e.session.id es = own e.session.id past ++ e :: own e.session.id later := by
  rw [he, own_append]
  simp [own]

/-- Of two entries one comes first. -/
theorem ordered {es : List (Entry C W B)} {e e' : Entry C W B} (he : e ∈ es) (he' : e' ∈ es)
    (hne : e ≠ e') : (∃ past later, es = past ++ e :: later ∧ e' ∈ later) ∨
      ∃ past later, es = past ++ e' :: later ∧ e ∈ later := by
  obtain ⟨past, later, rfl⟩ := List.append_of_mem he
  rcases List.mem_append.mp he' with hp | hl
  · obtain ⟨as, bs, rfl⟩ := List.append_of_mem hp
    exact .inr ⟨as, bs ++ e :: later, by simp, by simp⟩
  · rcases List.mem_cons.mp hl with rfl | hl
    · exact absurd rfl hne
    · exact .inl ⟨past, later, rfl, hl⟩

/-! ### Whole journals -/

/-- Every entry follows from those before it. -/
inductive Follows (post : List (Entry C W B) → Entry C W B → Prop) :
    List (Entry C W B) → Prop
  | nil : Follows post []
  | snoc {past e} (h : Follows post past) (he : post past e) : Follows post (past ++ [e])

theorem Follows.post {post : List (Entry C W B) → Entry C W B → Prop} {es : List (Entry C W B)}
    (h : Follows post es) {past later : List (Entry C W B)} {e : Entry C W B}
    (he : es = past ++ e :: later) : post past e := by
  induction h generalizing past later e with
  | nil => simp at he
  | @snoc es e' _ hpost ih =>
    rcases List.eq_nil_or_concat later with rfl | ⟨later, x, rfl⟩
    · obtain ⟨rfl, hlast⟩ := List.append_inj' he rfl
      cases hlast
      exact hpost
    · rw [List.concat_eq_append, ← List.cons_append, ← List.append_assoc] at he
      exact ih (List.append_inj' he rfl).1

/-- Each entry was written on what those before it left. -/
def Chained (store : B → X) (apply : X → W → X) : X → List (Entry C W B) → X → Prop
  | x, [], x' => x = x'
  | x, e :: es, x' => store e.before = x ∧ Chained store apply (e.writes.foldl apply x) es x'

variable {store : B → X} {apply : X → W → X} {x x' : X}

theorem chained_append {es es' : List (Entry C W B)} : Chained store apply x (es ++ es') x' ↔
    ∃ y, Chained store apply x es y ∧ Chained store apply y es' x' := by
  induction es generalizing x with
  | nil => simp [Chained]
  | cons e es ih => simp [Chained, ih, and_assoc]

theorem Chained.snoc {es : List (Entry C W B)} {e : Entry C W B} (h : Chained store apply x es x')
    (he : store e.before = x') :
    Chained store apply x (es ++ [e]) (e.writes.foldl apply x') :=
  chained_append.mpr ⟨x', h, he, rfl⟩

/-- What holds at the start and is kept by the writes of every entry is what every later
entry finds. -/
theorem Chained.keeps {I : X → Prop} {es : List (Entry C W B)} (h : Chained store apply x es x')
    (hx : I x) (hstep : ∀ e ∈ es, I (store e.before) → I (e.writes.foldl apply (store e.before))) :
    (∀ e ∈ es, I (store e.before)) ∧ I x' := by
  induction es generalizing x with
  | nil =>
    obtain rfl := h
    exact ⟨by simp, hx⟩
  | cons e es ih =>
    obtain ⟨rfl, h⟩ := h
    obtain ⟨hes, hlast⟩ := ih h (hstep e (by simp) hx) fun e' he' =>
      hstep e' (List.mem_cons_of_mem _ he')
    refine ⟨fun e' he' => ?_, hlast⟩
    rcases List.mem_cons.mp he' with rfl | he'
    · exact hx
    · exact hes e' he'

/-! ### The rules -/

/-- A journal kept by an engine, together with a preorder on worlds that no step goes
against, such as time. -/
structure Kept (E : Engine S R ε K W D C) (journal : D → List (Entry C W B)) (snap : D → B)
    (le : D → D → Prop) : Prop where
  refl : ∀ w, le w w
  trans : ∀ {w w' w''}, le w w' → le w' w'' → le w w''
  act : ∀ s v w, journal (E.act s v w).world = journal w ∧ le w (E.act s v w).world
  commit : ∀ c ws w, journal (E.commit c ws w) = journal w ++ [⟨c, ws, snap w⟩] ∧
    le w (E.commit c ws w)

/-- Every entry meets `post`, and nobody writes another session's entries. -/
def rules (journal : D → List (Entry C W B)) (snap : D → B) (le : D → D → Prop) (inv : D → Prop)
    (post : List (Entry C W B) → Entry C W B → Prop) : Rules S K W D C where
  inv w := inv w ∧ Follows post (journal w)
  rely n _ w w' := (∃ new, journal w' = journal w ++ new ∧ ∀ e ∈ new, e.session.id ≠ n) ∧ le w w'
  start n w := ∀ e ∈ journal w, e.session.id ≠ n
  allow _ _ _ _ _ := True
  post c _ ws w := post (journal w) ⟨c, ws, snap w⟩

variable {E : Engine S R ε K W D C} {journal : D → List (Entry C W B)} {snap : D → B}
  {le : D → D → Prop} {inv : D → Prop} {post : List (Entry C W B) → Entry C W B → Prop}

theorem rules_lawful (h : Kept E journal snap le)
    (hact : ∀ s v w, inv w → inv (E.act s v w).world)
    (hcommit : ∀ c ws w, inv w → Follows post (journal w) → post (journal w) ⟨c, ws, snap w⟩ →
      inv (E.commit c ws w)) :
    (rules (S := S) (K := K) journal snap le inv post).Lawful E where
  refl _ _ w := ⟨⟨[], by simp⟩, h.refl w⟩
  trans := by
    rintro n ks w w' w'' ⟨⟨new, he, hnew⟩, hle⟩ ⟨⟨new', he', hnew'⟩, hle'⟩
    refine ⟨⟨new ++ new', by rw [he', he, List.append_assoc], fun e he => ?_⟩, h.trans hle hle'⟩
    rcases List.mem_append.mp he with he | he
    · exact hnew e he
    · exact hnew' e he
  start := by
    rintro n w w' hs ⟨⟨new, he, hnew⟩, -⟩ e hmem
    rw [he] at hmem
    rcases List.mem_append.mp hmem with hmem | hmem
    · exact hs e hmem
    · exact hnew e hmem
  act_inv s v w hw := ⟨hact s v w hw.1, by rw [(h.act s v w).1]; exact hw.2⟩
  act_rely s v w _ _ _ := ⟨⟨[], by simp [(h.act s v w).1]⟩, (h.act s v w).2⟩
  commit_inv := by
    intro c held ws w hw hp
    refine ⟨hcommit c ws w hw.1 hw.2 hp, ?_⟩
    rw [(h.commit c ws w).1]
    exact hw.2.snoc hp
  commit_rely := by
    intro c held ws w n ks _ _ hn _
    refine ⟨⟨_, (h.commit c ws w).1, fun e he => ?_⟩, (h.commit c ws w).2⟩
    rw [List.mem_singleton.mp he]
    exact Ne.symm hn

/-! ### Programs -/

/-- A program that can start whenever the session's entries are `es`. -/
def Holds (E : Engine S R ε K W D C) (journal : D → List (Entry C W B)) (P : Rules S K W D C)
    (c : Session C) (es : List (Entry C W B)) (p : Script S R ε α) (Q : Post ε K W D α) : Prop :=
  ∀ w, P.inv w → own c.id (journal w) = es → wp E P c p Q .idle w

variable {c : Session C} {es : List (Entry C W B)} {Q : Post ε K W D α}

theorem own_rely {w w' : D} {n : ℕ} {ks : List K}
    (h : (rules (S := S) journal snap le inv post).rely n ks w w') :
    own n (journal w') = own n (journal w) := by
  obtain ⟨⟨new, he, hnew⟩, -⟩ := h
  rw [he, own_other hnew]

theorem holds_ret {a : α}
    (h : ∀ w, inv w → own c.id (journal w) = es → Q (.ok a) .idle w) :
    Holds E journal (rules journal snap le inv post) c es (.ret a) Q := by
  intro w _ hes w' hr hi
  exact h w' hi.1 ((own_rely hr).trans hes)

theorem holds_throw {e : ε}
    (h : ∀ w, inv w → own c.id (journal w) = es → Q (.error e) .idle w) :
    Holds E journal (rules journal snap le inv post) c es (.throw e) Q := by
  intro w _ hes w' hr hi
  exact h w' hi.1 ((own_rely hr).trans hes)

/-- One statement: it adds an entry of the session, or none. -/
theorem holds_stmt (hJ : Kept E journal snap le)
    (hP : (rules (S := S) (K := K) journal snap le inv post).Lawful E) {s : S}
    {f : R s → Script S R ε α}
    (h : ∀ w, inv w → own c.id (journal w) = es →
      ((E.act s w w).writes = [] →
        Holds E journal (rules journal snap le inv post) c es (resume (E.act s w w).reply f) Q) ∧
      ((E.act s w w).writes ≠ [] →
        post (journal w) ⟨c, (E.act s w w).writes, snap (E.act s w w).world⟩ ∧
        Holds E journal (rules journal snap le inv post) c
          (es ++ [⟨c, (E.act s w w).writes, snap (E.act s w w).world⟩])
          (resume (E.act s w w).reply f) Q))
    (hf : Holds E journal (rules journal snap le inv post) c es (.throw E.fault) Q) :
    Holds E journal (rules journal snap le inv post) c es ((Script.perform s).bind f) Q := by
  intro w _ hes
  refine wp_stmt_auto (fun w' hr hi _ => ?_) fun w' hr hi _ => hf w' hi ((own_rely hr).trans hes)
  have hes' := (own_rely hr).trans hes
  obtain ⟨hread, hwrite⟩ := h w' hi.1 hes'
  have hinv := hP.act_inv s w' hi
  have hjournal := (hJ.act s w' w').1
  refine ⟨fun hw => hread hw _ hinv (by rw [hjournal, hes']), fun hw => ?_⟩
  obtain ⟨hp, hrest⟩ := hwrite hw
  have hpost : post (journal (E.act s w' w').world)
      ⟨c, (E.act s w' w').writes, snap (E.act s w' w').world⟩ := by rw [hjournal]; exact hp
  refine ⟨hpost, hrest _ (@Rules.Lawful.commit_inv _ _ _ _ _ _ _ _ _ hP c
    (E.act s w' w').locks _ _ hinv hpost) ?_⟩
  rw [(hJ.commit c _ _).1, hjournal]
  exact (own_self ⟨c, _, _⟩ _).trans (by rw [hes'])

/-! ### Runs -/

section

variable {srv : Service S R ε K W D C V α} {Q : Session C → Post ε K W D α}
  {s : System S R ε K W D C α}

/-- A journaled service whose calls can all start. -/
structure Lawful (srv : Service S R ε K W D C V α) (journal : D → List (Entry C W B))
    (snap : D → B) (le : D → D → Prop) (inv : D → Prop)
    (post : List (Entry C W B) → Entry C W B → Prop) (Q : Session C → Post ε K W D α) : Prop where
  kept : Kept srv.toEngine journal snap le
  act : ∀ s v w, inv w → inv (srv.act s v w).world
  commit : ∀ c ws w, inv w → Follows post (journal w) → post (journal w) ⟨c, ws, snap w⟩ →
    inv (srv.commit c ws w)
  evolve : ∀ v w, inv w → inv (srv.evolve v w)
  moves : ∀ v w, journal (srv.evolve v w) = journal w ∧ le w (srv.evolve v w)
  body : ∀ c, Holds srv.toEngine journal (rules journal snap le inv post) c []
    (srv.body c.call) (Q c)

theorem Lawful.starts (h : Lawful srv journal snap le inv post Q) :
    Starts srv (rules journal snap le inv post) Q where
  evolve_inv v w hw := ⟨h.evolve v w hw.1, by rw [(h.moves v w).1]; exact hw.2⟩
  evolve_rely v w _ _ _ := ⟨⟨[], by simp [(h.moves v w).1]⟩, (h.moves v w).2⟩
  body n c w hw hs _ := by
    have hown : own n (journal w) = [] := List.filter_eq_nil_iff.mpr fun e he => by
      simpa using hs e he
    exact h.body ⟨n, c⟩ w hw hown

theorem Lawful.rules (h : Lawful srv journal snap le inv post Q) :
    (rules (S := S) (K := K) journal snap le inv post).Lawful srv.toEngine :=
  rules_lawful h.kept h.act h.commit

/-- A service that keeps to its journal, in one of its states. -/
abbrev Keeps (srv : Service S R ε K W D C V α) (journal : D → List (Entry C W B)) (snap : D → B)
    (le : D → D → Prop) (inv : D → Prop) (post : List (Entry C W B) → Entry C W B → Prop)
    (Q : Session C → Post ε K W D α) (s : System S R ε K W D C α) : Prop :=
  Sound srv (Journal.rules journal snap le inv post) Q s

variable [DecidableEq K]

/-- Where nothing has been called and nothing written, every run keeps to the journal. -/
theorem Lawful.always (h : Lawful srv journal snap le inv post Q) (hthreads : s.threads = [])
    (hjournal : journal s.world = []) (hinv : inv s.world) {as : List (Action C V)} :
    srv.Always (Keeps srv journal snap le inv post Q) s as := by
  have hsound : Keeps srv journal snap le inv post Q s := {
    inv := ⟨hinv, by rw [hjournal]; exact .nil⟩
    starts := fun n _ e he => by simp [hjournal] at he
    ids := fun i t ht => by simp [hthreads] at ht
    excl := fun i t ht => by simp [hthreads] at ht
    wps := fun i t ht => by simp [hthreads] at ht }
  exact Service.always_sound h.rules h.starts hsound
    (Service.each_of_forall permits_any s as)

theorem Lawful.step_le (h : Lawful srv journal snap le inv post Q) (s : System S R ε K W D C α)
    (a : Action C V) : le s.world (srv.step s a).world := by
  cases a with
  | spawn c =>
    simp only [Service.step]
    split_ifs <;> exact h.kept.refl _
  | run i =>
    rcases srv.run_eq s i with ⟨hs, -⟩ | ⟨s', o, hadv, hs, -⟩
    · rw [hs]
      exact h.kept.refl _
    · obtain ⟨t, m, k, -, -, -, rfl, -⟩ := srv.advance_eq hadv
      rw [hs]
      have hbase : le s.world (srv.exec t.loc s.world m).base := by
        cases m with
        | stmt st =>
          exact Engine.exec_base (P := le s.world) (fun view => (h.kept.act st _ _).2) t.loc
        | _ => exact h.kept.refl _
      show le s.world (srv.after t.session (srv.exec t.loc s.world m))
      unfold Engine.after
      split
      · exact h.kept.trans hbase (h.kept.commit _ _ _).2
      · exact hbase
  | fault i =>
    simp only [Service.step, Service.interrupt]
    split
    · exact h.kept.refl _
    · split <;> exact h.kept.refl _
  | env v => exact (h.moves v s.world).2

/-- What a step does to the journal: nothing, or one entry of a session that is under
way. `store` is what only entries change. -/
theorem Lawful.step_cases (h : Lawful srv journal snap le inv post Q)
    (hs : Keeps srv journal snap le inv post Q s) (store : D → X)
    (hact : ∀ st v w, store (srv.act st v w).world = store w)
    (hmove : ∀ v w, store (srv.evolve v w) = store w) (a : Action C V) :
    (srv.committed s a = none ∧ journal (srv.step s a).world = journal s.world ∧
      store (srv.step s a).world = store s.world) ∨
    ∃ cm, srv.committed s a = some cm ∧ inv cm.base ∧ journal cm.base = journal s.world ∧
      store cm.base = store s.world ∧ le s.world cm.base ∧
      post (journal s.world) ⟨cm.session, cm.writes, snap cm.base⟩ ∧
      (srv.step s a).world = srv.commit cm.session cm.writes cm.base ∧
      ∃ t, s.threads[cm.session.id]? = some t ∧ t.session = cm.session ∧
        t.prog.result? = none := by
  have hframe := srv.step_frame (fun w => (journal w, store w))
    (fun st v w => Prod.ext (h.kept.act st v w).1 (hact st v w))
    (fun v w => Prod.ext (h.moves v w).1 (hmove v w)) s a
  rcases hframe with ⟨hc, heq⟩ | ⟨cm, hc, heq, hw⟩
  · exact .inl ⟨hc, congrArg Prod.fst heq, congrArg Prod.snd heq⟩
  · obtain ⟨hinv, hrely, ⟨held, hpost⟩, -⟩ := hs.commit_post h.rules (permits_any s a) hc
    have hjournal : journal cm.base = journal s.world := congrArg Prod.fst heq
    refine .inr ⟨cm, hc, hinv.1, hjournal, congrArg Prod.snd heq, (hrely 0 []).2, ?_, hw, ?_⟩
    · rw [← hjournal]
      exact hpost
    · exact hs.running hc

end

end TurfSync.Txn.Journal
