import Mathlib.Data.List.Perm.Basic
import Mathlib.Logic.Hydra
import TurfSync.Txn.Footprint
import TurfSync.Txn.Soundness

/-! Waiting for row locks. A discipline says what the locks of a session are and which
lock it may ask for next. If each program keeps to the discipline, and a session that
waits holds nothing that ranks as high as what it waits for does with its holder, then
some call can always go on; and since programs are finite, all calls end, whoever is
served first. -/

namespace TurfSync.Txn

variable {S : Type} {R : S → Type} {ε K W D C V α β : Type}

/-- `inv` is known of the world, and `stays` of what becomes of it. A session that holds
some locks meets `holds`, and asks for another lock as `asks` has it. -/
structure Discipline (K D C : Type) where
  inv : D → Prop
  stays : D → D → Prop
  holds : Session C → List K → D → Prop
  asks : Session C → List K → D → K → Prop

/-- What is known stays known, and a session that holds nothing may ask for anything. -/
structure Discipline.Lawful (P : Discipline K D C) (E : Engine S R ε K W D C) : Prop where
  refl : ∀ w, P.stays w w
  trans : ∀ {w w' w''}, P.stays w w' → P.stays w' w'' → P.stays w w''
  act : ∀ s v w, P.stays w (E.act s v w).world
  commit : ∀ c ws w, P.stays w (E.commit c ws w)
  holds : ∀ {c ks w w'}, P.holds c ks w → P.stays w w' → P.holds c ks w'
  none : ∀ c w, P.holds c [] w
  first : ∀ c w key, P.asks c [] w key

namespace Script

variable (E : Engine S R ε K W D C) (P : Discipline K D C) (c : Session C)

/-- The program keeps to the discipline, whatever happens between its commands, and ends
in `Q`. -/
def Asks : Script S R ε α → Post ε K W D α → Local K W → D → Prop
  | .ret a, Q, l, w => ∀ w', P.stays w w' → P.inv w' → Q (.ok a) l w'
  | .throw e, Q, l, w => ∀ w', P.stays w w' → P.inv w' → Q (.error e) l w'
  | .call m k, Q, l, w => ∀ w', P.stays w w' → P.inv w' →
    P.holds c l.held w' ∧ (∀ key ∈ (E.exec l w' m).needs, P.asks c l.held w' key) ∧
      Asks (k (E.exec l w' m).reply) Q (E.exec l w' m).loc (E.after c (E.exec l w' m)) ∧
      Asks (k (.error E.fault)) Q (Engine.failed l m) w'

/-- The program ends outside any transaction. -/
abbrev Idles : Post ε K W D α := fun _ l _ => l = .idle

/-- A part of a transaction: `J` on return, and locks that it may hold on a throw. -/
abbrev Goes (J : α → Local K W → D → Prop) : Post ε K W D α :=
  Keeps J fun _ l w => P.holds c l.held w

/-- The body of a transaction ends with locks that it may hold. -/
abbrev Holds : Post ε K W D α := Goes P c fun _ l w => P.holds c l.held w

variable {E P c} {p : Script S R ε α} {Q Q' : Post ε K W D α} {T : Post ε K W D β}
  {l : Local K W} {w w' : D}

theorem asks_stays (hP : P.Lawful E) (h : Asks E P c p Q l w) (hw : P.stays w w') :
    Asks E P c p Q l w' := by
  cases p with
  | ret a => exact fun w'' hw' => h w'' (hP.trans hw hw')
  | throw e => exact fun w'' hw' => h w'' (hP.trans hw hw')
  | call m k => exact fun w'' hw' => h w'' (hP.trans hw hw')

theorem asks_mono (h : Asks E P c p Q l w) (hQ : ∀ r l w, P.inv w → Q r l w → Q' r l w) :
    Asks E P c p Q' l w := by
  induction p generalizing l w with
  | ret a => exact fun w' hw hi => hQ _ _ _ hi (h w' hw hi)
  | throw e => exact fun w' hw hi => hQ _ _ _ hi (h w' hw hi)
  | call m k ih =>
    intro w' hw hi
    obtain ⟨hholds, hasks, hok, herr⟩ := h w' hw hi
    exact ⟨hholds, hasks, ih _ hok, ih _ herr⟩

/-- The invariant holds at the next command. -/
theorem asks_of_inv (hP : P.Lawful E)
    (h : ∀ w', P.stays w w' → P.inv w' → Asks E P c p Q l w') : Asks E P c p Q l w := by
  cases p with
  | ret a => exact fun w' hw hi => h w' hw hi w' (hP.refl w') hi
  | throw e => exact fun w' hw hi => h w' hw hi w' (hP.refl w') hi
  | call m k => exact fun w' hw hi => h w' hw hi w' (hP.refl w') hi

theorem asks_bind (hP : P.Lawful E) {f : α → Script S R ε β}
    (h : Asks E P c p (fun r l w => match r with
      | .ok a => Asks E P c (f a) T l w
      | .error e => T (.error e) l w) l w) : Asks E P c (p.bind f) T l w := by
  induction p generalizing l w with
  | ret a => exact asks_of_inv hP h
  | throw e => exact h
  | call m k ih =>
    intro w' hw hi
    obtain ⟨hholds, hasks, hok, herr⟩ := h w' hw hi
    exact ⟨hholds, hasks, ih _ hok, ih _ herr⟩

theorem asks_tryCatch (hP : P.Lawful E) {f : ε → Script S R ε α}
    (h : Asks E P c p (fun r l w => match r with
      | .ok a => Q (.ok a) l w
      | .error e => Asks E P c (f e) Q l w) l w) : Asks E P c (p.tryCatch f) Q l w := by
  induction p generalizing l w with
  | ret a => exact h
  | throw e => exact asks_of_inv hP h
  | call m k ih =>
    intro w' hw hi
    obtain ⟨hholds, hasks, hok, herr⟩ := h w' hw hi
    exact ⟨hholds, hasks, ih _ hok, ih _ herr⟩

theorem asks_tryFinally (hP : P.Lawful E) {fin : Script S R ε Unit}
    (h : Asks E P c p (fun r l w => match r with
      | .ok a => Asks E P c (fin.bind fun _ => .ret a) Q l w
      | .error e => Asks E P c (fin.bind fun _ => .throw e) Q l w) l w) :
    Asks E P c (p.tryFinally fin) Q l w := by
  induction p generalizing l w with
  | ret a => exact asks_of_inv hP h
  | throw e => exact asks_of_inv hP h
  | call m k ih =>
    intro w' hw hi
    obtain ⟨hholds, hasks, hok, herr⟩ := h w' hw hi
    exact ⟨hholds, hasks, ih _ hok, ih _ herr⟩

/-! ### Outside transactions -/

/-- One statement, which waits for its locks and keeps none. -/
theorem asks_stmt_idle (hP : P.Lawful E) {s : S} {f : R s → Script S R ε β}
    (h : ∀ w', P.stays w w' → P.inv w' →
      Asks E P c (resume (E.act s w' w').reply f) T .idle (E.act s w' w').world)
    (hf : ∀ w', Asks E P c (.throw E.fault) T .idle w') :
    Asks E P c ((perform s).bind f) T .idle w := by
  rw [perform_bind]
  intro w' hw hi
  refine ⟨hP.none c w', fun key _ => hP.first c w' key, ?_, hf w'⟩
  rw [Engine.after_auto rfl, Engine.exec_auto rfl]
  by_cases hnil : (E.act s w' w').writes = []
  · rw [if_pos hnil]
    exact h w' hw hi
  · rw [if_neg hnil]
    exact asks_stays hP (h w' hw hi) (hP.commit _ _ _)

/-- A program without transactions. -/
theorem asks_statements (hP : P.Lawful E) {φ : α → Prop}
    (hp : Uses (fun m => ∃ s, m = .stmt s) φ p) (w : D) : Asks E P c p Idles .idle w := by
  induction p generalizing w with
  | ret a => exact fun _ _ _ => rfl
  | throw e => exact fun _ _ _ => rfl
  | call m k ih =>
    obtain ⟨⟨s, rfl⟩, hk⟩ := hp
    intro w' _ _
    refine ⟨hP.none c w', fun key _ => hP.first c w' key, ?_, ih _ (hk _) w'⟩
    rw [Engine.exec_auto rfl]
    exact ih _ (hk _) _

/-- Any program after one that ends outside transactions. -/
theorem asks_bind_idle (hP : P.Lawful E) {f : α → Script S R ε β}
    (hp : Asks E P c p Idles .idle w) (hf : ∀ a w', Asks E P c (f a) Idles .idle w') :
    Asks E P c (p.bind f) Idles .idle w := by
  refine asks_bind hP (asks_mono hp ?_)
  rintro (e | a) l w' - rfl
  · rfl
  · exact hf a w'

/-! ### Transactions -/

/-- One statement of a transaction. -/
theorem asks_stmt_tx (hP : P.Lawful E) {s : S} {f : R s → Script S R ε β} {ws : List W}
    {ks : List K} {J : β → Local K W → D → Prop} (hks : P.holds c ks w)
    (h : ∀ w', P.stays w w' → P.inv w' →
      (∀ key ∈ (E.act s (E.view ws w') w').locks, P.asks c ks w' key) ∧
        Asks E P c (resume (E.act s (E.view ws w') w').reply f) (Goes P c J)
          ⟨some (ws ++ (E.act s (E.view ws w') w').writes),
            (E.act s (E.view ws w') w').locks ++ ks⟩ (E.act s (E.view ws w') w').world) :
    Asks E P c ((perform s).bind f) (Goes P c J) ⟨some ws, ks⟩ w := by
  rw [perform_bind]
  intro w' hw hi
  have hks' := hP.holds hks hw
  exact ⟨hks', (h w' hw hi).1, (h w' hw hi).2, fun w'' hw' _ => hP.holds hks' hw'⟩

/-- The body has ended, one way or the other. -/
theorem asks_ret_tx (hP : P.Lawful E) {ws : List W} {ks : List K} (hks : P.holds c ks w)
    (a : α) : Asks E P c (.ret a : Script S R ε α) (Holds P c) ⟨some ws, ks⟩ w :=
  fun _ hw _ => hP.holds hks hw

theorem asks_throw_tx (hP : P.Lawful E) {ws : List W} {ks : List K}
    {J : α → Local K W → D → Prop} (hks : P.holds c ks w) (e : ε) :
    Asks E P c (.throw e : Script S R ε α) (Goes P c J) ⟨some ws, ks⟩ w :=
  fun _ hw _ => hP.holds hks hw

theorem asks_inTx (h : Asks E P c p (Holds P c) l w) : Asks E P c (inTx p) Idles l w := by
  induction p generalizing l w with
  | ret a =>
    intro w' hw hi
    exact ⟨h w' hw hi, by simp [Engine.exec], fun _ _ _ => rfl, fun _ _ _ => rfl⟩
  | throw e =>
    intro w' hw hi
    exact ⟨h w' hw hi, by simp [Engine.exec], fun _ _ _ => rfl, fun _ _ _ => rfl⟩
  | call m k ih =>
    intro w' hw hi
    obtain ⟨hholds, hasks, hok, herr⟩ := h w' hw hi
    exact ⟨hholds, hasks, ih _ hok, ih _ herr⟩

theorem asks_transaction (hP : P.Lawful E)
    (h : ∀ w', P.stays w w' → P.inv w' → Asks E P c p (Holds P c) ⟨some [], []⟩ w') :
    Asks E P c (transaction p) Idles .idle w := by
  intro w' hw hi
  exact ⟨hP.none c w', by simp [Engine.exec], asks_inTx (h w' hw hi), fun _ _ _ => rfl⟩

/-- A loop that collects rows, with an invariant on what it has done. -/
theorem asks_collect (hP : P.Lawful E) {ι : Type} {f : ι → Script S R ε (Option α)}
    {J : List ι → List α → Local K W → D → Prop} {is : List ι}
    (hf : ∀ past i, past ++ [i] <+: is → ∀ rows l w, J past rows l w →
      Asks E P c (f i) (Goes P c fun row => J (past ++ [i]) (rows ++ row.toList)) l w)
    (hJ : ∀ past rows l w w', J past rows l w → P.stays w w' → J past rows l w')
    {past rest : List ι} (his : past ++ rest = is) {rows : List α} (h : J past rows l w) :
    Asks E P c (collect f rest) (Goes P c fun rows' => J is (rows ++ rows')) l w := by
  induction rest generalizing past rows l w with
  | nil =>
    intro w' hw _
    rw [List.append_nil] at his
    simpa [Keeps] using his ▸ hJ _ _ _ _ _ h hw
  | cons i rest ih =>
    refine asks_bind hP (asks_mono (hf past i ⟨rest, by simp [← his]⟩ rows l w h) ?_)
    rintro (e | row) l w - hj
    · exact hj
    refine asks_bind hP (asks_mono (ih (by simp [← his]) hj) ?_)
    rintro (e | rows') l w - hj'
    · exact hj'
    · intro w' hw _
      simpa [Keeps] using hJ _ _ _ _ _ hj' hw

/-- A loop over the elements of a list. -/
theorem asks_forEach (hP : P.Lawful E) {ι : Type} {f : ι → Script S R ε Unit}
    {J : Local K W → D → Prop} (is : List ι)
    (hf : ∀ i ∈ is, ∀ l w, J l w → Asks E P c (f i) (Goes P c fun _ => J) l w)
    (hJ : ∀ l w w', J l w → P.stays w w' → J l w') (h : J l w) :
    Asks E P c (forEach f is) (Goes P c fun _ => J) l w := by
  induction is generalizing l w with
  | nil => exact fun w' hw _ => hJ _ _ _ h hw
  | cons i is ih =>
    refine asks_bind hP (asks_mono (hf i (by simp) l w h) ?_)
    rintro (e | u) l w - hj
    · exact hj
    · exact ih (fun i hi => hf i (by simp [hi])) hj

end Script

/-! ### Systems -/

namespace Prog

/-- The program after one command. -/
def After (p' p : Prog S R ε α) : Prop := ∃ m k r, p = .call m k ∧ p' = k r

theorem wellFounded_after : WellFounded (After (S := S) (R := R) (ε := ε) (α := α)) := by
  refine ⟨fun p => ?_⟩
  induction p with
  | ret a => exact ⟨_, fun _ ⟨_, _, _, h, _⟩ => by cases h⟩
  | throw e => exact ⟨_, fun _ ⟨_, _, _, h, _⟩ => by cases h⟩
  | call m k ih =>
    refine ⟨_, ?_⟩
    rintro _ ⟨_, _, r, h, rfl⟩
    cases h
    exact ih r

end Prog

/-- Every call has ended. -/
def System.Settled (s : System S R ε K W D C α) : Prop :=
  ∀ t ∈ s.threads, t.prog.result?.isSome

instance (s : System S R ε K W D C α) : Decidable s.Settled :=
  inferInstanceAs (Decidable (∀ t ∈ s.threads, _))

section

variable [DecidableEq K] (srv : Service S R ε K W D C V α)

/-- The action is the next command of a call: it is executed, or it fails. -/
def Service.Works (s : System S R ε K W D C α) : Action C V → Prop
  | .run i => (srv.advance s i).isSome
  | .fault i => ∃ t ∈ s.threads[i]?, t.prog.result? = none
  | _ => False

/-- Where there is a call that can go on, the schedule lets some call go on. -/
def Service.Serves (schedule : System S R ε K W D C α → Action C V) : Prop :=
  ∀ s, (∃ i, (srv.advance s i).isSome) → srv.Works s (schedule s)

/-- The schedule that serves the first call that can go on. -/
def Service.first (s : System S R ε K W D C α) : Action C V :=
  .run (((List.range s.threads.length).find? fun i => (srv.advance s i).isSome).getD 0)

/-- What is left of the programs. -/
def System.programs (s : System S R ε K W D C α) : Multiset (Script S R ε α) :=
  Multiset.ofList (s.threads.map (·.prog))

variable {srv} {P : Discipline K D C} {s : System S R ε K W D C α}

omit [DecidableEq K] in
theorem cutExpand_set {i : ℕ} {t t' : Thread S R ε K W C α} (ht : s.threads[i]? = some t)
    (h : Prog.After t'.prog t.prog) (w : D) :
    Relation.CutExpand Prog.After (⟨w, s.threads.set i t'⟩ : System S R ε K W D C α).programs
      s.programs := by
  obtain ⟨hlt, rfl⟩ := List.getElem?_eq_some_iff.mp ht
  have hset : (s.threads.set i t').Perm (t' :: s.threads.eraseIdx i) :=
    List.set_perm_cons_eraseIdx hlt t'
  have hget : (s.threads[i] :: s.threads.eraseIdx i).Perm s.threads :=
    List.getElem_cons_eraseIdx_perm hlt
  rw [System.programs, System.programs, Multiset.coe_eq_coe.mpr (hset.map _),
    ← Multiset.coe_eq_coe.mpr (hget.map _)]
  simp only [List.map_cons, ← Multiset.cons_coe, ← Multiset.singleton_add]
  exact Relation.cutExpand_single_add h _

theorem Service.Works.cutExpand {a : Action C V} (h : srv.Works s a) :
    Relation.CutExpand Prog.After (srv.step s a).programs s.programs := by
  cases a with
  | run i =>
    obtain ⟨⟨s', o⟩, hadv⟩ := Option.isSome_iff_exists.mp h
    obtain ⟨t, m, k, ht, hp, -, rfl, rfl⟩ := srv.advance_eq hadv
    simp only [Service.step, hadv, Option.map_some, Option.getD_some]
    exact cutExpand_set ht ⟨m, k, _, hp, rfl⟩ _
  | fault i =>
    obtain ⟨t, ht, hr⟩ := h
    cases hp : t.prog with
    | ret a => simp [hp, Prog.result?] at hr
    | throw e => simp [hp, Prog.result?] at hr
    | call m k =>
      simp only [Service.step, Service.interrupt, Option.mem_def.mp ht, hp]
      exact cutExpand_set ht ⟨m, k, _, hp, rfl⟩ _
  | spawn c => exact h.elim
  | env v => exact h.elim

/-- The commands of the calls that are open run out. -/
theorem wellFounded_works (srv : Service S R ε K W D C V α) :
    WellFounded fun s' s : System S R ε K W D C α => ∃ a, srv.Works s a ∧ s' = srv.step s a := by
  refine Subrelation.wf ?_ (InvImage.wf (System.programs (D := D) (C := C) (K := K) (W := W))
    Prog.wellFounded_after.cutExpand)
  rintro _ s ⟨a, ha, rfl⟩
  exact ha.cutExpand

/-- If the system keeps `I`, and under `I` some call can go on unless all have ended, then
all calls end. -/
theorem Service.settles {I : System S R ε K W D C α → Prop}
    (hI : ∀ s a, I s → I (srv.step s a))
    (hgo : ∀ s, I s → ¬ s.Settled → ∃ i, (srv.advance s i).isSome)
    {schedule : System S R ε K W D C α → Action C V} (hserves : srv.Serves schedule)
    (h : I s) : ∃ n, I ((fun s => srv.step s (schedule s))^[n] s) ∧
      ((fun s => srv.step s (schedule s))^[n] s).Settled := by
  induction s using (wellFounded_works srv).induction with
  | _ s ih =>
    by_cases hs : s.Settled
    · exact ⟨0, h, hs⟩
    · have hworks := hserves s (hgo s h hs)
      obtain ⟨n, hn⟩ := ih _ ⟨_, hworks, rfl⟩ (hI s _ h)
      exact ⟨n + 1, hn⟩

/-! ### Deadlocks -/

/-- Every session keeps to the discipline from where it is. -/
def Orderly (srv : Service S R ε K W D C V α) (P : Discipline K D C)
    (s : System S R ε K W D C α) : Prop :=
  ∀ t ∈ s.threads, t.prog.Asks srv.toEngine P t.session Script.Idles t.loc s.world

theorem Orderly.step (hP : P.Lawful srv.toEngine) (hev : ∀ v w, P.stays w (srv.evolve v w))
    (hbody : ∀ c w, (srv.body c.call).Asks srv.toEngine P c Script.Idles .idle w)
    (h : Orderly srv P s) (hi : P.inv s.world) (a : Action C V) : Orderly srv P (srv.step s a) := by
  have hset : ∀ {w i t'}, P.stays s.world w →
      t'.prog.Asks srv.toEngine P t'.session Script.Idles t'.loc w →
      Orderly srv P ⟨w, s.threads.set i t'⟩ := by
    intro w i t' hw ht' u hu
    rcases List.mem_or_eq_of_mem_set hu with hu | rfl
    · exact Script.asks_stays hP (h u hu) hw
    · exact ht'
  cases a with
  | env v => exact fun t ht => Script.asks_stays hP (h t ht) (hev v s.world)
  | spawn c =>
    simp only [Service.step]
    split_ifs
    · intro t ht
      rcases List.mem_append.mp ht with ht | ht
      · exact h t ht
      · rw [List.mem_singleton.mp ht]
        exact hbody ⟨s.threads.length, c⟩ s.world
    · exact h
  | fault i =>
    simp only [Service.step, Service.interrupt]
    split
    · exact h
    rename_i t ht
    split
    · rename_i m k hp
      have hasks := h t (List.mem_of_getElem? ht)
      rw [hp] at hasks
      exact hset (hP.refl _) (hasks _ (hP.refl _) hi).2.2.2
    · exact h
  | run i =>
    rcases srv.run_eq s i with ⟨hs, -⟩ | ⟨s', o, hadv, hs, -⟩
    · rwa [hs]
    obtain ⟨t, m, k, ht, hp, -, rfl, -⟩ := srv.advance_eq hadv
    have hasks := h t (List.mem_of_getElem? ht)
    rw [hp] at hasks
    rw [hs]
    refine hset ?_ (hasks _ (hP.refl _) hi).2.2.1
    have hbase : P.stays s.world (srv.exec t.loc s.world m).base := by
      cases m with
      | stmt st => exact Engine.exec_base (fun view => hP.act st view s.world) t.loc
      | _ => exact hP.refl _
    unfold Engine.after
    split
    · exact hP.trans hbase (hP.commit _ _ _)
    · exact hbase

omit [DecidableEq K] in
/-- A call that has ended holds nothing. -/
theorem Orderly.idle (hP : P.Lawful srv.toEngine) (h : Orderly srv P s) (hi : P.inv s.world)
    {t : Thread S R ε K W C α} (ht : t ∈ s.threads) (hr : t.prog.result?.isSome) :
    t.loc = .idle := by
  have hasks := h t ht
  cases hp : t.prog with
  | call m k => simp [hp, Prog.result?] at hr
  | ret a =>
    rw [hp] at hasks
    exact hasks s.world (hP.refl _) hi
  | throw e =>
    rw [hp] at hasks
    exact hasks s.world (hP.refl _) hi

end

end TurfSync.Txn
