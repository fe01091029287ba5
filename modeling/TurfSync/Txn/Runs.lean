import TurfSync.Txn.Soundness

/-! Runs of a service: properties of every state and of every step, and the induction
that connects them. -/

namespace TurfSync.Txn

variable {S : Type} {R : S → Type} {ε K W D C V α : Type} [DecidableEq K]
  (srv : Service S R ε K W D C V α)

namespace Service

/-- Every state of the run satisfies `I`, the first and the last included. -/
def Always (I : System S R ε K W D C α → Prop) :
    System S R ε K W D C α → List (Action C V) → Prop
  | s, [] => I s
  | s, a :: as => I s ∧ Always I (srv.step s a) as

/-- Every step of the run meets `M`, in the state it is taken in. -/
def Each (M : System S R ε K W D C α → Action C V → Prop) :
    System S R ε K W D C α → List (Action C V) → Prop
  | _, [] => True
  | s, a :: as => M s a ∧ Each M (srv.step s a) as

/-- Some step of the run meets `M`, in the state it is taken in. -/
def Once (M : System S R ε K W D C α → Action C V → Prop) :
    System S R ε K W D C α → List (Action C V) → Prop
  | _, [] => False
  | s, a :: as => M s a ∨ Once M (srv.step s a) as

def decideAlways (I : System S R ε K W D C α → Prop) [DecidablePred I] :
    (s : System S R ε K W D C α) → (as : List (Action C V)) → Decidable (srv.Always I s as)
  | s, [] => inferInstanceAs (Decidable (I s))
  | s, a :: as =>
    have := decideAlways I (srv.step s a) as
    inferInstanceAs (Decidable (I s ∧ srv.Always I (srv.step s a) as))

instance (I : System S R ε K W D C α → Prop) [DecidablePred I] (s : System S R ε K W D C α)
    (as : List (Action C V)) : Decidable (srv.Always I s as) := srv.decideAlways I s as

def decideEach (M : System S R ε K W D C α → Action C V → Prop) [∀ s a, Decidable (M s a)] :
    (s : System S R ε K W D C α) → (as : List (Action C V)) → Decidable (srv.Each M s as)
  | _, [] => inferInstanceAs (Decidable True)
  | s, a :: as =>
    have := decideEach M (srv.step s a) as
    inferInstanceAs (Decidable (M s a ∧ srv.Each M (srv.step s a) as))

instance (M : System S R ε K W D C α → Action C V → Prop) [∀ s a, Decidable (M s a)]
    (s : System S R ε K W D C α) (as : List (Action C V)) : Decidable (srv.Each M s as) :=
  srv.decideEach M s as

variable {srv} {I J : System S R ε K W D C α → Prop}
  {M N : System S R ε K W D C α → Action C V → Prop} {s : System S R ε K W D C α}
  {as : List (Action C V)}

theorem each_of_forall (h : ∀ s a, M s a) (s : System S R ε K W D C α) :
    ∀ as, srv.Each M s as
  | [] => trivial
  | a :: as => ⟨h s a, each_of_forall h (srv.step s a) as⟩

/-- What every step keeps holds along the run. -/
theorem always_of_step (hstep : ∀ s a, I s → M s a → I (srv.step s a)) (h : I s)
    (hM : srv.Each M s as) : srv.Always I s as := by
  induction as generalizing s with
  | nil => exact h
  | cons a as ih => exact ⟨h, ih (hstep s a h hM.1) hM.2⟩

theorem Always.last (h : srv.Always I s as) : I (srv.run s as) := by
  induction as generalizing s with
  | nil => exact h
  | cons a as ih => exact ih h.2

theorem Always.head (h : srv.Always I s as) : I s := by
  cases as with
  | nil => exact h
  | cons a as => exact h.1

/-- Every step leads from a state of the run to the next. -/
theorem Always.steps (h : srv.Always I s as) : srv.Each (fun t a => I t ∧ I (srv.step t a)) s as := by
  induction as generalizing s with
  | nil => trivial
  | cons a as ih => exact ⟨⟨h.1, h.2.head⟩, ih h.2⟩

theorem Always.mono (h : srv.Always I s as) (hIJ : ∀ s, I s → J s) : srv.Always J s as := by
  induction as generalizing s with
  | nil => exact hIJ _ h
  | cons a as ih => exact ⟨hIJ _ h.1, ih h.2⟩

theorem Always.and (h : srv.Always I s as) (hJ : srv.Always J s as) :
    srv.Always (fun s => I s ∧ J s) s as := by
  induction as generalizing s with
  | nil => exact ⟨h, hJ⟩
  | cons a as ih => exact ⟨⟨h.1, hJ.1⟩, ih h.2 hJ.2⟩

theorem always_iff : srv.Always I s as ↔ ∀ pre suf, as = pre ++ suf → I (srv.run s pre) := by
  induction as generalizing s with
  | nil =>
    constructor
    · intro h pre suf he
      obtain ⟨rfl, -⟩ := List.append_eq_nil_iff.mp he.symm
      exact h
    · intro h
      exact h [] [] rfl
  | cons a as ih =>
    constructor
    · rintro ⟨h, hs⟩ pre suf he
      cases pre with
      | nil => exact h
      | cons b pre =>
        obtain ⟨rfl, rfl⟩ := List.cons.inj he
        exact ih.mp hs pre suf rfl
    · intro h
      exact ⟨h [] _ rfl, ih.mpr fun pre suf he => h (a :: pre) suf (by rw [he]; rfl)⟩

theorem Each.mono (h : srv.Each M s as) (hMN : ∀ s a, M s a → N s a) : srv.Each N s as := by
  induction as generalizing s with
  | nil => trivial
  | cons a as ih => exact ⟨hMN s a h.1, ih h.2⟩

theorem each_and (hM : srv.Each M s as) (hN : srv.Each N s as) :
    srv.Each (fun s a => M s a ∧ N s a) s as := by
  induction as generalizing s with
  | nil => trivial
  | cons a as ih => exact ⟨⟨hM.1, hN.1⟩, ih hM.2 hN.2⟩

theorem each_iff : srv.Each M s as ↔
    ∀ pre a post, as = pre ++ a :: post → M (srv.run s pre) a := by
  induction as generalizing s with
  | nil =>
    refine ⟨fun _ pre a post he => ?_, fun _ => trivial⟩
    have hlen := congrArg List.length he
    simp at hlen
  | cons b as ih =>
    constructor
    · rintro ⟨h, hs⟩ pre a post he
      cases pre with
      | nil =>
        obtain ⟨rfl, -⟩ := List.cons.inj he
        exact h
      | cons c pre =>
        obtain ⟨rfl, rfl⟩ := List.cons.inj he
        exact ih.mp hs pre a post rfl
    · intro h
      have hrest := ih.mpr fun pre a post he => h (b :: pre) a post (by rw [he]; rfl)
      exact ⟨h [] b as rfl, hrest⟩

/-- What is asked of the calls of a run. -/
theorem each_spawn {P : C → Prop} (h : ∀ c, .spawn c ∈ as → P c) :
    srv.Each (fun _ a => ∀ c, a = .spawn c → P c) s as := by
  rw [each_iff]
  rintro pre a post rfl c rfl
  exact h c (by simp)

theorem Once.append (h : srv.Once M s as) (bs : List (Action C V)) : srv.Once M s (as ++ bs) := by
  induction as generalizing s with
  | nil => exact h.elim
  | cons a as ih => exact h.imp_right ih

theorem once_snoc {a : Action C V} (h : M (srv.run s as) a) : srv.Once M s (as ++ [a]) := by
  induction as generalizing s with
  | nil => exact .inl h
  | cons b as ih => exact .inr (ih h)

/-- A step is taken in a state of the run. -/
theorem Always.once (h : srv.Always I s as) (hM : srv.Once M s as) : ∃ t a, I t ∧ M t a := by
  induction as generalizing s with
  | nil => exact hM.elim
  | cons a as ih =>
    rcases hM with hM | hM
    · exact ⟨s, a, h.1, hM⟩
    · exact ih h.2 hM

/-- A call that has ended stays ended. -/
theorem ended_step {i : ℕ} {c : C} {r : Except ε α} (h : s.Ended i c r) (a : Action C V) :
    (srv.step s a).Ended i c r := by
  obtain ⟨t, ht, hc, hr⟩ := h
  -- a thread that moves has a statement left
  have hset : ∀ (w : D) (j : ℕ) (u u' : Thread S R ε K W C α), s.threads[j]? = some u →
      u.prog.result? = none → System.Ended ⟨w, s.threads.set j u'⟩ i c r := by
    intro w j u u' hu hnone
    have hji : j ≠ i := by
      rintro rfl
      rw [ht] at hu
      cases hu
      rw [hnone] at hr
      cases hr
    exact ⟨t, by simpa only [List.getElem?_set_ne hji] using ht, hc, hr⟩
  cases a with
  | spawn c' =>
    simp only [step]
    split_ifs
    · exact ⟨t, List.getElem?_append_left (List.getElem?_eq_some_iff.mp ht).1 ▸ ht, hc, hr⟩
    · exact ⟨t, ht, hc, hr⟩
  | run j =>
    rcases srv.run_eq s j with ⟨hs, -⟩ | ⟨s', o, hadv, hs, -⟩
    · rw [hs]
      exact ⟨t, ht, hc, hr⟩
    · obtain ⟨u, m, k, hu, hp, -, rfl, -⟩ := srv.advance_eq hadv
      rw [hs]
      exact hset _ j u _ hu (by rw [hp]; rfl)
  | fault j =>
    simp only [step, interrupt]
    split
    · exact ⟨t, ht, hc, hr⟩
    · rename_i u hu
      split
      · rename_i m k hp
        exact hset _ j u _ hu (by rw [hp]; rfl)
      · exact ⟨t, ht, hc, hr⟩
  | env v => exact ⟨t, ht, hc, hr⟩

/-- A step starts no session but the one that is called. -/
theorem session_step {a : Action C V} {t : Thread S R ε K W C α}
    (ht : t ∈ (srv.step s a).threads) :
    (∃ u ∈ s.threads, u.session = t.session) ∨ a = .spawn t.session.call := by
  have hset : ∀ (j : ℕ) (u u' : Thread S R ε K W C α), s.threads[j]? = some u →
      u'.session = u.session → t ∈ s.threads.set j u' → ∃ u ∈ s.threads, u.session = t.session := by
    intro j u u' hu hs hmem
    rcases List.mem_or_eq_of_mem_set hmem with hmem | rfl
    · exact ⟨t, hmem, rfl⟩
    · exact ⟨u, List.mem_of_getElem? hu, hs.symm⟩
  cases a with
  | spawn c =>
    simp only [step] at ht
    split_ifs at ht
    · rcases List.mem_append.mp ht with hmem | hmem
      · exact .inl ⟨t, hmem, rfl⟩
      · rw [List.mem_singleton.mp hmem]
        exact .inr rfl
    · exact .inl ⟨t, ht, rfl⟩
  | run j =>
    rcases srv.run_eq s j with ⟨hs, -⟩ | ⟨s', o, hadv, hs, -⟩
    · rw [hs] at ht
      exact .inl ⟨t, ht, rfl⟩
    · obtain ⟨u, m, k, hu, hp, -, rfl, -⟩ := srv.advance_eq hadv
      rw [hs] at ht
      refine .inl (hset j u _ hu ?_ ht)
      rfl
  | fault j =>
    simp only [step, interrupt] at ht
    split at ht
    · exact .inl ⟨t, ht, rfl⟩
    · rename_i u hu
      split at ht
      · refine .inl (hset j u _ hu ?_ ht)
        rfl
      · exact .inl ⟨t, ht, rfl⟩
  | env v => exact .inl ⟨t, ht, rfl⟩

/-- What is true of the calls so far and of the one that is made. -/
theorem calls_step {P : C → Prop} (h : ∀ t ∈ s.threads, P t.session.call) {a : Action C V}
    (ha : ∀ c, a = .spawn c → P c) : ∀ t ∈ (srv.step s a).threads, P t.session.call := by
  intro t ht
  rcases session_step ht with ⟨u, hu, hsession⟩ | hspawn
  · rw [← hsession]
    exact h u hu
  · exact ha _ hspawn

/-- A session stays where it is. -/
theorem thread_stays {i : ℕ} {t : Thread S R ε K W C α} (ht : s.threads[i]? = some t)
    (a : Action C V) : ∃ u, (srv.step s a).threads[i]? = some u ∧ u.session = t.session := by
  have hset : ∀ (j : ℕ) (u u' : Thread S R ε K W C α), s.threads[j]? = some u →
      u'.session = u.session → ∃ v, (s.threads.set j u')[i]? = some v ∧ v.session = t.session := by
    intro j u u' hu hs
    by_cases hji : j = i
    · subst hji
      rw [ht] at hu
      obtain rfl := Option.some.inj hu
      exact ⟨u', by simp [(List.getElem?_eq_some_iff.mp ht).1], hs⟩
    · exact ⟨t, by rw [List.getElem?_set_ne hji, ht], rfl⟩
  cases a with
  | spawn c =>
    simp only [step]
    split_ifs
    · exact ⟨t, List.getElem?_append_left (List.getElem?_eq_some_iff.mp ht).1 ▸ ht, rfl⟩
    · exact ⟨t, ht, rfl⟩
  | run j =>
    rcases srv.run_eq s j with ⟨hs, -⟩ | ⟨s', o, hadv, hs, -⟩
    · rw [hs]
      exact ⟨t, ht, rfl⟩
    · obtain ⟨u, m, k, hu, hp, -, rfl, -⟩ := srv.advance_eq hadv
      rw [hs]
      exact hset j u _ hu rfl
  | fault j =>
    simp only [step, interrupt]
    split
    · exact ⟨t, ht, rfl⟩
    · rename_i u hu
      split
      · exact hset j u _ hu rfl
      · exact ⟨t, ht, rfl⟩
  | env v => exact ⟨t, ht, rfl⟩

/-- A call that has a statement left did not end at its start. -/
def Begun (srv : Service S R ε K W D C V α) (s : System S R ε K W D C α) : Prop :=
  ∀ t ∈ s.threads, t.prog.result? = none → (srv.body t.session.call).result? = none

theorem Begun.step (h : Begun srv s) (a : Action C V) : Begun srv (srv.step s a) := by
  -- a thread that moves had a statement left
  have hset : ∀ (w : D) (j : ℕ) (u u' : Thread S R ε K W C α), s.threads[j]? = some u →
      u.prog.result? = none → u'.session = u.session → Begun srv ⟨w, s.threads.set j u'⟩ := by
    intro w j u u' hu hnone hsession t ht htnone
    rcases List.mem_or_eq_of_mem_set ht with ht | rfl
    · exact h t ht htnone
    · rw [hsession]
      exact h u (List.mem_of_getElem? hu) hnone
  cases a with
  | spawn c =>
    simp only [Service.step]
    split_ifs
    · intro t ht htnone
      rcases List.mem_append.mp ht with ht | ht
      · exact h t ht htnone
      · rw [List.mem_singleton.mp ht] at htnone ⊢
        exact htnone
    · exact h
  | run j =>
    rcases srv.run_eq s j with ⟨hs, -⟩ | ⟨s', o, hadv, hs, -⟩
    · rw [hs]
      exact h
    · obtain ⟨u, m, k, hu, hp, -, rfl, -⟩ := srv.advance_eq hadv
      rw [hs]
      exact hset _ j u _ hu (by rw [hp]; rfl) rfl
  | fault j =>
    simp only [Service.step, interrupt]
    split
    · exact h
    · rename_i u hu
      split
      · rename_i m k hp
        exact hset _ j u _ hu (by rw [hp]; rfl) rfl
      · exact h
  | env v => exact h

/-- A call that commits did not end at its start. -/
theorem Begun.committed (h : Begun srv s) {a : Action C V} {cm : Commit C W D}
    (hcm : srv.committed s a = some cm) : (srv.body cm.session.call).result? = none := by
  cases a with
  | run j =>
    rcases srv.run_eq s j with ⟨-, hnone⟩ | ⟨s', o, hadv, -, hsome⟩
    · rw [hnone] at hcm
      cases hcm
    · obtain ⟨u, m, k, hu, hp, -, -, rfl⟩ := srv.advance_eq hadv
      rw [hsome] at hcm
      obtain ⟨ws, -, rfl⟩ := Option.map_eq_some_iff.mp hcm
      exact h u (List.mem_of_getElem? hu) (by rw [hp]; rfl)
  | _ => cases hcm

/-- Where the states of a run satisfy `J`, two properties of steps that agree under
`J` hold along the same runs. -/
theorem each_congr (hJ : srv.Always J s as) (h : ∀ s a, J s → (M s a ↔ N s a)) :
    srv.Each M s as ↔ srv.Each N s as := by
  induction as generalizing s with
  | nil => rfl
  | cons a as ih =>
    have hhead := h s a hJ.1
    have htail := ih hJ.2
    simp only [Each, hhead, htail]

theorem always_congr (hJ : srv.Always J s as) {I' : System S R ε K W D C α → Prop}
    (h : ∀ s, J s → (I s ↔ I' s)) : srv.Always I s as ↔ srv.Always I' s as := by
  induction as generalizing s with
  | nil => exact h s hJ
  | cons a as ih => exact and_congr (h s hJ.1) (ih hJ.2)

theorem Always.each (hJ : srv.Always J s as) (h : ∀ s a, J s → M s a) : srv.Each M s as := by
  induction as generalizing s with
  | nil => trivial
  | cons a as ih => exact ⟨h s a hJ.1, ih hJ.2⟩

/-- If no step ends `F x`, then `F x` stays, and conversely. -/
theorem each_stays {X : Type} {F : X → System S R ε K W D C α → Prop} :
    srv.Each (fun s a => ∀ x, F x s → F x (srv.step s a)) s as ↔
      ∀ pre mid post, as = pre ++ mid ++ post → ∀ x, F x (srv.run s pre) →
        F x (srv.run s (pre ++ mid)) := by
  rw [each_iff]
  constructor
  · intro h pre mid
    induction mid generalizing pre with
    | nil => simp
    | cons a mid ih =>
      intro post he x hx
      have hstep := h pre a (mid ++ post) (by simp [he]) x hx
      have hrun : srv.run s (pre ++ [a]) = srv.step (srv.run s pre) a := by simp [run_append]
      have hrest := ih (pre ++ [a]) post (by simp [he]) x (by rw [hrun]; exact hstep)
      simpa using hrest
  · intro h pre a post he x hx
    have hstep := h pre [a] post (by simp [he]) x hx
    simpa [run_append] using hstep

/-- Where a property of states is kept by exactly the steps that meet `M`, it holds
along a run if and only if every step meets `M`. -/
theorem always_iff_each (hJ : srv.Always J s as) (h : I s)
    (hkeep : ∀ s a, J s → I s → M s a → I (srv.step s a))
    (hbreak : ∀ s a, J s → I s → I (srv.step s a) → M s a) :
    srv.Always I s as ↔ srv.Each M s as := by
  induction as generalizing s with
  | nil => exact ⟨fun _ => trivial, fun _ => h⟩
  | cons a as ih =>
    constructor
    · rintro ⟨-, hs⟩
      have h' : I (srv.step s a) := by cases as with
        | nil => exact hs
        | cons b as => exact hs.1
      exact ⟨hbreak s a hJ.1 h h', (ih hJ.2 h').mp hs⟩
    · rintro ⟨hm, hs⟩
      have h' := hkeep s a hJ.1 h hm
      exact ⟨h, (ih hJ.2 h').mpr hs⟩

/-- Along a run whose steps the rules allow, the system stays sound. -/
theorem always_sound {P : Rules S K W D C} {Q : Session C → Post ε K W D α} (hP : P.Lawful srv.toEngine)
    (hS : Starts srv P Q) (h : Sound srv P Q s) (hM : srv.Each (Permits srv P.allow) s as) :
    srv.Always (Sound srv P Q) s as :=
  always_of_step (fun _ _ hs ha => hs.step hP hS ha) h hM

/-- A session that is part way through its program ends as the rest of the program
promises. -/
theorem sound_ends {P : Rules S K W D C} {Q : Session C → Post ε K W D α} (h : Sound srv P Q s)
    (hP : P.Lawful srv.toEngine) (hS : Starts srv P Q) (hM : srv.Each (Permits srv P.allow) s as) {i : ℕ}
    {t : Thread S R ε K W C α} (ht : s.threads[i]? = some t) {Q' : Post ε K W D α}
    (hwp : wp srv.toEngine P t.session t.prog Q' t.loc s.world) {c : C} {r : Except ε α}
    (he : (srv.run s as).Ended i c r) : ∃ l, Q' r l (srv.run s as).world := by
  have hlt : i < s.threads.length := (List.getElem?_eq_some_iff.mp ht).1
  have hsound := always_sound (hP.later s.threads.length) (hS.later hlt Q') (h.later ht hwp)
    hM
  obtain ⟨l, hl⟩ := hsound.last.post (hP.later s.threads.length) he
  rw [replacePost, if_pos rfl] at hl
  exact ⟨l, hl⟩

end Service

end TurfSync.Txn
