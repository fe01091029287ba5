import TurfSync.Txn.Automaton

/-! Sessions that obey an automaton and may hold back writes in a transaction. Some states
of the automaton are outside any transaction; in the others a statement may be held back,
and then its writes meet a property, which the whole commit meets. A step is one of a few
kinds, and an invariant of the states and of the world is kept if each kind keeps it. -/

namespace TurfSync.Txn

variable {S : Type} {R : S → Type} {ε K W D C V α G : Type}

/-- A session that is in a state `Out` has been in such states only, and has issued
statements only. -/
structure Automaton.Gated (A : Automaton S R ε G) (Out : G → Prop) : Prop where
  init : Out A.init
  stays : ∀ g m r, A.may g m → Out (A.next g m r) → Out g ∧ ∃ s, m = .stmt s

/-- Past the states `Out`, what a statement writes meets `Φ`. -/
def Automaton.Withholds (A : Automaton S R ε G) (E : Engine S R ε K W D C) (Out : G → Prop)
    (Φ : W → Prop) : Prop :=
  ∀ g s, ¬ Out g → A.may g (.stmt s) → ∀ view w, ∀ x ∈ (E.act s view w).writes, Φ x

/-- The sessions obey the automaton; in the states `Out` they are outside any transaction,
and the writes they hold back meet `Φ`. -/
structure Buffering (A : Automaton S R ε G) (Q : G → Except ε α → Prop) (Out : G → Prop)
    (Φ : W → Prop) (g : ℕ → G) (s : System S R ε K W D C α) : Prop extends Obeying A Q g s where
  outside : ∀ (i : ℕ) (t : Thread S R ε K W C α), s.threads[i]? = some t → Out (g i) →
    t.loc.tx = none
  held : ∀ t ∈ s.threads, ∀ ws ∈ t.loc.tx, ∀ x ∈ ws, Φ x

section

variable [DecidableEq K] (srv : Service S R ε K W D C V α) (A : Automaton S R ε G)
  (Q : G → Except ε α → Prop) (Out : G → Prop) (Φ : W → Prop)

/-- The sessions other than `i` are where they were. -/
def Others (s s' : System S R ε K W D C α) (i : ℕ) : Prop :=
  ∀ j, j ≠ i → s'.threads[j]? = s.threads[j]?

/-- The kinds of steps: no session moves; a statement outside any transaction; a statement
whose writes are held back; a commit; a bracket without a commit, or a failure. -/
inductive Traced (g : ℕ → G) (s : System S R ε K W D C α) (a : Action C V) : Prop
  | rests (idle : srv.committed s a = none)
      (world : (srv.step s a).world = s.world ∨ ∃ v, (srv.step s a).world = srv.evolve v s.world)
      (sessions : ∀ (i : ℕ) (t : Thread S R ε K W C α), (srv.step s a).threads[i]? = some t →
        s.threads[i]? = some t ∨ s.threads.length = i)
      (buffering : Buffering A Q Out Φ g (srv.step s a))
  | acts (i : ℕ) (t : Thread S R ε K W C α) (st : S) (k : Except ε (R st) → Script S R ε α)
      (action : a = .run i) (thread : s.threads[i]? = some t) (prog : t.prog = .call (.stmt st) k)
      (may : A.may (g i) (.stmt st))
      (committed : ∀ cm ∈ srv.committed s a,
        cm.session = t.session ∧ cm.writes = (srv.act st s.world s.world).writes)
      (all : (srv.act st s.world s.world).writes ≠ [] → (srv.committed s a).isSome)
      (world : (srv.step s a).world = if (srv.act st s.world s.world).writes = [] then
        (srv.act st s.world s.world).world else srv.commit t.session
          (srv.act st s.world s.world).writes (srv.act st s.world s.world).world)
      (others : Others s (srv.step s a) i)
      (buffering : Buffering A Q Out Φ (Function.update g i
        (A.next (g i) (.stmt st) (srv.act st s.world s.world).reply)) (srv.step s a))
  | holds (i : ℕ) (t : Thread S R ε K W C α) (st : S) (view : D) (thread : s.threads[i]? = some t)
      (inside : ¬ Out (g i)) (may : A.may (g i) (.stmt st)) (idle : srv.committed s a = none)
      (world : (srv.step s a).world = (srv.act st view s.world).world)
      (others : Others s (srv.step s a) i)
      (buffering : Buffering A Q Out Φ (Function.update g i
        (A.next (g i) (.stmt st) (srv.act st view s.world).reply)) (srv.step s a))
  | commits (i : ℕ) (t : Thread S R ε K W C α) (ws : List W) (thread : s.threads[i]? = some t)
      (may : A.may (g i) .commit) (committed : srv.committed s a = some ⟨t.session, ws, s.world⟩)
      (held : ∀ x ∈ ws, Φ x) (world : (srv.step s a).world = srv.commit t.session ws s.world)
      (others : Others s (srv.step s a) i)
      (buffering : Buffering A Q Out Φ (Function.update g i (A.next (g i) .commit (.ok ())))
        (srv.step s a))
  | moves (i : ℕ) (t : Thread S R ε K W C α) (m : Cmd S) (r : Except ε (m.Reply R))
      (thread : s.threads[i]? = some t) (prog : t.prog.result? = none) (may : A.may (g i) m)
      (cause : (∀ st, m ≠ .stmt st) ∨ r = .error srv.fault) (idle : srv.committed s a = none)
      (world : (srv.step s a).world = s.world) (others : Others s (srv.step s a) i)
      (buffering : Buffering A Q Out Φ (Function.update g i (A.next (g i) m r)) (srv.step s a))

variable {srv A Q Out Φ} {g : ℕ → G} {s : System S R ε K W D C α}

omit [DecidableEq K] in
/-- Session `i` goes on with the local state `l`. -/
theorem Buffering.set (h : Buffering A Q Out Φ g s) {i : ℕ} {t : Thread S R ε K W C α} {m : Cmd S}
    (hgated : A.Gated Out) (hmay : A.may (g i) m)
    {r : Except ε (m.Reply R)} {w : D} {p : Script S R ε α} {l : Local K W}
    (hobeying : Obeying A Q (Function.update g i (A.next (g i) m r)) ⟨w, s.threads.set i ⟨t.session, p, l⟩⟩)
    (hout : l.tx = none ∨ ¬ Out (g i) ∨ ∀ st, m ≠ .stmt st) (hheld : ∀ ws ∈ l.tx, ∀ x ∈ ws, Φ x) :
    Buffering A Q Out Φ (Function.update g i (A.next (g i) m r))
      ⟨w, s.threads.set i ⟨t.session, p, l⟩⟩ where
  toObeying := hobeying
  outside j u hu ho := by
    rcases getElem?_put hu with ⟨rfl, rfl⟩ | ⟨hji, hu⟩
    · rw [Function.update_self] at ho
      obtain ⟨hwas, st, rfl⟩ := hgated.stays _ _ _ hmay ho
      rcases hout with hout | hout | hout
      · exact hout
      · exact absurd hwas hout
      · exact absurd rfl (hout st)
    · rw [Function.update_of_ne hji] at ho
      exact h.outside j u hu ho
  held u hu := by
    rcases List.mem_or_eq_of_mem_set hu with hu | rfl
    · exact h.held u hu
    · exact hheld

omit [DecidableEq K] in
theorem others_set (s : System S R ε K W D C α) (w : D) (i : ℕ) (u : Thread S R ε K W C α) :
    Others s ⟨w, s.threads.set i u⟩ i := fun _ hj => List.getElem?_set_ne (Ne.symm hj)

theorem Buffering.step (h : Buffering A Q Out Φ g s) (hA : A.Answered srv.toEngine)
    (hbody : ∀ c, (srv.body c).Obeys A A.init Q) (hgated : A.Gated Out)
    (hwithholds : A.Withholds srv.toEngine Out Φ) (a : Action C V) :
    Traced srv A Q Out Φ g s a := by
  cases h.toObeying.step hA hbody a with
  | rests idle world sessions obeying =>
    refine .rests idle (.inl world) (fun i t ht => (sessions i t ht).imp_right fun h => h.1)
      ⟨obeying, fun i t ht ho => ?_, fun t ht => ?_⟩
    · rcases sessions i t ht with ht | ⟨-, hidle⟩
      · exact h.outside i t ht ho
      · rw [hidle]
    · obtain ⟨i, hi, rfl⟩ := List.mem_iff_getElem.mp ht
      rcases sessions i _ (List.getElem?_eq_getElem hi) with ht | ⟨-, hidle⟩
      · exact h.held _ (List.mem_of_getElem? ht)
      · rw [hidle]
        exact fun ws hws => nomatch hws
  | evolves v idle step obeying =>
    refine .rests idle (.inr ⟨v, by rw [step]⟩) (fun i t ht => ?_)
      ⟨obeying, fun i t ht => ?_, fun t ht => ?_⟩
    · rw [step] at ht
      exact .inl ht
    · rw [step] at ht
      exact h.outside i t ht
    · rw [step] at ht
      exact h.held t ht
  | fails i t m k action thread prog may idle step obeying =>
    have hmem := List.mem_of_getElem? thread
    have hheld : ∀ ws ∈ (Engine.failed t.loc m).tx, ∀ x ∈ ws, Φ x := by
      cases m with
      | commit => exact fun ws hws => nomatch hws
      | rollback => exact fun ws hws => nomatch hws
      | _ => exact h.held t hmem
    have hout : (Engine.failed t.loc m).tx = none ∨ ¬ Out (g i) ∨ ∀ st, m ≠ .stmt st := by
      cases m with
      | stmt st =>
        by_cases ho : Out (g i)
        · exact .inl (h.outside i t thread ho)
        · exact .inr (.inl ho)
      | _ => exact .inr (.inr fun st => nofun)
    rw [step] at obeying
    exact .moves i t m _ thread (by rw [prog]; rfl) may (.inr rfl) idle (by rw [step])
      (step ▸ others_set s _ i _) (step ▸ h.set hgated may obeying hout hheld)
  | runs i t m k action thread prog may free committed step obeying =>
    have hmem := List.mem_of_getElem? thread
    rw [step] at obeying
    have hothers : Others s (srv.step s a) i := step ▸ others_set s _ i _
    cases m with
    | begin =>
      refine .moves i t .begin (.ok ()) thread (by rw [prog]; rfl) may (.inl fun st => nofun) committed
        (by rw [step]; rfl) hothers ?_
      rw [step]
      refine h.set hgated may obeying (.inr (.inr fun st => nofun)) fun ws hws x hx => ?_
      obtain rfl := Option.some.inj hws
      cases hx
    | rollback =>
      refine .moves i t .rollback (.ok ()) thread (by rw [prog]; rfl) may (.inl fun st => nofun) committed
        (by rw [step]; rfl) hothers ?_
      rw [step]
      exact h.set hgated may obeying (.inl rfl) fun ws hws => nomatch hws
    | commit =>
      refine .commits i t (t.loc.tx.getD []) thread may committed (fun x hx => ?_) (by rw [step]; rfl)
        hothers ?_
      · cases htx : t.loc.tx with
        | none => simp [htx] at hx
        | some ws =>
          rw [htx] at hx
          exact h.held t hmem ws htx x hx
      · rw [step]
        exact h.set hgated may obeying (.inl rfl) fun ws hws => nomatch hws
    | stmt st =>
      cases htx : t.loc.tx with
      | none =>
        have hexec := Engine.exec_auto (E := srv.toEngine) htx s.world st
        refine .acts i t st k action thread prog may (fun cm hcm => ?_) (fun hws => ?_) ?_ hothers ?_
        · rw [committed, hexec] at hcm
          obtain ⟨ws, hws, rfl⟩ := Option.map_eq_some_iff.mp hcm
          simp only at hws
          split at hws
          · cases hws
          · exact ⟨rfl, (Option.some.inj hws).symm⟩
        · rw [committed, hexec]
          simp [hws]
        · rw [step]
          exact Engine.after_auto htx t.session s.world st
        · rw [step]
          rw [hexec] at obeying ⊢
          exact h.set hgated may obeying (.inl htx) fun ws hws => by
            rw [htx] at hws
            cases hws
      | some ws =>
        have hinside : ¬ Out (g i) := fun ho => by
          have hnone := h.outside i t thread ho
          rw [htx] at hnone
          cases hnone
        have hexec := Engine.exec_tx (E := srv.toEngine) htx s.world st
        refine .holds i t st (srv.view ws s.world) thread hinside may ?_ ?_ hothers ?_
        · rw [committed, hexec]
          rfl
        · rw [step, hexec]
          rfl
        · rw [step]
          rw [hexec] at obeying ⊢
          refine h.set hgated may obeying (.inr (.inl hinside)) fun ws' hws' x hx => ?_
          obtain rfl := Option.some.inj hws'
          rcases List.mem_append.mp hx with hx | hx
          · exact h.held t hmem ws htx x hx
          · exact hwithholds _ _ hinside may _ _ x hx

omit [DecidableEq K] in
theorem Buffering.nil (hthreads : s.threads = []) : Buffering A Q Out Φ (fun _ => A.init) s where
  toObeying := .nil hthreads
  outside i t ht := by simp [hthreads] at ht
  held t ht := by simp [hthreads] at ht

/-! ### Statements of another kind -/

section

variable {T : Type} {U : T → Type} {A : Automaton S R ε G} {Out : G → Prop}

theorem Automaton.Gated.lift (h : A.Gated Out) : (A.lift (U := U)).Gated Out where
  init := h.init
  stays g m r hmay hnext := by
    cases m with
    | stmt st =>
      cases st with
      | inl s => exact ⟨(h.stays g (.stmt s) r hmay hnext).1, _, rfl⟩
      | inr t => exact ⟨hnext, _, rfl⟩
    | begin => exact absurd (h.stays g .begin r hmay hnext).2 (by simp)
    | commit => exact absurd (h.stays g .commit r hmay hnext).2 (by simp)
    | rollback => exact absurd (h.stays g .rollback r hmay hnext).2 (by simp)

end

/-- What every kind of step keeps holds along the run. -/
theorem Service.always_buffering {I : (ℕ → G) → System S R ε K W D C α → Prop}
    {M : System S R ε K W D C α → Action C V → Prop}
    (hA : A.Answered srv.toEngine) (hbody : ∀ c, (srv.body c).Obeys A A.init Q)
    (hgated : A.Gated Out) (hwithholds : A.Withholds srv.toEngine Out Φ)
    (hstep : ∀ g s a, Buffering A Q Out Φ g s → I g s → M s a → Traced srv A Q Out Φ g s a →
      ∃ g', Buffering A Q Out Φ g' (srv.step s a) ∧ I g' (srv.step s a))
    (hthreads : s.threads = []) (h : I (fun _ => A.init) s) {as : List (Action C V)}
    (hM : srv.Each M s as) : srv.Always (fun s => ∃ g, Buffering A Q Out Φ g s ∧ I g s) s as := by
  refine Service.always_of_step ?_ ⟨_, .nil hthreads, h⟩ hM
  rintro s a ⟨g, hg, hi⟩ hm
  exact hstep g s a hg hi hm (hg.step hA hbody hgated hwithholds a)

end

end TurfSync.Txn
