import TurfSync.Txn.Automaton

/-! The states of an automaton along a run, as a function of the run: every command that a
session executes, or that fails, moves the state of that session. -/

namespace TurfSync.Txn

variable {S : Type} {R : S → Type} {ε K W D C V α G : Type} [DecidableEq K]

namespace Automaton

variable (A : Automaton S R ε G) (srv : Service S R ε K W D C V α)

/-- The states of the sessions after an action. -/
def moved (g : ℕ → G) (s : System S R ε K W D C α) : Action C V → ℕ → G
  | .run i => match s.threads[i]? with
    | none => g
    | some t => match t.prog with
      | .call m _ =>
        if (srv.advance s i).isSome then
          Function.update g i (A.next (g i) m (srv.exec t.loc s.world m).reply)
        else g
      | _ => g
  | .fault i => match s.threads[i]? with
    | none => g
    | some t => match t.prog with
      | .call m _ => Function.update g i (A.next (g i) m (.error srv.fault))
      | _ => g
  | _ => g

/-- The states of the sessions after a run. -/
def track (g : ℕ → G) : System S R ε K W D C α → List (Action C V) → ℕ → G
  | _, [] => g
  | s, a :: as => track (A.moved srv g s a) (srv.step s a) as

/-- The states of the sessions after a run from the start. -/
abbrev tracked (s : System S R ε K W D C α) (as : List (Action C V)) : ℕ → G :=
  A.track srv (fun _ => A.init) s as

/-- What an action does to the world and the states: it moves no session, or one. -/
inductive Moves (Q : G → Except ε α → Prop) (g : ℕ → G) (s : System S R ε K W D C α)
    (a : Action C V) : Prop
  | rests (world : (srv.step s a).world = s.world) (moved : A.moved srv g s a = g)
  | evolves (v : V) (action : a = .env v) (world : (srv.step s a).world = srv.evolve v s.world)
      (moved : A.moved srv g s a = g)
  | runs (i : ℕ) (t : Thread S R ε K W C α) (m : Cmd S)
      (k : Except ε (m.Reply R) → Script S R ε α) (action : a = .run i)
      (thread : s.threads[i]? = some t) (prog : t.prog = .call m k) (may : A.may (g i) m)
      (world : (srv.step s a).world = srv.after t.session (srv.exec t.loc s.world m))
      (moved : A.moved srv g s a =
        Function.update g i (A.next (g i) m (srv.exec t.loc s.world m).reply))
  | fails (i : ℕ) (t : Thread S R ε K W C α) (m : Cmd S)
      (k : Except ε (m.Reply R) → Script S R ε α) (action : a = .fault i)
      (thread : s.threads[i]? = some t) (prog : t.prog = .call m k) (may : A.may (g i) m)
      (world : (srv.step s a).world = s.world)
      (moved : A.moved srv g s a = Function.update g i (A.next (g i) m (.error srv.fault)))

variable {A srv} {Q : G → Except ε α → Prop} {g : ℕ → G} {s : System S R ε K W D C α}

theorem moves (h : Obeying A Q g s) (hA : A.Answered srv.toEngine)
    (hbody : ∀ c, (srv.body c).Obeys A A.init Q) (a : Action C V) :
    A.Moves srv Q g s a ∧ Obeying A Q (A.moved srv g s a) (srv.step s a) := by
  cases a with
  | env v => exact ⟨.evolves v rfl rfl rfl, h.ids, h.obeys, h.later, h.plain⟩
  | spawn c =>
    by_cases hc : srv.accepts c s.world = true
    · have hstep : srv.step s (.spawn c) =
          ⟨s.world, s.threads ++ [⟨⟨s.threads.length, c⟩, srv.body c, .idle⟩]⟩ := by
        simp only [Service.step, hc, if_true]
      rw [hstep]
      exact ⟨.rests (by rw [hstep]) rfl, h.spawn (hbody c)⟩
    · have hstep : srv.step s (.spawn c) = s := by rw [Service.step, if_neg hc]
      rw [hstep]
      exact ⟨.rests (by rw [hstep]) rfl, h⟩
  | run i =>
    cases hadv : srv.advance s i with
    | none =>
      have hstep : srv.step s (.run i) = s := by rw [Service.step, hadv]; rfl
      have hmoved : A.moved srv g s (.run i) = g := by
        simp only [moved, hadv, Option.isSome_none, Bool.false_eq_true, if_false]
        split
        · rfl
        · split <;> rfl
      rw [hmoved, hstep]
      exact ⟨.rests (by rw [hstep]) hmoved, h⟩
    | some p =>
      obtain ⟨s', cm⟩ := p
      have hstep : srv.step s (.run i) = s' := by rw [Service.step, hadv]; rfl
      obtain ⟨t, m, k, ht, hp, hfree, rfl, rfl⟩ := srv.advance_eq hadv
      have hmoved : A.moved srv g s (.run i) =
          Function.update g i (A.next (g i) m (srv.exec t.loc s.world m).reply) := by
        simp only [moved, ht, hp, hadv, Option.isSome_some, if_true]
      rw [hmoved, hstep]
      exact ⟨.runs i t m k rfl ht hp (h.may ht hp) (by rw [hstep]) hmoved,
        h.set ht hp _ (fun hplain => (h.idle srv.toEngine ht (h.may ht hp) hplain).1)
          (hA.exec t.loc s.world m)⟩
  | fault i =>
    cases ht : s.threads[i]? with
    | none =>
      have hstep : srv.step s (.fault i) = s := by simp only [Service.step, Service.interrupt, ht]
      have hmoved : A.moved srv g s (.fault i) = g := by simp only [moved, ht]
      rw [hmoved, hstep]
      exact ⟨.rests (by rw [hstep]) hmoved, h⟩
    | some t =>
      cases hp : t.prog with
      | call m k =>
        have hstep : srv.step s (.fault i) = ⟨s.world, s.threads.set i
            ⟨t.session, k (.error srv.fault), Engine.failed t.loc m⟩⟩ := by
          simp only [Service.step, Service.interrupt, ht, hp]
        have hmoved : A.moved srv g s (.fault i) =
            Function.update g i (A.next (g i) m (.error srv.fault)) := by
          simp only [moved, ht, hp]
        rw [hmoved, hstep]
        exact ⟨.fails i t m k rfl ht hp (h.may ht hp) (by rw [hstep]) hmoved,
          h.set ht hp _ (fun hplain => (h.idle srv.toEngine ht (h.may ht hp) hplain).2)
            (hA.fault m)⟩
      | _ =>
        have hstep : srv.step s (.fault i) = s := by
          simp only [Service.step, Service.interrupt, ht, hp]
        have hmoved : A.moved srv g s (.fault i) = g := by simp only [moved, ht, hp]
        rw [hmoved, hstep]
        exact ⟨.rests (by rw [hstep]) hmoved, h⟩

/-- What every action keeps, together with the states, holds at the end of every run. -/
theorem tracked_of_step {I : (ℕ → G) → System S R ε K W D C α → Prop}
    {M : System S R ε K W D C α → Action C V → Prop} (hA : A.Answered srv.toEngine)
    (hbody : ∀ c, (srv.body c).Obeys A A.init Q)
    (hstep : ∀ g s a, Obeying A Q g s → I g s → M s a → A.Moves srv Q g s a →
      I (A.moved srv g s a) (srv.step s a))
    (hthreads : s.threads = []) (h : I (fun _ => A.init) s) {as : List (Action C V)}
    (hM : srv.Each M s as) :
    Obeying A Q (A.tracked srv s as) (srv.run s as) ∧ I (A.tracked srv s as) (srv.run s as) := by
  have hrun : ∀ (as : List (Action C V)) g s, Obeying A Q g s → I g s → srv.Each M s as →
      Obeying A Q (A.track srv g s as) (srv.run s as) ∧ I (A.track srv g s as) (srv.run s as) := by
    intro as
    induction as with
    | nil => exact fun g s hg hi _ => ⟨hg, hi⟩
    | cons a as ih =>
      intro g s hg hi hM
      obtain ⟨hmoves, hg'⟩ := moves hg hA hbody a
      exact ih _ _ hg' (hstep g s a hg hi hM.1 hmoves) hM.2
  exact hrun as _ s (.nil hthreads) h hM

end Automaton

end TurfSync.Txn
