import TurfSync.Txn.Automaton

/-! What the sessions hold back. If every statement writes what is justified by the world it
is executed in, and what is justified stays so, then at any moment all writes that open
transactions hold back are justified, and so are those of a commit. -/

namespace TurfSync.Txn

variable {S : Type} {R : S → Type} {ε K W D C V α : Type} [DecidableEq K]

/-- The writes held back are justified by the world. -/
def System.Pending (Φ : D → W → Prop) (s : System S R ε K W D C α) : Prop :=
  ∀ t ∈ s.threads, ∀ ws ∈ t.loc.tx, ∀ x ∈ ws, Φ s.world x

variable {srv : Service S R ε K W D C V α} {Φ : D → W → Prop} {s : System S R ε K W D C α}

/-- What is justified before a step is so after. -/
def Service.Preserves (srv : Service S R ε K W D C V α) (Φ : D → W → Prop)
    (s : System S R ε K W D C α) (a : Action C V) : Prop :=
  ∀ x, Φ s.world x → Φ (srv.step s a).world x

/-- The next statement of every session writes what the world justifies. -/
def Service.Justifies (srv : Service S R ε K W D C V α) (Φ : D → W → Prop)
    (s : System S R ε K W D C α) : Prop :=
  ∀ t ∈ s.threads, ∀ st k, t.prog = .call (.stmt st) k → ∀ view,
    ∀ x ∈ (srv.act st view s.world).writes, Φ s.world x

namespace System.Pending

omit [DecidableEq K] in
theorem nil (hthreads : s.threads = []) : s.Pending Φ := fun t ht => by simp [hthreads] at ht

omit [DecidableEq K] in
/-- A command of a session leaves justified writes behind, in the session or committed. -/
theorem exec (h : s.Pending Φ) (hj : srv.Justifies Φ s) {t : Thread S R ε K W C α}
    (ht : t ∈ s.threads) {m : Cmd S} {k : Except ε (m.Reply R) → Script S R ε α}
    (hp : t.prog = .call m k) :
    (∀ ws ∈ (srv.exec t.loc s.world m).loc.tx, ∀ x ∈ ws, Φ s.world x) ∧
      ∀ ws ∈ (srv.exec t.loc s.world m).done, ∀ x ∈ ws, Φ s.world x := by
  cases m with
  | begin =>
    refine ⟨fun ws hws x hx => ?_, fun ws hws => by cases hws⟩
    obtain rfl := Option.some.inj hws
    cases hx
  | rollback => exact ⟨fun ws hws => (by cases hws), fun ws hws => by cases hws⟩
  | commit =>
    refine ⟨fun ws hws => (by cases hws), fun ws hws x hx => ?_⟩
    obtain rfl := Option.some.inj hws
    cases htx : t.loc.tx with
    | none => simp [htx] at hx
    | some ws =>
      rw [htx] at hx
      exact h t ht ws htx x hx
  | stmt st =>
    cases htx : t.loc.tx with
    | none =>
      rw [Engine.exec_auto htx]
      refine ⟨fun ws hws => ?_, fun ws hws x hx => ?_⟩
      · rw [htx] at hws
        cases hws
      · simp only at hws
        split at hws
        · cases hws
        · obtain rfl := Option.some.inj hws
          exact hj t ht st k hp s.world x hx
    | some ws₀ =>
      rw [Engine.exec_tx htx]
      refine ⟨fun ws hws x hx => ?_, fun ws hws => by cases hws⟩
      obtain rfl := Option.some.inj hws
      rcases List.mem_append.mp hx with hx | hx
      · exact h t ht ws₀ htx x hx
      · exact hj t ht st k hp _ x hx

/-- What a step commits is justified, and what is still held back stays so. -/
theorem step (h : s.Pending Φ) (hj : srv.Justifies Φ s) {a : Action C V}
    (hΦ : srv.Preserves Φ s a) : (srv.step s a).Pending Φ ∧
      ∀ cm ∈ srv.committed s a, ∀ x ∈ cm.writes, Φ s.world x := by
  have hset : ∀ i (u : Thread S R ε K W C α) w', (∀ ws ∈ u.loc.tx, ∀ x ∈ ws, Φ w' x) →
      (∀ x, Φ s.world x → Φ w' x) → System.Pending Φ ⟨w', s.threads.set i u⟩ := by
    intro i u w' hu hw t ht ws hws x hx
    rcases List.mem_or_eq_of_mem_set ht with ht | rfl
    · exact hw x (h t ht ws hws x hx)
    · exact hu ws hws x hx
  cases a with
  | env v => exact ⟨fun t ht ws hws x hx => hΦ x (h t ht ws hws x hx), fun cm hcm => by cases hcm⟩
  | spawn c =>
    refine ⟨fun t ht ws hws x hx => hΦ x ?_, fun cm hcm => by cases hcm⟩
    simp only [Service.step] at ht
    split_ifs at ht
    · rcases List.mem_append.mp ht with ht | ht
      · exact h t ht ws hws x hx
      · rw [List.mem_singleton.mp ht] at hws
        cases hws
    · exact h t ht ws hws x hx
  | run i =>
    rcases srv.run_eq s i with ⟨hs, hc⟩ | ⟨s', o, hadv, hs, hc⟩
    · rw [hs, hc]
      exact ⟨h, fun cm hcm => by cases hcm⟩
    · obtain ⟨t, m, k, ht, hp, -, rfl, rfl⟩ := srv.advance_eq hadv
      obtain ⟨hloc, hdone⟩ := h.exec hj (List.mem_of_getElem? ht) hp
      have hw : ∀ x, Φ s.world x → Φ (srv.after t.session (srv.exec t.loc s.world m)) x := by
        intro x hx
        have hstep := hΦ x hx
        rwa [hs] at hstep
      refine ⟨?_, fun cm hcm => ?_⟩
      · rw [hs]
        exact hset i _ _ (fun ws hws x hx => hw x (hloc ws hws x hx)) hw
      · rw [hc] at hcm
        obtain ⟨ws, hws, rfl⟩ := Option.map_eq_some_iff.mp hcm
        exact hdone ws hws
  | fault i =>
    refine ⟨?_, fun cm hcm => by cases hcm⟩
    cases ht : s.threads[i]? with
    | none =>
      simp only [Service.step, Service.interrupt, ht]
      exact h
    | some t =>
      cases hp : t.prog with
      | call m k =>
        simp only [Service.step, Service.interrupt, ht, hp]
        refine hset i _ _ (fun ws hws => ?_) fun _ hx => hx
        cases m with
        | commit => cases hws
        | rollback => cases hws
        | _ => exact h t (List.mem_of_getElem? ht) ws hws
      | _ =>
        simp only [Service.step, Service.interrupt, ht, hp]
        exact h

end System.Pending

end TurfSync.Txn
