import TurfSync.Txn.Solo

/-! Services whose calls are one statement each. Such a call takes effect at once, so a
step of a run either ends one call, as if it ran alone, or ends it with a failure that
changes nothing, or ends none. -/

namespace TurfSync.Txn

variable {S : Type} {R : S → Type} {ε K W D C V α : Type}

namespace Service

variable [DecidableEq K] (srv : Service S R ε K W D C V α)

/-- In this step, call `i` ends with outcome `r`. -/
def Ends (t : System S R ε K W D C α) (a : Action C V) (i : ℕ) (c : C) (r : Except ε α) : Prop :=
  ¬ t.Ended i c r ∧ (srv.step t a).Ended i c r

/-- What a call does when it runs alone. -/
def outcome (c : Session C) (w : D) : Except ε α × Local K W × D :=
  srv.solo c (srv.body c.call) .idle w

/-- Every call is one statement. -/
def Atomic : Prop :=
  ∀ c, ∃ (s : S) (f : R s → α), srv.body c = (Script.perform s).bind fun a => .ret (f a)

/-- Every call has yet to issue its statement, or has ended. -/
structure Waiting (t : System S R ε K W D C α) : Prop where
  idle : ∀ th ∈ t.threads, th.loc = .idle
  prog : ∀ th ∈ t.threads, th.prog = srv.body th.session.call ∨ ∃ r, th.prog = .ended r

/-- What a step is to the calls. -/
inductive Turn (t t' : System S R ε K W D C α) : Prop
  | quiet (world : t'.world = t.world ∨ ∃ v, t'.world = srv.evolve v t.world)
      (ends : ∀ i c r, t'.Ended i c r → t.Ended i c r)
  | served (i : ℕ) (c : Session C) (world : t'.world = (srv.outcome c t.world).2.2)
      (new : ∀ c' r, ¬ t.Ended i c' r) (ended : t'.Ended i c.call (srv.outcome c t.world).1)
      (ends : ∀ j c' r, t'.Ended j c' r → t.Ended j c' r ∨
        c' = c.call ∧ r = (srv.outcome c t.world).1)
  | failed (c : C) (world : t'.world = t.world) (ends : ∀ j c' r, t'.Ended j c' r →
      t.Ended j c' r ∨ c' = c ∧ r = .error srv.fault)

variable {srv}

omit [DecidableEq K] in
@[simp] theorem result_ended (r : Except ε α) :
    (Script.ended r : Script S R ε α).result? = some r := by
  cases r <;> rfl

omit [DecidableEq K] in
theorem ended_set {t : System S R ε K W D C α} {th : Thread S R ε K W C α} {i : ℕ} {w : D}
    {j : ℕ} {c : C} {r : Except ε α}
    (h : (⟨w, t.threads.set i th⟩ : System S R ε K W D C α).Ended j c r) :
    t.Ended j c r ∨ j = i ∧ c = th.session.call ∧ th.prog.result? = some r := by
  obtain ⟨u, hu, hc, hr⟩ := h
  rcases getElem?_put hu with ⟨rfl, rfl⟩ | ⟨-, hu⟩
  · exact .inr ⟨rfl, hc.symm, hr⟩
  · exact .inl ⟨u, hu, hc, hr⟩

omit [DecidableEq K] in
/-- A call ends with its statement. -/
theorem Atomic.ended (ha : srv.Atomic) {c : C} {m : Cmd S}
    {k : Except ε (m.Reply R) → Script S R ε α} (hp : srv.body c = .call m k) (w : D) :
    (srv.exec .idle w m).loc = .idle ∧ (∀ r, ∃ o, k r = .ended o) ∧
      ∀ e, k (.error e) = .ended (.error e) := by
  obtain ⟨s, f, hf⟩ := ha c
  rw [hf, perform_bind] at hp
  injection hp with hm hk
  subst hm
  obtain rfl := eq_of_heq hk
  refine ⟨rfl, fun r => ?_, fun e => rfl⟩
  cases r with
  | ok a => exact ⟨.ok (f a), rfl⟩
  | error e => exact ⟨.error e, rfl⟩

omit [DecidableEq K] in
/-- A waiting call issues its statement, or fails. -/
theorem Waiting.set {t : System S R ε K W D C α} (h : srv.Waiting t) {th : Thread S R ε K W C α}
    {i : ℕ} {w : D} (hidle : th.loc = .idle) (hprog : ∃ r, th.prog = .ended r) :
    srv.Waiting ⟨w, t.threads.set i th⟩ where
  idle u hu := by
    rcases List.mem_or_eq_of_mem_set hu with hu | rfl
    · exact h.idle u hu
    · exact hidle
  prog u hu := by
    rcases List.mem_or_eq_of_mem_set hu with hu | rfl
    · exact h.prog u hu
    · exact .inr hprog

theorem Waiting.step (ha : srv.Atomic) {t : System S R ε K W D C α} (h : srv.Waiting t)
    (a : Action C V) : srv.Waiting (srv.step t a) ∧ srv.Turn t (srv.step t a) := by
  cases a with
  | spawn c =>
    by_cases hacc : srv.accepts c t.world = true
    · have hstep : srv.step t (.spawn c) =
          ⟨t.world, t.threads ++ [⟨⟨t.threads.length, c⟩, srv.body c, .idle⟩]⟩ := by
        simp [Service.step, hacc]
      rw [hstep]
      refine ⟨⟨fun u hu => ?_, fun u hu => ?_⟩, .quiet (.inl rfl) fun j c' r he => ?_⟩
      · rcases List.mem_append.mp hu with hu | hu
        · exact h.idle u hu
        · rw [List.mem_singleton.mp hu]
      · rcases List.mem_append.mp hu with hu | hu
        · exact h.prog u hu
        · exact .inl (by rw [List.mem_singleton.mp hu])
      · obtain ⟨u, hu, hc, hr⟩ := he
        simp only [List.getElem?_append] at hu
        split_ifs at hu with hlt
        · exact ⟨u, hu, hc, hr⟩
        · obtain ⟨s, f, hbody⟩ := ha c
          have hmem := List.mem_of_getElem? hu
          rw [List.mem_singleton.mp hmem, hbody] at hr
          cases hr
    · have hstep : srv.step t (.spawn c) = t := by simp [Service.step, hacc]
      rw [hstep]
      exact ⟨h, .quiet (.inl rfl) fun _ _ _ he => he⟩
  | env v => exact ⟨⟨h.idle, h.prog⟩, .quiet (.inr ⟨v, rfl⟩) fun _ _ _ he => he⟩
  | run i =>
    rcases srv.run_eq t i with ⟨hs, -⟩ | ⟨t', o, hadv, hs, -⟩
    · rw [hs]
      exact ⟨h, .quiet (.inl rfl) fun _ _ _ he => he⟩
    · obtain ⟨th, m, k, hth, hp, -, rfl, -⟩ := srv.advance_eq hadv
      have hmem := List.mem_of_getElem? hth
      rw [hs, h.idle th hmem]
      rcases h.prog th hmem with hbody | ⟨r, hr⟩
      · rw [hbody] at hp
        obtain ⟨hloc, hk, -⟩ := ha.ended hp t.world
        obtain ⟨r, hr⟩ := hk (srv.exec .idle t.world m).reply
        have hended : srv.outcome th.session t.world =
            (r, .idle, srv.after th.session (srv.exec .idle t.world m)) := by
          rw [outcome, hp, Engine.solo, hr, hloc]
          cases r <;> rfl
        have hlt : i < t.threads.length := (List.getElem?_eq_some_iff.mp hth).1
        refine ⟨h.set hloc ⟨r, hr⟩, .served i th.session (by rw [hended]) ?_ ?_ ?_⟩
        · rintro c' r' ⟨u, hu, -, hu'⟩
          rw [hth] at hu
          cases hu
          rw [hbody, hp] at hu'
          cases hu'
        · exact ⟨_, List.getElem?_set_self hlt, rfl, by rw [hr, result_ended, hended]⟩
        · intro j c' r' he
          rcases ended_set he with he | ⟨-, hc, hr'⟩
          · exact .inl he
          · simp only [hr, result_ended, Option.some.injEq] at hr'
            exact .inr ⟨hc, by rw [hended, hr']⟩
      · rw [hr] at hp
        cases r <;> cases hp
  | fault i =>
    simp only [Service.step, interrupt]
    split
    · exact ⟨h, .quiet (.inl rfl) fun _ _ _ he => he⟩
    · rename_i th hth
      have hmem := List.mem_of_getElem? hth
      split
      · rename_i m k hp
        rcases h.prog th hmem with hbody | ⟨r, hr⟩
        · rw [hbody] at hp
          obtain ⟨-, -, hk⟩ := ha.ended hp t.world
          have hidle : Engine.failed th.loc m = .idle := by
            rw [h.idle th hmem]
            cases m <;> rfl
          refine ⟨h.set hidle ⟨_, hk _⟩, .failed th.session.call rfl fun j c' r he => ?_⟩
          rcases ended_set he with he | ⟨-, hc, hr⟩
          · exact .inl he
          · simp only [hk, result_ended, Option.some.injEq] at hr
            exact .inr ⟨hc, hr.symm⟩
        · rw [hr] at hp
          cases r <;> cases hp
      · exact ⟨h, .quiet (.inl rfl) fun _ _ _ he => he⟩

end Service

end TurfSync.Txn
