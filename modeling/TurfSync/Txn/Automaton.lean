import TurfSync.Txn.Embed
import TurfSync.Txn.Footprint

/-! Programs that obey an automaton. The automaton moves with every command of a program
and its reply, and says which commands may come next; what a program obeys follows from
its syntax. In a system every session carries a state of the automaton, and a step moves
the state of one session only. -/

namespace TurfSync.Txn

variable {S : Type} {R : S → Type} {ε K W D C V α β G : Type}

/-- The states `G`, which commands may be issued in each, how they can be answered, and
where a reply leads. -/
structure Automaton (S : Type) (R : S → Type) (ε G : Type) where
  init : G
  may : G → Cmd S → Prop
  answers : (m : Cmd S) → Except ε (m.Reply R) → Prop
  next : G → (m : Cmd S) → Except ε (m.Reply R) → G

/-- The engine answers as the automaton has it, failures included. -/
structure Automaton.Answered (A : Automaton S R ε G) (E : Engine S R ε K W D C) : Prop where
  exec : ∀ l w m, A.answers m (E.exec l w m).reply
  fault : ∀ m, A.answers m (.error E.fault)

namespace Script

variable {A : Automaton S R ε G}

/-- From the state `g` on, every command is one that may come next, whatever it is answered,
and the program ends in a state and with an outcome that meet `Q`. -/
def Obeys (A : Automaton S R ε G) : G → Script S R ε α → (G → Except ε α → Prop) → Prop
  | g, .ret a, Q => Q g (.ok a)
  | g, .throw e, Q => Q g (.error e)
  | g, .call m k, Q => A.may g m ∧ ∀ r, A.answers m r → Obeys A (A.next g m r) (k r) Q

variable {g : G} {p : Script S R ε α} {Q Q' : G → Except ε α → Prop}
  {T : G → Except ε β → Prop}

theorem obeys_mono (h : Obeys A g p Q) (hQ : ∀ g r, Q g r → Q' g r) : Obeys A g p Q' := by
  induction p generalizing g with
  | ret a => exact hQ _ _ h
  | throw e => exact hQ _ _ h
  | call m k ih => exact ⟨h.1, fun r hr => ih r (h.2 r hr)⟩

theorem obeys_bind {f : α → Script S R ε β}
    (h : Obeys A g p fun g r => match r with
      | .ok a => Obeys A g (f a) T
      | .error e => T g (.error e)) : Obeys A g (p.bind f) T := by
  induction p generalizing g with
  | ret a => exact h
  | throw e => exact h
  | call m k ih => exact ⟨h.1, fun r hr => ih r (h.2 r hr)⟩

theorem obeys_tryCatch {f : ε → Script S R ε α}
    (h : Obeys A g p fun g r => match r with
      | .ok a => Q g (.ok a)
      | .error e => Obeys A g (f e) Q) : Obeys A g (p.tryCatch f) Q := by
  induction p generalizing g with
  | ret a => exact h
  | throw e => exact h
  | call m k ih => exact ⟨h.1, fun r hr => ih r (h.2 r hr)⟩

theorem obeys_tryFinally {fin : Script S R ε Unit}
    (h : Obeys A g p fun g r => match r with
      | .ok a => Obeys A g (fin.bind fun _ => .ret a) Q
      | .error e => Obeys A g (fin.bind fun _ => .throw e) Q) : Obeys A g (p.tryFinally fin) Q := by
  induction p generalizing g with
  | ret a => exact h
  | throw e => exact h
  | call m k ih => exact ⟨h.1, fun r hr => ih r (h.2 r hr)⟩

/-- What is returned, if anything is, meets `P`. -/
def Returns (P : G → α → Prop) (g : G) (r : Except ε α) : Prop := ∀ a, r = .ok a → P g a

theorem returns_ok {P : G → α → Prop} {a : α} (h : P g a) : Returns (ε := ε) P g (.ok a) := by
  intro a' ha
  obtain rfl := Except.ok.inj ha
  exact h

theorem returns_error {P : G → α → Prop} {e : ε} : Returns P g (.error e : Except ε α) :=
  fun _ ha => by cases ha

/-- What is left of a transaction. -/
def Closes (A : Automaton S R ε G) (Q : G → Except ε α → Prop) (g : G) : Except ε α → Prop
  | .ok a => A.may g .commit ∧ Q (A.next g .commit (.ok ())) (.ok a) ∧
    ∀ e, Q (A.next g .commit (.error e)) (.error e)
  | .error e => A.may g .rollback ∧ ∀ r, Q (A.next g .rollback r) (.error e)

theorem obeys_inTx (h : Obeys A g p (Closes A Q)) : Obeys A g (inTx p) Q := by
  induction p generalizing g with
  | ret a =>
    refine ⟨h.1, fun r _ => ?_⟩
    cases r with
    | ok u => exact h.2.1
    | error e => exact h.2.2 e
  | throw e => exact ⟨h.1, fun r _ => h.2 r⟩
  | call m k ih => exact ⟨h.1, fun r hr => ih r (h.2 r hr)⟩

theorem obeys_transaction (hbegin : A.may g .begin)
    (h : Obeys A (A.next g .begin (.ok ())) p (Closes A Q))
    (herr : ∀ e, Q (A.next g .begin (.error e)) (.error e)) : Obeys A g (transaction p) Q := by
  refine ⟨hbegin, fun r _ => ?_⟩
  cases r with
  | ok u => exact obeys_inTx h
  | error e => exact herr e

/-- One statement. -/
theorem obeys_stmt {s : S} {f : R s → Script S R ε β} (hmay : A.may g (.stmt s))
    (hok : ∀ a, A.answers (.stmt s) (.ok a) → Obeys A (A.next g (.stmt s) (.ok a)) (f a) T)
    (herr : ∀ e, T (A.next g (.stmt s) (.error e)) (.error e)) :
    Obeys A g ((perform s).bind f) T := by
  refine ⟨hmay, fun r hr => ?_⟩
  cases r with
  | ok a => exact hok a hr
  | error e => exact herr e

/-- A program whose commands can come in any order, as long as `J` holds. -/
theorem obeys_of_uses {φ : Cmd S → Prop} {P : α → Prop} {J : G → Prop}
    (hφ : ∀ g m, φ m → J g → A.may g m ∧ ∀ r, J (A.next g m r)) (hp : Uses φ P p) (hg : J g) :
    Obeys A g p fun g r => J g ∧ ∀ a, r = .ok a → P a := by
  induction p generalizing g with
  | ret a =>
    refine ⟨hg, fun a' ha => ?_⟩
    obtain rfl := Except.ok.inj ha
    exact hp
  | throw e => exact ⟨hg, fun _ ha => nomatch ha⟩
  | call m k ih =>
    obtain ⟨hmay, hnext⟩ := hφ g m hp.1 hg
    exact ⟨hmay, fun r _ => ih r (hp.2 r) (hnext r)⟩

end Script

section

variable {T : Type} {U : T → Type}

/-- The automaton for programs over `S ⊕ T`: statements of `T` are issued by programs that
have issued no others. -/
def Automaton.lift (A : Automaton S R ε G) : Automaton (S ⊕ T) (Sum.elim R U) ε G where
  init := A.init
  may g
    | .stmt (.inl s) => A.may g (.stmt s)
    | .stmt (.inr _) => g = A.init
    | .begin => A.may g .begin
    | .commit => A.may g .commit
    | .rollback => A.may g .rollback
  answers
    | .stmt (.inl s), r => A.answers (.stmt s) r
    | .stmt (.inr _), _ => True
    | .begin, r => A.answers .begin r
    | .commit, r => A.answers .commit r
    | .rollback, r => A.answers .rollback r
  next g
    | .stmt (.inl s), r => A.next g (.stmt s) r
    | .stmt (.inr _), _ => g
    | .begin, r => A.next g .begin r
    | .commit, r => A.next g .commit r
    | .rollback, r => A.next g .rollback r

variable {A : Automaton S R ε G} {g : G} {Q : G → Except ε α → Prop}

theorem Script.obeys_embed {p : Script S R ε α} (h : p.Obeys A g Q) :
    (embed p : Script (S ⊕ T) (Sum.elim R U) ε α).Obeys A.lift g Q := by
  induction p generalizing g with
  | ret a => exact h
  | throw e => exact h
  | call m k ih =>
    cases m with
    | stmt s => exact ⟨h.1, fun r hr => ih r (h.2 r hr)⟩
    | begin => exact ⟨h.1, fun r hr => ih r (h.2 r hr)⟩
    | commit => exact ⟨h.1, fun r hr => ih r (h.2 r hr)⟩
    | rollback => exact ⟨h.1, fun r hr => ih r (h.2 r hr)⟩

/-- A program with statements of `T` only. -/
theorem Script.obeys_right {p : Script (S ⊕ T) (Sum.elim R U) ε α} {P : α → Prop}
    (hp : Uses (fun m => ∃ t, m = .stmt (.inr t)) P p) :
    p.Obeys (A.lift (U := U)) A.init fun g _ => g = A.init := by
  refine obeys_mono (obeys_of_uses (J := fun g => g = A.init) ?_ hp rfl) fun _ _ h => h.1
  rintro g _ ⟨t, rfl⟩ hg
  exact ⟨hg, fun _ => hg⟩

end

/-- No transactions. -/
def Automaton.Plain (A : Automaton S R ε G) : Prop := ∀ g m, A.may g m → ∃ s, m = .stmt s

/-- Programs without transactions, whatever they do. -/
def Automaton.statements (S : Type) (R : S → Type) (ε : Type) : Automaton S R ε Unit where
  init := ()
  may _ m := ∃ s, m = .stmt s
  answers _ _ := True
  next _ _ _ := ()

theorem Automaton.statements_plain : (statements S R ε).Plain := fun _ _ h => h

theorem Automaton.statements_answered (E : Engine S R ε K W D C) :
    (statements S R ε).Answered E := ⟨fun _ _ _ => trivial, fun _ => trivial⟩

theorem Script.obeys_statements {p : Script S R ε α} {P : α → Prop}
    (hp : Uses (fun m => ∃ s, m = .stmt s) P p) (g : Unit) :
    p.Obeys (Automaton.statements S R ε) g fun _ _ => True :=
  obeys_mono (obeys_of_uses (J := fun _ => True) (fun _ _ h _ => ⟨h, fun _ => trivial⟩) hp trivial)
    fun _ _ _ => trivial

namespace Engine

variable {E : Engine S R ε K W D C} {l : Local K W}

/-- A program that runs alone: what every command keeps that may come next, is kept. -/
theorem solo_obeys {A : Automaton S R ε G} {c : Session C} {I : G → Local K W → D → Prop}
    (hanswers : ∀ g l w m, I g l w → A.may g m → A.answers m (E.exec l w m).reply)
    (hI : ∀ g l w m, I g l w → A.may g m → A.answers m (E.exec l w m).reply →
      I (A.next g m (E.exec l w m).reply) (E.exec l w m).loc (E.after c (E.exec l w m)))
    {p : Script S R ε α} {g : G} {Q : G → Except ε α → Prop} (hp : p.Obeys A g Q) {w : D}
    (h : I g l w) : ∃ g', Q g' (E.solo c p l w).1 ∧ I g' (E.solo c p l w).2.1 (E.solo c p l w).2.2 := by
  induction p generalizing g l w with
  | ret a => exact ⟨g, hp, h⟩
  | throw e => exact ⟨g, hp, h⟩
  | call m k ih =>
    have hm := hanswers g l w m h hp.1
    exact ih _ (hp.2 _ hm) (hI g l w m h hp.1 hm)

end Engine

section

variable [DecidableEq K] (srv : Service S R ε K W D C V α) (A : Automaton S R ε G)
  (Q : G → Except ε α → Prop)

/-- Session `i` of the system is in the state `g i`, and obeys the automaton from there. -/
structure Obeying (g : ℕ → G) (s : System S R ε K W D C α) : Prop where
  ids : ∀ (i : ℕ) (t : Thread S R ε K W C α), s.threads[i]? = some t → t.session.id = i
  obeys : ∀ (i : ℕ) (t : Thread S R ε K W C α), s.threads[i]? = some t → t.prog.Obeys A (g i) Q
  later : ∀ i, s.threads.length ≤ i → g i = A.init
  plain : A.Plain → ∀ t ∈ s.threads, t.loc.tx = none

/-- What a step does: the sessions and the world stay as they are, but for a session that
starts; the surroundings move; a session runs its next command; or that fails. -/
inductive Stepped (g : ℕ → G) (s : System S R ε K W D C α) (a : Action C V) : Prop
  | rests (idle : srv.committed s a = none) (world : (srv.step s a).world = s.world)
      (sessions : ∀ (i : ℕ) (t : Thread S R ε K W C α), (srv.step s a).threads[i]? = some t →
        s.threads[i]? = some t ∨ s.threads.length = i ∧ t.loc = .idle)
      (obeying : Obeying A Q g (srv.step s a))
  | evolves (v : V) (idle : srv.committed s a = none)
      (step : srv.step s a = ⟨srv.evolve v s.world, s.threads⟩)
      (obeying : Obeying A Q g (srv.step s a))
  | runs (i : ℕ) (t : Thread S R ε K W C α) (m : Cmd S)
      (k : Except ε (m.Reply R) → Script S R ε α) (action : a = .run i)
      (thread : s.threads[i]? = some t) (prog : t.prog = .call m k) (may : A.may (g i) m)
      (free : ∀ key ∈ (srv.exec t.loc s.world m).needs, key ∉ s.heldByOthers i)
      (committed : srv.committed s a = (srv.exec t.loc s.world m).done.map fun ws =>
        ⟨t.session, ws, (srv.exec t.loc s.world m).base⟩)
      (step : srv.step s a = ⟨srv.after t.session (srv.exec t.loc s.world m), s.threads.set i
        ⟨t.session, k (srv.exec t.loc s.world m).reply, (srv.exec t.loc s.world m).loc⟩⟩)
      (obeying : Obeying A Q
        (Function.update g i (A.next (g i) m (srv.exec t.loc s.world m).reply)) (srv.step s a))
  | fails (i : ℕ) (t : Thread S R ε K W C α) (m : Cmd S)
      (k : Except ε (m.Reply R) → Script S R ε α) (action : a = .fault i)
      (thread : s.threads[i]? = some t) (prog : t.prog = .call m k) (may : A.may (g i) m)
      (idle : srv.committed s a = none)
      (step : srv.step s a = ⟨s.world, s.threads.set i
        ⟨t.session, k (.error srv.fault), Engine.failed t.loc m⟩⟩)
      (obeying : Obeying A Q (Function.update g i (A.next (g i) m (.error srv.fault)))
        (srv.step s a))

variable {srv A Q} {g : ℕ → G} {s : System S R ε K W D C α}

omit [DecidableEq K] in
theorem Obeying.may (h : Obeying A Q g s) {i : ℕ} {t : Thread S R ε K W C α} {m : Cmd S}
    {k : Except ε (m.Reply R) → Script S R ε α} (ht : s.threads[i]? = some t)
    (hp : t.prog = .call m k) : A.may (g i) m := by
  have hobeys := h.obeys i t ht
  rw [hp] at hobeys
  exact hobeys.1

omit [DecidableEq K] in
/-- One session goes on. -/
theorem Obeying.set (h : Obeying A Q g s) {i : ℕ} {t : Thread S R ε K W C α} {m : Cmd S}
    {k : Except ε (m.Reply R) → Script S R ε α} (ht : s.threads[i]? = some t)
    (hp : t.prog = .call m k) (w : D) {l : Local K W} (hl : A.Plain → l.tx = none)
    {r : Except ε (m.Reply R)} (hr : A.answers m r) : Obeying A Q (Function.update g i (A.next (g i) m r))
      ⟨w, s.threads.set i ⟨t.session, k r, l⟩⟩ := by
  have hobeys := h.obeys i t ht
  rw [hp] at hobeys
  have hlt : i < s.threads.length := (List.getElem?_eq_some_iff.mp ht).1
  refine ⟨fun j u hu => ?_, fun j u hu => ?_, fun j hj => ?_, fun hplain u hu => ?_⟩
  · rcases getElem?_put hu with ⟨rfl, rfl⟩ | ⟨-, hu⟩
    · exact h.ids j t ht
    · exact h.ids j u hu
  · rcases getElem?_put hu with ⟨rfl, rfl⟩ | ⟨hji, hu⟩
    · rw [Function.update_self]
      exact hobeys.2 r hr
    · rw [Function.update_of_ne hji]
      exact h.obeys j u hu
  · simp only [List.length_set] at hj
    rw [Function.update_of_ne (Nat.ne_of_gt (Nat.lt_of_lt_of_le hlt hj))]
    exact h.later j hj
  · rcases List.mem_or_eq_of_mem_set hu with hu | rfl
    · exact h.plain hplain u hu
    · exact hl hplain

omit [DecidableEq K] in
/-- A session starts. -/
theorem Obeying.spawn (h : Obeying A Q g s) {c : C} {p : Script S R ε α}
    (hp : p.Obeys A A.init Q) :
    Obeying A Q g ⟨s.world, s.threads ++ [⟨⟨s.threads.length, c⟩, p, .idle⟩]⟩ := by
  refine ⟨fun i t ht => ?_, fun i t ht => ?_, fun i hi => h.later i (Nat.le_trans ?_ hi),
    fun hplain t ht => ?_⟩
  · rcases getElem?_snoc ht with ht | ⟨rfl, rfl⟩
    · exact h.ids i t ht
    · rfl
  · rcases getElem?_snoc ht with ht | ⟨rfl, rfl⟩
    · exact h.obeys i t ht
    · rw [h.later _ (Nat.le_refl _)]
      exact hp
  · simp
  · rcases List.mem_append.mp ht with ht | ht
    · exact h.plain hplain t ht
    · rw [List.mem_singleton.mp ht]

omit [DecidableEq K] in
/-- Outside any transaction a command leaves a session. -/
theorem Obeying.idle (h : Obeying A Q g s) (E : Engine S R ε K W D C) {i : ℕ}
    {t : Thread S R ε K W C α} {m : Cmd S} (ht : s.threads[i]? = some t) (hmay : A.may (g i) m)
    (hplain : A.Plain) : (E.exec t.loc s.world m).loc.tx = none ∧
      (Engine.failed t.loc m).tx = none := by
  have htx := h.plain hplain t (List.mem_of_getElem? ht)
  obtain ⟨st, rfl⟩ := hplain _ _ hmay
  rw [Engine.exec_auto htx]
  exact ⟨htx, htx⟩

theorem Obeying.step (h : Obeying A Q g s) (hA : A.Answered srv.toEngine)
    (hbody : ∀ c, (srv.body c).Obeys A A.init Q) (a : Action C V) : Stepped srv A Q g s a := by
  cases a with
  | env v => exact .evolves v rfl rfl ⟨h.ids, h.obeys, h.later, h.plain⟩
  | spawn c =>
    by_cases hc : srv.accepts c s.world = true
    · have hstep : srv.step s (.spawn c) =
          ⟨s.world, s.threads ++ [⟨⟨s.threads.length, c⟩, srv.body c, .idle⟩]⟩ := by
        simp only [Service.step, hc, if_true]
      refine .rests rfl (by rw [hstep]) (fun i t ht => ?_) (hstep ▸ h.spawn (hbody c))
      rw [hstep] at ht
      rcases getElem?_snoc ht with ht | ⟨hi, rfl⟩
      · exact .inl ht
      · exact .inr ⟨hi.symm, rfl⟩
    · have hstep : srv.step s (.spawn c) = s := by rw [Service.step, if_neg hc]
      exact .rests rfl (by rw [hstep]) (fun i t ht => by rw [hstep] at ht; exact .inl ht) (by rwa [hstep])
  | run i =>
    rcases srv.run_eq s i with ⟨hs, hc⟩ | ⟨s', cm, hadv, hs, hc⟩
    · exact .rests hc (by rw [hs]) (fun i t ht => by rw [hs] at ht; exact .inl ht) (by rwa [hs])
    · obtain ⟨t, m, k, ht, hp, hfree, rfl, rfl⟩ := srv.advance_eq hadv
      have hmay := h.may ht hp
      have hnext := h.set ht hp (srv.after t.session (srv.exec t.loc s.world m))
        (fun hplain => (h.idle srv.toEngine ht hmay hplain).1) (hA.exec t.loc s.world m)
      exact .runs i t m k rfl ht hp hmay hfree hc hs (hs ▸ hnext)
  | fault i =>
    cases ht : s.threads[i]? with
    | none =>
      have hstep : srv.step s (.fault i) = s := by simp only [Service.step, Service.interrupt, ht]
      exact .rests rfl (by rw [hstep]) (fun i t ht => by rw [hstep] at ht; exact .inl ht) (by rwa [hstep])
    | some t =>
      cases hp : t.prog with
      | call m k =>
        have hstep : srv.step s (.fault i) = ⟨s.world, s.threads.set i
            ⟨t.session, k (.error srv.fault), Engine.failed t.loc m⟩⟩ := by
          simp only [Service.step, Service.interrupt, ht, hp]
        have hmay := h.may ht hp
        have hnext := h.set ht hp s.world (fun hplain => (h.idle srv.toEngine ht hmay hplain).2)
          (hA.fault m)
        exact .fails i t m k rfl ht hp hmay rfl hstep (hstep ▸ hnext)
      | ret a =>
        have hstep : srv.step s (.fault i) = s := by
          simp only [Service.step, Service.interrupt, ht, hp]
        exact .rests rfl (by rw [hstep]) (fun i t ht => by rw [hstep] at ht; exact .inl ht) (by rwa [hstep])
      | throw e =>
        have hstep : srv.step s (.fault i) = s := by
          simp only [Service.step, Service.interrupt, ht, hp]
        exact .rests rfl (by rw [hstep]) (fun i t ht => by rw [hstep] at ht; exact .inl ht) (by rwa [hstep])

theorem Stepped.obeying {a : Action C V} (h : Stepped srv A Q g s a) :
    ∃ g', Obeying A Q g' (srv.step s a) := by
  cases h <;> exact ⟨_, by assumption⟩

/-- Without transactions, a step runs one statement and commits what it writes, or it
commits nothing and no statement is run. -/
theorem Stepped.plain {a : Action C V} (h : Stepped srv A Q g s a) (hg : Obeying A Q g s)
    (hA : A.Plain) :
    (srv.committed s a = none ∧
      ((srv.step s a).world = s.world ∨ ∃ v, (srv.step s a).world = srv.evolve v s.world)) ∨
    ∃ t ∈ s.threads, ∃ st, (∀ cm ∈ srv.committed s a, cm.session = t.session ∧
        cm.writes = (srv.act st s.world s.world).writes) ∧
      ((srv.act st s.world s.world).writes ≠ [] → (srv.committed s a).isSome) ∧
      (srv.step s a).world = if (srv.act st s.world s.world).writes = [] then
        (srv.act st s.world s.world).world else
          srv.commit t.session (srv.act st s.world s.world).writes (srv.act st s.world s.world).world := by
  cases h with
  | rests idle world _ _ => exact .inl ⟨idle, .inl world⟩
  | evolves v idle step _ => exact .inl ⟨idle, .inr ⟨v, by rw [step]⟩⟩
  | fails i t m k _ _ _ _ idle step _ => exact .inl ⟨idle, .inl (by rw [step])⟩
  | runs i t m k _ thread _ may _ committed step _ =>
    have ht := List.mem_of_getElem? thread
    obtain ⟨st, rfl⟩ := hA _ _ may
    rw [Engine.exec_auto (hg.plain hA t ht)] at committed
    refine .inr ⟨t, ht, st, fun cm hcm => ?_, fun hws => ?_, ?_⟩
    · rw [committed] at hcm
      obtain ⟨ws, hws, rfl⟩ := Option.map_eq_some_iff.mp hcm
      simp only at hws
      split at hws
      · cases hws
      · exact ⟨rfl, (Option.some.inj hws).symm⟩
    · rw [committed]
      simp [hws]
    · rw [step]
      exact Engine.after_auto (hg.plain hA t ht) t.session s.world st

omit [DecidableEq K] in
theorem Obeying.nil (hthreads : s.threads = []) : Obeying A Q (fun _ => A.init) s where
  ids i t ht := by simp [hthreads] at ht
  obeys i t ht := by simp [hthreads] at ht
  later _ _ := rfl
  plain _ t ht := by simp [hthreads] at ht

/-- What every step keeps, together with the states of the automaton, holds along the run. -/
theorem Service.always_obeying {I : (ℕ → G) → System S R ε K W D C α → Prop}
    {M : System S R ε K W D C α → Action C V → Prop}
    (hA : A.Answered srv.toEngine) (hbody : ∀ c, (srv.body c).Obeys A A.init Q)
    (hstep : ∀ g s a, Obeying A Q g s → I g s → M s a → Stepped srv A Q g s a →
      ∃ g', Obeying A Q g' (srv.step s a) ∧ I g' (srv.step s a))
    (hthreads : s.threads = []) (h : I (fun _ => A.init) s) {as : List (Action C V)}
    (hM : srv.Each M s as) : srv.Always (fun s => ∃ g, Obeying A Q g s ∧ I g s) s as := by
  refine Service.always_of_step ?_ ⟨_, .nil hthreads, h⟩ hM
  rintro s a ⟨g, hg, hi⟩ hm
  exact hstep g s a hg hi hm (hg.step hA hbody a)

end

end TurfSync.Txn
