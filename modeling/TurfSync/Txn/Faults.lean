import TurfSync.Txn.Solo

/-! A program that runs alone until one of its commands fails. The rest of the program, from
the failure on, still runs. A transaction that catches nothing and has no effect outside the
store is cut to nothing: it leaves the world as it was, or it runs as if no command failed. -/

namespace TurfSync.Txn

variable {S : Type} {R : S → Type} {ε K W D C V α β : Type}

/-- Nobody else runs, and command number `n` fails. -/
def Engine.soloFault (E : Engine S R ε K W D C) (c : Session C) :
    ℕ → Script S R ε α → Local K W → D → Except ε α × Local K W × D
  | _, .ret a, l, w => (.ok a, l, w)
  | _, .throw e, l, w => (.error e, l, w)
  | 0, .call m k, l, w => E.solo c (k (.error E.fault)) (Engine.failed l m) w
  | n + 1, .call m k, l, w =>
    let o := E.exec l w m
    soloFault E c n (k o.reply) o.loc (E.after c o)

/-- The system after a call that ran alone and failed at command `n`. -/
def Service.serveFault (srv : Service S R ε K W D C V α) (s : System S R ε K W D C α) (n : ℕ)
    (c : C) : System S R ε K W D C α :=
  let r := srv.soloFault ⟨s.threads.length, c⟩ n (srv.body c) .idle s.world
  ⟨r.2.2, s.threads ++ [⟨⟨s.threads.length, c⟩, .ended r.1, r.2.1⟩]⟩

namespace Script

/-- Every command meets `φ`, and an error of it is thrown at once. -/
def Strict (φ : Cmd S → Prop) : Script S R ε α → Prop
  | .ret _ => True
  | .throw _ => True
  | .call m k => φ m ∧ (∀ e, k (.error e) = .throw e) ∧ ∀ r, Strict φ (k r)

variable {φ : Cmd S → Prop} {p : Script S R ε α} {f : α → Script S R ε β}

theorem strict_bind (hp : Strict φ p) (hf : ∀ a, Strict φ (f a)) : Strict φ (p.bind f) := by
  induction p with
  | ret a => exact hf a
  | throw e => trivial
  | call m k ih =>
    refine ⟨hp.1, fun e => ?_, fun r => ih r (hp.2.2 r)⟩
    show (k (.error e)).bind f = .throw e
    rw [hp.2.1 e]
    rfl

theorem strict_perform {s : S} (h : φ (.stmt s)) : Strict φ (perform s : Script S R ε (R s)) := by
  refine ⟨h, fun e => rfl, fun r => ?_⟩
  cases r <;> trivial

end Script

namespace Engine

variable (E : Engine S R ε K W D C) (c : Session C)

/-- A statement without any effect outside the store. -/
def Silent : Cmd S → Prop
  | .stmt s => ∀ v w, (E.act s v w).world = w
  | _ => False

theorem soloFault_map (p : Script S R ε α) (g : α → β) (n : ℕ) (l : Local K W) (w : D) :
    E.soloFault c n (p.bind fun a => .ret (g a)) l w =
      ((E.soloFault c n p l w).1.map g, (E.soloFault c n p l w).2) := by
  induction p generalizing n l w with
  | ret a => cases n <;> rfl
  | throw e => cases n <;> rfl
  | call m k ih =>
    cases n with
    | zero =>
      show E.solo c ((k (.error E.fault)).bind fun a => .ret (g a)) (failed l m) w = _
      rw [solo_bind]
      simp only [soloFault]
      rcases E.solo c (k (.error E.fault)) (failed l m) w with ⟨_ | _, l', w'⟩ <;> rfl
    | succ n => exact ih _ n _ _

/-- The statement runs, and writes nothing. -/
theorem soloFault_read (s : S) (f : R s → Script S R ε β) (n : ℕ) (w : D)
    (hw : (E.act s w w).writes = []) : E.soloFault c (n + 1) ((Script.perform s).bind f) .idle w =
      E.soloFault c n (resume (E.act s w w).reply f) .idle (E.act s w w).world := by
  rw [perform_bind]
  simp only [soloFault, exec, after, hw, List.isEmpty_nil, if_true]

/-- What is left of a transaction. -/
theorem soloFault_inTx {p : Script S R ε α} (hp : p.Strict E.Silent) (n : ℕ) {l : Local K W}
    (hl : l.tx.isSome) (w : D) :
    (∃ e, E.soloFault c n (Script.inTx p) l w = (.error e, .idle, w)) ∨
      E.soloFault c n (Script.inTx p) l w = E.solo c (Script.inTx p) l w := by
  induction p generalizing n l with
  | ret a =>
    cases n with
    | zero => exact .inl ⟨E.fault, rfl⟩
    | succ n => exact .inr (by cases n <;> rfl)
  | throw e =>
    cases n with
    | zero => exact .inl ⟨e, rfl⟩
    | succ n => exact .inr (by cases n <;> rfl)
  | call m k ih =>
    obtain ⟨hm, hthrow, hrest⟩ := hp
    cases m with
    | begin | commit | rollback => exact hm.elim
    | stmt s =>
      cases n with
      | zero =>
        refine .inl ⟨E.fault, ?_⟩
        show E.solo c (Script.inTx (k (.error E.fault))) l w = _
        rw [hthrow]
        rfl
      | succ n =>
        obtain ⟨ws, hws⟩ := Option.isSome_iff_exists.mp hl
        have hexec : E.after c (E.exec l w (.stmt s)) = w ∧
            (E.exec l w (.stmt s)).loc.tx.isSome := by
          simp only [exec, hws, after]
          exact ⟨hm _ _, rfl⟩
        have hnext := ih (E.exec l w (.stmt s)).reply (hrest _) n hexec.2
        simp only [Script.inTx, soloFault, solo, hexec.1]
        exact hnext

/-- A failure in a transaction, at whichever point, undoes it. -/
theorem soloFault_transaction {p : Script S R ε α} (hp : p.Strict E.Silent) (n : ℕ) (w : D) :
    (∃ e, E.soloFault c n (Script.transaction p) .idle w = (.error e, .idle, w)) ∨
      E.soloFault c n (Script.transaction p) .idle w =
        E.solo c (Script.transaction p) .idle w := by
  cases n with
  | zero => exact .inl ⟨E.fault, rfl⟩
  | succ n => exact E.soloFault_inTx c hp n rfl w

/-- Whether a command of it fails or none does, the program ends outside its transactions. -/
def Settles (p : Script S R ε α) : Prop :=
  ∀ n w, (E.soloFault c n p .idle w).2.1 = .idle

variable {E c}

theorem settles_throw (e : ε) : E.Settles c (.throw e : Script S R ε α) := by
  intro n w
  cases n <;> rfl

theorem settles_perform {s : S} {f : R s → Script S R ε β} (hf : ∀ a, E.Settles c (f a)) :
    E.Settles c ((Script.perform s).bind f) := by
  intro n w
  cases n with
  | zero => rfl
  | succ n =>
    rw [perform_bind]
    simp only [soloFault, exec]
    cases (E.act s w w).reply with
    | ok a => exact hf a n _
    | error e => exact settles_throw e n _

theorem settles_transaction {p : Script S R ε α} (hp : p.Strict E.Silent) (g : α → β) :
    E.Settles c ((Script.transaction p).bind fun a => .ret (g a)) := by
  intro n w
  rw [soloFault_map]
  obtain ⟨e, he⟩ | hsolo := E.soloFault_transaction c hp n w
  · rw [he]
  · rw [hsolo, solo_transaction]
    rcases E.solo c p ⟨some [], []⟩ w with ⟨_ | _, l, w'⟩ <;> rfl

end Engine

/-! ### Served calls -/

namespace Service

variable [DecidableEq K] (srv : Service S R ε K W D C V α) {s : System S R ε K W D C α}

/-- A thread that runs while every other one is outside its transactions, and whose command
`n` fails. -/
theorem run_fault (ts : List (Thread S R ε K W C α)) (hq : ∀ t ∈ ts, t.loc = .idle)
    (c : Session C) (p : Script S R ε α) (n : ℕ) (l : Local K W) (w : D) :
    ∃ as, srv.run ⟨w, ts ++ [⟨c, p, l⟩]⟩ as = ⟨(srv.soloFault c n p l w).2.2,
      ts ++ [⟨c, .ended (srv.soloFault c n p l w).1, (srv.soloFault c n p l w).2.1⟩]⟩ := by
  induction p generalizing n l w with
  | ret a => exact ⟨[], by cases n <;> rfl⟩
  | throw e => exact ⟨[], by cases n <;> rfl⟩
  | call m k ih =>
    cases n with
    | zero =>
      obtain ⟨j, hj⟩ := run_replicate srv ts hq c (k (.error srv.fault)) (Engine.failed l m) w
      refine ⟨.fault ts.length :: List.replicate j (.run ts.length), ?_⟩
      have hstep : srv.step ⟨w, ts ++ [⟨c, .call m k, l⟩]⟩ (.fault ts.length) =
          ⟨w, ts ++ [⟨c, k (.error srv.fault), Engine.failed l m⟩]⟩ := by
        simp [step, interrupt]
      rw [run_cons, hstep]
      exact hj
    | succ n =>
      obtain ⟨as, has⟩ := ih (srv.exec l w m).reply n (srv.exec l w m).loc
        (srv.after c (srv.exec l w m))
      refine ⟨.run ts.length :: as, ?_⟩
      have hstep : srv.step ⟨w, ts ++ [⟨c, .call m k, l⟩]⟩ (.run ts.length) =
          ⟨srv.after c (srv.exec l w m),
            ts ++ [⟨c, k (srv.exec l w m).reply, (srv.exec l w m).loc⟩]⟩ := by
        simp [step, advance, heldByOthers_last hq]
      rw [run_cons, hstep]
      exact has

/-- A call that runs alone and fails at one command is a run of the service. -/
theorem serveFault_eq_run (hq : s.Quiet) {c : C} (hc : srv.accepts c s.world = true) (n : ℕ) :
    ∃ as, srv.run s as = srv.serveFault s n c := by
  obtain ⟨as, has⟩ := run_fault srv s.threads hq ⟨s.threads.length, c⟩ (srv.body c) n .idle s.world
  refine ⟨.spawn c :: as, ?_⟩
  rw [run_cons]
  simp only [step, hc, if_true]
  exact has

omit [DecidableEq K] in
theorem serveFault_quiet (hq : s.Quiet) {c : C} (n : ℕ)
    (hb : srv.Settles ⟨s.threads.length, c⟩ (srv.body c)) : (srv.serveFault s n c).Quiet := by
  intro t ht
  rcases List.mem_append.mp ht with ht | ht
  · exact hq t ht
  · rw [List.mem_singleton.mp ht]
    exact hb n s.world

end Service

end TurfSync.Txn
