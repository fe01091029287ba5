import TurfSync.Txn.Runs

/-! Calls that run alone. A program without interference has one outcome, found by
rules that follow its syntax; and a call served alone is a run of the service, so what
holds along every run holds after any calls served one by one. -/

namespace TurfSync.Txn

variable {S : Type} {R : S → Type} {ε K W D C V α β : Type}

/-- The program of a thread that has ended. -/
def Script.ended (r : Except ε α) : Script S R ε α :=
  match r with
  | .ok a => .ret a
  | .error e => .throw e

namespace Engine

variable (E : Engine S R ε K W D C) (c : Session C)

@[simp] theorem solo_ret (a : α) (l : Local K W) (w : D) :
    E.solo c (.ret a : Script S R ε α) l w = (.ok a, l, w) := rfl

@[simp] theorem solo_throw (e : ε) (l : Local K W) (w : D) :
    E.solo c (.throw e : Script S R ε α) l w = (.error e, l, w) := rfl

/-- What follows a step that ended with `r`. -/
def andThen (r : Except ε α × Local K W × D) (f : α → Script S R ε β) :
    Except ε β × Local K W × D :=
  match r with
  | (.ok a, l, w) => E.solo c (f a) l w
  | (.error e, l, w) => (.error e, l, w)

@[simp] theorem andThen_ok (a : α) (l : Local K W) (w : D) (f : α → Script S R ε β) :
    E.andThen c (.ok a, l, w) f = E.solo c (f a) l w := rfl

@[simp] theorem andThen_error (e : ε) (l : Local K W) (w : D) (f : α → Script S R ε β) :
    E.andThen c (.error e, l, w) f = (.error e, l, w) := rfl

@[simp] theorem solo_bind (p : Script S R ε α) (f : α → Script S R ε β) (l : Local K W) (w : D) :
    E.solo c (p.bind f) l w = E.andThen c (E.solo c p l w) f := by
  induction p generalizing l w with
  | ret a => rfl
  | throw e => rfl
  | call m k ih => simp only [Prog.call_bind, solo, ih]

theorem solo_tryCatch (p : Script S R ε α) (h : ε → Script S R ε α) (l : Local K W) (w : D) :
    E.solo c (p.tryCatch h) l w = match E.solo c p l w with
      | (.ok a, l', w') => (.ok a, l', w')
      | (.error e, l', w') => E.solo c (h e) l' w' := by
  induction p generalizing l w with
  | ret a => rfl
  | throw e => rfl
  | call m k ih => simp only [Prog.tryCatch, solo, ih]

theorem solo_tryFinally (p : Script S R ε α) (fin : Script S R ε Unit) (l : Local K W) (w : D) :
    E.solo c (p.tryFinally fin) l w = match E.solo c p l w with
      | (r, l', w') => E.solo c (fin.bind fun _ => Script.ended r) l' w' := by
  induction p generalizing l w with
  | ret a => rfl
  | throw e => rfl
  | call m k ih => simp only [Prog.tryFinally, solo, ih]

theorem solo_inTx (p : Script S R ε α) (l : Local K W) (w : D) :
    E.solo c (Script.inTx p) l w = match E.solo c p l w with
      | (.ok a, l', w') => (.ok a, .idle, E.commit c (l'.tx.getD []) w')
      | (.error e, _, w') => (.error e, .idle, w') := by
  induction p generalizing l w with
  | ret a => rfl
  | throw e => rfl
  | call m k ih => simp only [Script.inTx, solo, ih]

theorem solo_transaction (p : Script S R ε α) (w : D) :
    E.solo c (Script.transaction p) .idle w = match E.solo c p ⟨some [], []⟩ w with
      | (.ok a, l', w') => (.ok a, .idle, E.commit c (l'.tx.getD []) w')
      | (.error e, _, w') => (.error e, .idle, w') := E.solo_inTx c p ⟨some [], []⟩ w

/-- A statement inside a transaction. -/
theorem solo_perform_tx (s : S) (ws : List W) (ks : List K) (w : D) :
    E.solo c (Script.perform s) ⟨some ws, ks⟩ w =
      ((E.act s (E.view ws w) w).reply, ⟨some (ws ++ (E.act s (E.view ws w) w).writes),
        (E.act s (E.view ws w) w).locks ++ ks⟩, (E.act s (E.view ws w) w).world) := by
  simp only [Script.perform, solo, exec, after]
  cases (E.act s (E.view ws w) w).reply <;> rfl

/-- A statement outside any transaction. -/
theorem solo_perform_auto (s : S) (w : D) : E.solo c (Script.perform s) .idle w =
    ((E.act s w w).reply, .idle, if (E.act s w w).writes.isEmpty then (E.act s w w).world
      else E.commit c (E.act s w w).writes (E.act s w w).world) := by
  simp only [Script.perform, solo, exec, after]
  split_ifs <;> cases (E.act s w w).reply <;> rfl

/-- A statement outside any transaction that writes nothing. -/
theorem solo_perform_read (s : S) (w : D) (hw : (E.act s w w).writes = []) :
    E.solo c (Script.perform s) .idle w =
      ((E.act s w w).reply, .idle, (E.act s w w).world) := by
  rw [solo_perform_auto, hw]
  rfl

end Engine

/-! ### Served calls -/

namespace Service

variable [DecidableEq K] (srv : Service S R ε K W D C V α) {s : System S R ε K W D C α}

omit [DecidableEq K] in
theorem heldByOthers_last {ts : List (Thread S R ε K W C α)} (hq : ∀ t ∈ ts, t.loc = .idle)
    (w : D) (t : Thread S R ε K W C α) :
    (⟨w, ts ++ [t]⟩ : System S R ε K W D C α).heldByOthers ts.length = [] := by
  simp only [System.heldByOthers, List.eraseIdx_append_of_length_le (Nat.le_refl _), Nat.sub_self]
  simp only [List.eraseIdx_cons_zero, List.append_nil, List.flatMap_eq_nil_iff]
  intro u hu
  rw [hq u hu]

/-- A thread that runs while every other one is outside its transactions ends as
`solo` says. -/
theorem run_replicate (srv : Service S R ε K W D C V α) (ts : List (Thread S R ε K W C α)) (hq : ∀ t ∈ ts, t.loc = .idle)
    (c : Session C) (p : Script S R ε α) (l : Local K W) (w : D) :
    ∃ n, srv.run ⟨w, ts ++ [⟨c, p, l⟩]⟩ (List.replicate n (.run ts.length)) =
      ⟨(srv.solo c p l w).2.2,
        ts ++ [⟨c, .ended (srv.solo c p l w).1, (srv.solo c p l w).2.1⟩]⟩ := by
  induction p generalizing l w with
  | ret a => exact ⟨0, rfl⟩
  | throw e => exact ⟨0, rfl⟩
  | call m k ih =>
    obtain ⟨n, hn⟩ := ih (srv.exec l w m).reply (srv.exec l w m).loc
      (srv.after c (srv.exec l w m))
    refine ⟨n + 1, ?_⟩
    rw [List.replicate_succ, run_cons]
    have hstep : srv.step ⟨w, ts ++ [⟨c, .call m k, l⟩]⟩ (.run ts.length) =
        ⟨srv.after c (srv.exec l w m),
          ts ++ [⟨c, k (srv.exec l w m).reply, (srv.exec l w m).loc⟩]⟩ := by
      simp [step, advance, heldByOthers_last hq]
    rw [hstep]
    exact hn

omit [DecidableEq K] in
/-- A served call, from the outcome of its program. -/
theorem serve_of_solo {c : C} {r : Except ε α} {l : Local K W} {w : D}
    (h : srv.solo ⟨s.threads.length, c⟩ (srv.body c) .idle s.world = (r, l, w)) :
    srv.serve s c = ⟨w, s.threads ++ [⟨⟨s.threads.length, c⟩, .ended r, l⟩]⟩ := by
  simp only [serve, h]
  cases r <;> rfl

/-- A call that runs alone is a run of the service. -/
theorem serve_eq_run (hq : s.Quiet) {c : C} (hc : srv.accepts c s.world = true) :
    ∃ n, srv.run s (.spawn c :: List.replicate n (.run s.threads.length)) = srv.serve s c := by
  obtain ⟨n, hn⟩ := run_replicate srv s.threads hq ⟨s.threads.length, c⟩
    (srv.body c) .idle s.world
  refine ⟨n, ?_⟩
  rw [run_cons]
  simp only [step, hc, if_true]
  exact hn

end Service

end TurfSync.Txn
