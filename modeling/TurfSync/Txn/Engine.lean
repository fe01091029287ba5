import Mathlib.Data.List.Basic
import TurfSync.Txn.Program

/-! Sessions over one store under READ COMMITTED. A statement sees the committed
store with the session's own writes replayed on it, may wait for row locks, and
adds writes and locks to the open transaction; a commit replays the writes on the
store and frees the locks, a rollback drops both. Outside a transaction a
statement commits by itself. Effects outside the store happen at once and are not
undone. Any number of sessions interleave statement by statement; a statement may
also fail. An action that is blocked or not enabled leaves the system as it is. -/

namespace TurfSync.Txn

/-- One call in progress: its position in the system and what was called. -/
structure Session (C : Type) where
  id : ℕ
  call : C

/-- The transaction state of a session: its uncommitted writes while a transaction
is open, and the row locks it holds. -/
structure Local (K W : Type) where
  tx : Option (List W)
  held : List K
  deriving DecidableEq

/-- Outside any transaction. -/
abbrev Local.idle {K W : Type} : Local K W := ⟨none, []⟩

/-- What one statement does: its reply, the locks it takes, the writes it adds and
the world after its effects outside the store. -/
structure Effect (ε K W D A : Type) where
  reply : Except ε A
  locks : List K
  writes : List W
  world : D

/-- The meaning of the statements. `act s view world` executes `s` on what the
session sees of the store; `commit` makes a session's writes durable. -/
structure Engine (S : Type) (R : S → Type) (ε K W D C : Type) where
  act : (s : S) → D → D → Effect ε K W D (R s)
  apply : W → D → D
  commit : Session C → List W → D → D
  fault : ε

/-- One executed command: its reply, the locks it needs, the session's state after
it, the world before a commit, and the writes it commits. -/
structure Outcome (ε K W D A : Type) where
  reply : Except ε A
  needs : List K
  loc : Local K W
  base : D
  done : Option (List W)

/-- A committed transaction or statement: who, what, and on which world. -/
structure Commit (C W D : Type) where
  session : Session C
  writes : List W
  base : D

variable {S : Type} {R : S → Type} {ε K W D C V α β : Type}

namespace Engine

variable (E : Engine S R ε K W D C)

/-- What a session sees: the committed store with its own writes. -/
def view (ws : List W) (w : D) : D := ws.foldl (fun w x => E.apply x w) w

def exec (l : Local K W) (w : D) : (m : Cmd S) → Outcome ε K W D (m.Reply R)
  | .begin => ⟨.ok (), [], ⟨some [], l.held⟩, w, none⟩
  | .commit => ⟨.ok (), [], .idle, w, some (l.tx.getD [])⟩
  | .rollback => ⟨.ok (), [], .idle, w, none⟩
  | .stmt s => match l.tx with
    | some ws =>
      let e := E.act s (E.view ws w) w
      ⟨e.reply, e.locks, ⟨some (ws ++ e.writes), e.locks ++ l.held⟩, e.world, none⟩
    | none =>
      let e := E.act s w w
      ⟨e.reply, e.locks, l, e.world, if e.writes.isEmpty then none else some e.writes⟩

/-- The session's state after a command that failed; a lost commit rolls back. -/
def failed (l : Local K W) : Cmd S → Local K W
  | .commit | .rollback => .idle
  | _ => l

/-- The world after a command. -/
def after {A : Type} (c : Session C) (o : Outcome ε K W D A) : D :=
  match o.done with
  | some ws => E.commit c ws o.base
  | none => o.base

/-- Run a program with nobody else around. -/
def solo (c : Session C) : Script S R ε α → Local K W → D → Except ε α × Local K W × D
  | .ret a, l, w => (.ok a, l, w)
  | .throw e, l, w => (.error e, l, w)
  | .call m k, l, w =>
    let o := E.exec l w m
    solo c (k o.reply) o.loc (E.after c o)

section

variable {E} {l : Local K W} {ws : List W}

/-- A statement outside any transaction. -/
theorem exec_auto (hl : l.tx = none) (w : D) (s : S) : E.exec l w (.stmt s) =
    ⟨(E.act s w w).reply, (E.act s w w).locks, l, (E.act s w w).world,
      if (E.act s w w).writes.isEmpty then none else some (E.act s w w).writes⟩ := by
  simp only [exec, hl]

theorem after_auto (hl : l.tx = none) (c : Session C) (w : D) (s : S) :
    E.after c (E.exec l w (.stmt s)) = if (E.act s w w).writes = [] then (E.act s w w).world
      else E.commit c (E.act s w w).writes (E.act s w w).world := by
  rw [exec_auto hl]
  by_cases hw : (E.act s w w).writes = [] <;> simp [after, hw]

/-- A statement in a transaction, which holds back what it writes. -/
theorem exec_tx (hl : l.tx = some ws) (w : D) (s : S) : E.exec l w (.stmt s) =
    ⟨(E.act s (E.view ws w) w).reply, (E.act s (E.view ws w) w).locks,
      ⟨some (ws ++ (E.act s (E.view ws w) w).writes), (E.act s (E.view ws w) w).locks ++ l.held⟩,
      (E.act s (E.view ws w) w).world, none⟩ := by
  simp only [exec, hl]

theorem after_tx (hl : l.tx = some ws) (c : Session C) (w : D) (s : S) :
    E.after c (E.exec l w (.stmt s)) = (E.act s (E.view ws w) w).world := by
  rw [exec_tx hl]
  rfl

/-- Inside a transaction or not, a statement is answered by `act`. -/
theorem exec_reply {s : S} {w : D} {P : Except ε (R s) → Prop}
    (h : ∀ view, P (E.act s view w).reply) (l : Local K W) : P (E.exec l w (.stmt s)).reply := by
  cases hl : l.tx with
  | none =>
    rw [exec_auto hl]
    exact h w
  | some ws =>
    rw [exec_tx hl]
    exact h _

/-- Nothing but `act` moves the world, before a commit. -/
theorem exec_base {s : S} {w : D} {P : D → Prop} (h : ∀ view, P (E.act s view w).world)
    (l : Local K W) : P (E.exec l w (.stmt s)).base := by
  cases hl : l.tx with
  | none =>
    rw [exec_auto hl]
    exact h w
  | some ws =>
    rw [exec_tx hl]
    exact h _

end

end Engine

/-- A session with the rest of its program. -/
structure Thread (S : Type) (R : S → Type) (ε K W C α : Type) where
  session : Session C
  prog : Script S R ε α
  loc : Local K W

/-- A service: the engine, the program of each call, when a call can arrive, and
what the surroundings can do on their own. -/
structure Service (S : Type) (R : S → Type) (ε K W D C V α : Type) extends
    Engine S R ε K W D C where
  body : C → Script S R ε α
  accepts : C → D → Bool
  evolve : V → D → D

/-- The world and every call ever made, finished ones included. -/
structure System (S : Type) (R : S → Type) (ε K W D C α : Type) where
  world : D
  threads : List (Thread S R ε K W C α)

/-- A call arrives, a session executes its next statement, that statement fails,
or the surroundings move. -/
inductive Action (C V : Type) where
  | spawn (c : C)
  | run (i : ℕ)
  | fault (i : ℕ)
  | env (v : V)

theorem getElem?_snoc {X : Type} {xs : List X} {x y : X} {i : ℕ} (h : (xs ++ [x])[i]? = some y) :
    xs[i]? = some y ∨ i = xs.length ∧ y = x := by
  rcases Nat.lt_or_ge i xs.length with hlt | hge
  · rw [List.getElem?_append_left hlt] at h
    exact .inl h
  · rw [List.getElem?_append_right hge] at h
    have hi := (List.getElem?_eq_some_iff.mp h).1
    simp only [List.length_singleton] at hi
    exact .inr ⟨by omega, List.mem_singleton.mp (List.mem_of_getElem? h)⟩

theorem getElem?_put {X : Type} {xs : List X} {x y : X} {i j : ℕ} (h : (xs.set i x)[j]? = some y) :
    j = i ∧ y = x ∨ j ≠ i ∧ xs[j]? = some y := by
  by_cases hji : j = i
  · subst hji
    obtain ⟨hlt, rfl⟩ := List.getElem?_eq_some_iff.mp h
    exact .inl ⟨rfl, List.getElem_set_self hlt⟩
  · rw [List.getElem?_set_ne (Ne.symm hji)] at h
    exact .inr ⟨hji, h⟩

namespace System

/-- The locks held by the sessions other than `i`. -/
def heldByOthers (s : System S R ε K W D C α) (i : ℕ) : List K :=
  (s.threads.eraseIdx i).flatMap (·.loc.held)

/-- No session is inside a transaction. -/
def Quiet (s : System S R ε K W D C α) : Prop := ∀ t ∈ s.threads, t.loc = .idle

instance [DecidableEq K] [DecidableEq W] (s : System S R ε K W D C α) : Decidable s.Quiet :=
  inferInstanceAs (Decidable (∀ t ∈ s.threads, _))

/-- Thread `i` has ended with outcome `r`. -/
def Ended (s : System S R ε K W D C α) (i : ℕ) (c : C) (r : Except ε α) : Prop :=
  ∃ t, s.threads[i]? = some t ∧ t.session.call = c ∧ t.prog.result? = some r

instance [DecidableEq C] [DecidableEq ε] [DecidableEq α] (s : System S R ε K W D C α) (i : ℕ)
    (c : C) (r : Except ε α) : Decidable (s.Ended i c r) :=
  inferInstanceAs (Decidable (∃ t ∈ s.threads[i]?, t.session.call = c ∧ t.prog.result? = some r))

end System

namespace Service

variable [DecidableEq K] (srv : Service S R ε K W D C V α)

/-- Thread `i` executes its next statement, if no other session holds a lock it
needs; with what it commits. -/
def advance (s : System S R ε K W D C α) (i : ℕ) :
    Option (System S R ε K W D C α × Option (Commit C W D)) :=
  match s.threads[i]? with
  | none => none
  | some t => match t.prog with
    | .call m k =>
      let o := srv.exec t.loc s.world m
      if ∀ key ∈ o.needs, key ∉ s.heldByOthers i then
        some (⟨srv.after t.session o, s.threads.set i ⟨t.session, k o.reply, o.loc⟩⟩,
          o.done.map fun ws => ⟨t.session, ws, o.base⟩)
      else none
    | _ => none

/-- The next statement of thread `i` fails. -/
def interrupt (s : System S R ε K W D C α) (i : ℕ) : System S R ε K W D C α :=
  match s.threads[i]? with
  | none => s
  | some t => match t.prog with
    | .call m k =>
      ⟨s.world, s.threads.set i ⟨t.session, k (.error srv.fault), Engine.failed t.loc m⟩⟩
    | _ => s

def step (s : System S R ε K W D C α) : Action C V → System S R ε K W D C α
  | .spawn c =>
    if srv.accepts c s.world then
      ⟨s.world, s.threads ++ [⟨⟨s.threads.length, c⟩, srv.body c, .idle⟩]⟩
    else s
  | .run i => ((srv.advance s i).map Prod.fst).getD s
  | .fault i => srv.interrupt s i
  | .env v => ⟨srv.evolve v s.world, s.threads⟩

/-- What an action commits. -/
def committed (s : System S R ε K W D C α) : Action C V → Option (Commit C W D)
  | .run i => (srv.advance s i).bind Prod.snd
  | _ => none

def run (s : System S R ε K W D C α) (as : List (Action C V)) : System S R ε K W D C α :=
  as.foldl srv.step s

/-- The reply to a call that runs alone. -/
def reply (s : System S R ε K W D C α) (c : C) : Except ε α :=
  (srv.solo ⟨s.threads.length, c⟩ (srv.body c) .idle s.world).1

/-- The system after a call that ran alone. -/
def serve (s : System S R ε K W D C α) (c : C) : System S R ε K W D C α :=
  let r := srv.solo ⟨s.threads.length, c⟩ (srv.body c) .idle s.world
  ⟨r.2.2, s.threads ++ [⟨⟨s.threads.length, c⟩, match r.1 with
    | .ok a => .ret a
    | .error e => .throw e, r.2.1⟩]⟩

@[simp] theorem run_nil (s : System S R ε K W D C α) : srv.run s [] = s := rfl

@[simp] theorem run_cons (s : System S R ε K W D C α) (a : Action C V) (as : List (Action C V)) :
    srv.run s (a :: as) = srv.run (srv.step s a) as := rfl

theorem run_append (s : System S R ε K W D C α) (as bs : List (Action C V)) :
    srv.run s (as ++ bs) = srv.run (srv.run s as) bs := List.foldl_append

theorem advance_eq {s : System S R ε K W D C α} {i : ℕ} {s' o}
    (h : srv.advance s i = some (s', o)) :
    ∃ t m k, s.threads[i]? = some t ∧ t.prog = .call m k ∧
      (∀ key ∈ (srv.exec t.loc s.world m).needs, key ∉ s.heldByOthers i) ∧
      s' = ⟨srv.after t.session (srv.exec t.loc s.world m), s.threads.set i
        ⟨t.session, k (srv.exec t.loc s.world m).reply, (srv.exec t.loc s.world m).loc⟩⟩ ∧
      o = (srv.exec t.loc s.world m).done.map fun ws =>
        ⟨t.session, ws, (srv.exec t.loc s.world m).base⟩ := by
  unfold advance at h
  split at h
  · cases h
  · rename_i t ht
    split at h
    · rename_i m k hp
      simp only at h
      split at h
      · rename_i hfree
        cases h
        exact ⟨t, m, k, ht, hp, hfree, rfl, rfl⟩
      · cases h
    · cases h

theorem run_eq (s : System S R ε K W D C α) (i : ℕ) :
    srv.step s (.run i) = s ∧ srv.committed s (.run i) = none ∨
    ∃ s' o, srv.advance s i = some (s', o) ∧ srv.step s (.run i) = s' ∧
      srv.committed s (.run i) = o := by
  cases h : srv.advance s i with
  | none => exact .inl ⟨by simp [step, h], by simp [committed, h]⟩
  | some p => exact .inr ⟨p.1, p.2, rfl, by simp [step, h], by simp [committed, h]⟩

/-- A part of the world that no effect outside the store and no move of the
surroundings changes is changed by commits only. -/
theorem step_frame {X : Type} (f : D → X) (hact : ∀ st v w, f (srv.act st v w).world = f w)
    (hev : ∀ v w, f (srv.evolve v w) = f w) (s : System S R ε K W D C α) (a : Action C V) :
    (srv.committed s a = none ∧ f (srv.step s a).world = f s.world) ∨
    ∃ cm, srv.committed s a = some cm ∧ f cm.base = f s.world ∧
      (srv.step s a).world = srv.commit cm.session cm.writes cm.base := by
  have hbase : ∀ l w m, f (srv.exec l w m).base = f w := by
    intro l w m
    cases m with
    | stmt st => exact Engine.exec_base (P := (f · = f w)) (fun view => hact st view w) l
    | _ => rfl
  cases a with
  | spawn c =>
    refine .inl ⟨rfl, ?_⟩
    simp only [step]
    split <;> rfl
  | fault i =>
    refine .inl ⟨rfl, ?_⟩
    simp only [step, interrupt]
    split
    · rfl
    · split <;> rfl
  | env v => exact .inl ⟨rfl, hev _ _⟩
  | run i =>
    rcases srv.run_eq s i with ⟨hs, hc⟩ | ⟨s', o, h, hs, hc⟩
    · exact .inl ⟨hc, by rw [hs]⟩
    · obtain ⟨t, m, k, -, -, -, rfl, rfl⟩ := srv.advance_eq h
      rw [hs, hc]
      cases hd : (srv.exec t.loc s.world m).done with
      | none => exact .inl ⟨rfl, by simp [Engine.after, hd, hbase]⟩
      | some ws => exact .inr ⟨_, rfl, hbase _ _ _, by simp [Engine.after, hd]⟩

end Service

end TurfSync.Txn
