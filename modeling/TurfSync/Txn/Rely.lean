import TurfSync.Txn.Engine

/-! Rely and guarantee for interleaved sessions. `wp` is the weakest precondition of
a program run by one session, with the interference of the others allowed before
every statement: what they may change is `rely`, given the locks the session holds.
Every commit has to meet `post`, and has to stay within what the other sessions
rely on. If each call starts with its weakest precondition, then in every run the
invariant holds, the locks are disjoint, every commit meets `post`, and every
session that ended meets its postcondition. -/

namespace TurfSync.Txn

variable {S : Type} {R : S → Type} {ε K W D C V α β : Type}

/-- What the sessions agree on. `rely n` is what session `n` relies on, `start n`
what it finds when it begins. `allow` bounds the steps considered (the last argument
says whether the statement fails); `post` is what a commit meets, given the locks
held while it commits. -/
structure Rules (S K W D C : Type) where
  inv : D → Prop
  rely : ℕ → List K → D → D → Prop
  start : ℕ → D → Prop
  allow : Session C → Local K W → D → Cmd S → Bool → Prop
  post : Session C → List K → List W → D → Prop

/-- A postcondition of a program: its outcome, the session's state and the world. -/
abbrev Post (ε K W D α : Type) := Except ε α → Local K W → D → Prop

/-- The rules are kept: interference composes, effects outside the store and commits
keep the invariant, and a commit changes nothing that another session with disjoint
locks relies on. -/
structure Rules.Lawful (P : Rules S K W D C) (E : Engine S R ε K W D C) : Prop where
  refl : ∀ n ks w, P.rely n ks w w
  trans : ∀ {n ks w w' w''}, P.rely n ks w w' → P.rely n ks w' w'' → P.rely n ks w w''
  start : ∀ {n w w'}, P.start n w → P.rely n [] w w' → P.start n w'
  act_inv : ∀ s v {w}, P.inv w → P.inv (E.act s v w).world
  act_rely : ∀ s v {w} n ks, P.inv w → P.rely n ks w (E.act s v w).world
  commit_inv : ∀ {c held ws w}, P.inv w → P.post c held ws w → P.inv (E.commit c ws w)
  commit_rely : ∀ {c held ws w n ks}, P.inv w → P.post c held ws w → n ≠ c.id →
    (∀ k ∈ ks, k ∉ held) → P.rely n ks w (E.commit c ws w)

section Wp

variable (E : Engine S R ε K W D C) (P : Rules S K W D C) (c : Session C)

/-- The weakest precondition of a program under interference. -/
def wp : Script S R ε α → Post ε K W D α → Local K W → D → Prop
  | .ret a, Q, l, w => ∀ w', P.rely c.id l.held w w' → P.inv w' → Q (.ok a) l w'
  | .throw e, Q, l, w => ∀ w', P.rely c.id l.held w w' → P.inv w' → Q (.error e) l w'
  | .call m k, Q, l, w => ∀ w', P.rely c.id l.held w w' → P.inv w' →
    (P.allow c l w' m false →
      (∀ ws, (E.exec l w' m).done = some ws →
        P.post c ((E.exec l w' m).needs ++ l.held) ws (E.exec l w' m).base) ∧
      wp (k (E.exec l w' m).reply) Q (E.exec l w' m).loc (E.after c (E.exec l w' m))) ∧
    (P.allow c l w' m true → wp (k (.error E.fault)) Q (Engine.failed l m) w')

variable {E P c}

/-- Interference before the program starts is part of the weakest precondition. -/
theorem wp_rely (hP : P.Lawful E) {p : Script S R ε α} {Q : Post ε K W D α} {l : Local K W}
    {w w' : D} (h : wp E P c p Q l w) (hr : P.rely c.id l.held w w') : wp E P c p Q l w' := by
  cases p with
  | ret a => intro w'' hr'; exact h w'' (hP.trans hr hr')
  | throw e => intro w'' hr'; exact h w'' (hP.trans hr hr')
  | call m k => intro w'' hr'; exact h w'' (hP.trans hr hr')

theorem wp_of_rely (hP : P.Lawful E) {p : Script S R ε α} {Q : Post ε K W D α} {l : Local K W}
    {w : D} (h : ∀ w', P.rely c.id l.held w w' → P.inv w' → wp E P c p Q l w') : wp E P c p Q l w := by
  cases p with
  | ret a => intro w' hr hi; exact h w' hr hi w' (hP.refl _ _ _) hi
  | throw e => intro w' hr hi; exact h w' hr hi w' (hP.refl _ _ _) hi
  | call m k => intro w' hr hi; exact h w' hr hi w' (hP.refl _ _ _) hi

theorem wp_mono {p : Script S R ε α} {Q Q' : Post ε K W D α} {l : Local K W} {w : D}
    (h : wp E P c p Q l w) (hQ : ∀ r l w, P.inv w → Q r l w → Q' r l w) : wp E P c p Q' l w := by
  induction p generalizing l w with
  | ret a => intro w' hr hi; exact hQ _ _ _ hi (h w' hr hi)
  | throw e => intro w' hr hi; exact hQ _ _ _ hi (h w' hr hi)
  | call m k ih =>
    intro w' hr hi
    obtain ⟨hs, hf⟩ := h w' hr hi
    exact ⟨fun ha => ⟨(hs ha).1, ih _ (hs ha).2⟩, fun ha => ih _ (hf ha)⟩

/-- A postcondition may be assumed to survive interference. -/
theorem wp_stable (hP : P.Lawful E) {p : Script S R ε α} {Q : Post ε K W D α} {l : Local K W}
    {w : D} (h : wp E P c p Q l w) :
    wp E P c p (fun r l w => ∀ w', P.rely c.id l.held w w' → P.inv w' → Q r l w') l w := by
  induction p generalizing l w with
  | ret a => intro w' hr _ w'' hr' hi'; exact h w'' (hP.trans hr hr') hi'
  | throw e => intro w' hr _ w'' hr' hi'; exact h w'' (hP.trans hr hr') hi'
  | call m k ih =>
    intro w' hr hi
    obtain ⟨hs, hf⟩ := h w' hr hi
    exact ⟨fun ha => ⟨(hs ha).1, ih _ (hs ha).2⟩, fun ha => ih _ (hf ha)⟩

theorem wp_bind (hP : P.Lawful E) {p : Script S R ε α} {f : α → Script S R ε β}
    {Q : Post ε K W D β} {l : Local K W} {w : D}
    (h : wp E P c p (fun r l w => match r with
      | .ok a => wp E P c (f a) Q l w
      | .error e => Q (.error e) l w) l w) :
    wp E P c (p.bind f) Q l w := by
  induction p generalizing l w with
  | ret a => exact wp_of_rely hP h
  | throw e => exact h
  | call m k ih =>
    intro w' hr hi
    obtain ⟨hs, hf⟩ := h w' hr hi
    exact ⟨fun ha => ⟨(hs ha).1, ih _ (hs ha).2⟩, fun ha => ih _ (hf ha)⟩

theorem wp_tryCatch (hP : P.Lawful E) {p : Script S R ε α} {f : ε → Script S R ε α}
    {Q : Post ε K W D α} {l : Local K W} {w : D}
    (h : wp E P c p (fun r l w => match r with
      | .ok a => Q (.ok a) l w
      | .error e => wp E P c (f e) Q l w) l w) :
    wp E P c (p.tryCatch f) Q l w := by
  induction p generalizing l w with
  | ret a => exact h
  | throw e => exact wp_of_rely hP h
  | call m k ih =>
    intro w' hr hi
    obtain ⟨hs, hf⟩ := h w' hr hi
    exact ⟨fun ha => ⟨(hs ha).1, ih _ (hs ha).2⟩, fun ha => ih _ (hf ha)⟩

theorem wp_tryFinally (hP : P.Lawful E) {p : Script S R ε α} {fin : Script S R ε Unit}
    {Q : Post ε K W D α} {l : Local K W} {w : D}
    (h : wp E P c p (fun r l w => wp E P c fin (fun r' l w => match r' with
      | .ok _ => Q r l w
      | .error e => Q (.error e) l w) l w) l w) :
    wp E P c (p.tryFinally fin) Q l w := by
  induction p generalizing l w with
  | ret a =>
    refine wp_bind hP (wp_of_rely hP fun w' hr hi => wp_mono (wp_stable hP (h w' hr hi)) ?_)
    rintro (e | a') l w hi' hq
    · exact hq w (hP.refl _ _ _) hi'
    · exact hq
  | throw e =>
    refine wp_bind hP (wp_of_rely hP fun w' hr hi => wp_mono (wp_stable hP (h w' hr hi)) ?_)
    rintro (e | a') l w hi' hq
    · exact hq w (hP.refl _ _ _) hi'
    · exact hq
  | call m k ih =>
    intro w' hr hi
    obtain ⟨hs, hf⟩ := h w' hr hi
    exact ⟨fun ha => ⟨(hs ha).1, ih _ (hs ha).2⟩, fun ha => ih _ (hf ha)⟩

/-! ### Statements and transactions -/

/-- The rest of a program after a reply. -/
def resume (r : Except ε α) (f : α → Script S R ε β) : Script S R ε β :=
  match r with
  | .ok a => f a
  | .error e => .throw e

@[simp] theorem resume_ok (a : α) (f : α → Script S R ε β) : resume (.ok a) f = f a := rfl

@[simp] theorem resume_error (e : ε) (f : α → Script S R ε β) :
    resume (.error e) f = .throw e := rfl

theorem perform_bind (s : S) (f : R s → Script S R ε α) :
    (Script.perform s).bind f = .call (.stmt s) fun r => resume r f := by
  simp only [Script.perform, Prog.call_bind]
  congr 1
  funext r
  cases r <;> rfl

theorem wp_throw {e : ε} {Q : Post ε K W D α} {l : Local K W} {w : D}
    (h : ∀ l w, Q (.error e) l w) : wp E P c (.throw e) Q l w :=
  fun w' _ _ => h l w'

/-- A statement inside a transaction. -/
theorem wp_stmt_tx {s : S} {f : R s → Script S R ε β} {Q : Post ε K W D β} {ws : List W}
    {ks : List K} {w : D}
    (h : ∀ w', P.rely c.id ks w w' → P.inv w' → P.allow c ⟨some ws, ks⟩ w' (.stmt s) false →
      wp E P c (resume (E.act s (E.view ws w') w').reply f) Q
        ⟨some (ws ++ (E.act s (E.view ws w') w').writes),
          (E.act s (E.view ws w') w').locks ++ ks⟩ (E.act s (E.view ws w') w').world)
    (hf : ∀ w', P.rely c.id ks w w' → P.inv w' → P.allow c ⟨some ws, ks⟩ w' (.stmt s) true →
      wp E P c (.throw E.fault) Q ⟨some ws, ks⟩ w') :
    wp E P c ((Script.perform s).bind f) Q ⟨some ws, ks⟩ w := by
  rw [perform_bind]
  intro w' hr hi
  exact ⟨fun ha => ⟨by simp [Engine.exec], h w' hr hi ha⟩, fun ha => hf w' hr hi ha⟩

/-- A statement outside any transaction that writes nothing. -/
theorem wp_stmt_read {s : S} {f : R s → Script S R ε β} {Q : Post ε K W D β} {w : D}
    (hw : ∀ v w, (E.act s v w).writes = [])
    (h : ∀ w', P.rely c.id [] w w' → P.inv w' → P.allow c .idle w' (.stmt s) false →
      wp E P c (resume (E.act s w' w').reply f) Q .idle (E.act s w' w').world)
    (hf : ∀ w', P.rely c.id [] w w' → P.inv w' → P.allow c .idle w' (.stmt s) true →
      wp E P c (.throw E.fault) Q .idle w') :
    wp E P c ((Script.perform s).bind f) Q .idle w := by
  rw [perform_bind]
  intro w' hr hi
  have hafter : E.after c (E.exec .idle w' (.stmt s)) = (E.act s w' w').world := by
    simp [Engine.exec, Engine.after, hw]
  refine ⟨fun ha => ⟨by simp [Engine.exec, hw], ?_⟩, fun ha => hf w' hr hi ha⟩
  rw [hafter]
  exact h w' hr hi ha

/-- A statement outside any transaction; what it writes is committed at once. -/
theorem wp_stmt_auto {s : S} {f : R s → Script S R ε β} {Q : Post ε K W D β} {w : D}
    (h : ∀ w', P.rely c.id [] w w' → P.inv w' → P.allow c .idle w' (.stmt s) false →
      ((E.act s w' w').writes = [] →
        wp E P c (resume (E.act s w' w').reply f) Q .idle (E.act s w' w').world) ∧
      ((E.act s w' w').writes ≠ [] →
        P.post c (E.act s w' w').locks (E.act s w' w').writes (E.act s w' w').world ∧
        wp E P c (resume (E.act s w' w').reply f) Q .idle
          (E.commit c (E.act s w' w').writes (E.act s w' w').world)))
    (hf : ∀ w', P.rely c.id [] w w' → P.inv w' → P.allow c .idle w' (.stmt s) true →
      wp E P c (.throw E.fault) Q .idle w') :
    wp E P c ((Script.perform s).bind f) Q .idle w := by
  rw [perform_bind]
  intro w' hr hi
  refine ⟨fun ha => ?_, fun ha => hf w' hr hi ha⟩
  obtain ⟨hnil, hcons⟩ := h w' hr hi ha
  by_cases hw : (E.act s w' w').writes = []
  · have hafter : E.after c (E.exec .idle w' (.stmt s)) = (E.act s w' w').world := by
      simp [Engine.exec, Engine.after, hw]
    refine ⟨by simp [Engine.exec, hw], ?_⟩
    rw [hafter]
    exact hnil hw
  · have hafter : E.after c (E.exec .idle w' (.stmt s)) =
        E.commit c (E.act s w' w').writes (E.act s w' w').world := by
      simp [Engine.exec, Engine.after, hw]
    refine ⟨fun ws hws => ?_, ?_⟩
    · have hws' : (E.act s w' w').writes = ws := by simpa [Engine.exec, hw] using hws
      subst hws'
      simpa [Engine.exec] using (hcons hw).1
    · rw [hafter]
      exact (hcons hw).2

/-- What the body of a transaction owes when it ends: a commit that meets `post`,
or the postcondition after a rollback. -/
def TxPost (E : Engine S R ε K W D C) (P : Rules S K W D C) (c : Session C)
    (Q : Post ε K W D α) : Post ε K W D α
  | .ok a, l, w =>
    (P.allow c l w .commit false →
      P.post c l.held (l.tx.getD []) w ∧
      wp E P c (.ret a) Q .idle (E.commit c (l.tx.getD []) w)) ∧
    (P.allow c l w .commit true → wp E P c (.throw E.fault) Q .idle w)
  | .error e, _, w => wp E P c (.throw e) Q .idle w

theorem wp_inTx {p : Script S R ε α} {Q : Post ε K W D α} {l : Local K W} {w : D}
    (h : wp E P c p (TxPost E P c Q) l w) : wp E P c (Script.inTx p) Q l w := by
  induction p generalizing l w with
  | ret a =>
    intro w' hr hi
    obtain ⟨hs, hf⟩ := h w' hr hi
    exact ⟨fun ha => ⟨by simpa [Engine.exec] using (hs ha).1, (hs ha).2⟩, fun ha => hf ha⟩
  | throw e =>
    intro w' hr hi
    exact ⟨fun _ => ⟨by simp [Engine.exec], h w' hr hi⟩, fun _ => h w' hr hi⟩
  | call m k ih =>
    intro w' hr hi
    obtain ⟨hs, hf⟩ := h w' hr hi
    exact ⟨fun ha => ⟨(hs ha).1, ih _ (hs ha).2⟩, fun ha => ih _ (hf ha)⟩

theorem wp_transaction {p : Script S R ε α} {Q : Post ε K W D α} {w : D}
    (h : ∀ w', P.rely c.id [] w w' → P.inv w' → wp E P c p (TxPost E P c Q) ⟨some [], []⟩ w')
    (hf : ∀ w', P.rely c.id [] w w' → P.inv w' → P.allow c .idle w' .begin true →
      wp E P c (.throw E.fault) Q .idle w') :
    wp E P c (Script.transaction p) Q .idle w := by
  intro w' hr hi
  exact ⟨fun _ => ⟨by simp [Engine.exec], wp_inTx (h w' hr hi)⟩, fun ha => hf w' hr hi ha⟩

/-- The postcondition of a loop body: the invariant on return, `Z` on a throw. -/
def Keeps (J : α → Local K W → D → Prop) (Z : ε → Local K W → D → Prop) : Post ε K W D α
  | .ok a, l, w => J a l w
  | .error e, l, w => Z e l w

/-- A loop that collects rows, with an invariant on the rows collected so far. -/
theorem wp_collect (hP : P.Lawful E) {ι : Type} {f : ι → Script S R ε (Option α)}
    {J : List α → Local K W → D → Prop} {Z : ε → Local K W → D → Prop} {is : List ι}
    (hf : ∀ i ∈ is, ∀ rows l w, J rows l w →
      wp E P c (f i) (Keeps (fun row => J (rows ++ row.toList)) Z) l w)
    (hJ : ∀ rows l w w', J rows l w → P.rely c.id l.held w w' → P.inv w' → J rows l w')
    {l : Local K W} {w : D} {rows : List α} (h : J rows l w) :
    wp E P c (Script.collect f is) (Keeps (fun rest => J (rows ++ rest)) Z) l w := by
  induction is generalizing l w rows with
  | nil => exact fun w' hr hi => by simpa [Keeps] using hJ _ _ _ _ h hr hi
  | cons i is ih =>
    refine wp_bind hP (wp_mono (hf i (by simp) rows l w h) ?_)
    rintro (e | row) l w hi hj
    · exact hj
    · refine wp_bind hP (wp_mono (ih (fun i hi => hf i (by simp [hi])) hj) ?_)
      rintro (e | rest) l w hi hq
      · exact hq
      · intro w' hr hi'
        simpa [Keeps] using hJ _ _ _ _ hq hr hi'

/-- A loop that collects rows, with an invariant on the elements done and the rows collected. -/
theorem wp_collect_past (hP : P.Lawful E) {ι : Type} {f : ι → Script S R ε (Option α)}
    {J : List ι → List α → Local K W → D → Prop} {Z : ε → Local K W → D → Prop} {is : List ι}
    (hf : ∀ i ∈ is, ∀ past rows l w, J past rows l w →
      wp E P c (f i) (Keeps (fun row => J (past ++ [i]) (rows ++ row.toList)) Z) l w)
    (hJ : ∀ past rows l w w', J past rows l w → P.rely c.id l.held w w' → P.inv w' →
      J past rows l w')
    {l : Local K W} {w : D} {past : List ι} {rows : List α} (h : J past rows l w) :
    wp E P c (Script.collect f is) (Keeps (fun rest => J (past ++ is) (rows ++ rest)) Z) l w := by
  induction is generalizing l w past rows with
  | nil => exact fun w' hr hi => by simpa [Keeps] using hJ _ _ _ _ _ h hr hi
  | cons i is ih =>
    refine wp_bind hP (wp_mono (hf i (by simp) past rows l w h) ?_)
    rintro (e | row) l w hi hj
    · exact hj
    · refine wp_bind hP (wp_mono (ih (fun i hi => hf i (by simp [hi])) hj) ?_)
      rintro (e | rest) l w hi hq
      · exact hq
      · intro w' hr hi'
        simpa [Keeps] using hJ _ _ _ _ _ hq hr hi'

theorem wp_forEach_from (hP : P.Lawful E) {ι : Type} {f : ι → Script S R ε Unit}
    {J : List ι → Local K W → D → Prop} {Z : ε → Local K W → D → Prop} {is : List ι}
    (hf : ∀ i ∈ is, ∀ past l w, J past l w →
      wp E P c (f i) (Keeps (fun _ => J (past ++ [i])) Z) l w)
    (hJ : ∀ past l w w', J past l w → P.rely c.id l.held w w' → P.inv w' → J past l w')
    {l : Local K W} {w : D} {past : List ι} (h : J past l w) :
    wp E P c (Script.forEach f is) (Keeps (fun _ => J (past ++ is)) Z) l w := by
  induction is generalizing l w past with
  | nil => exact fun w' hr hi => by simpa [Keeps] using hJ _ _ _ _ h hr hi
  | cons i is ih =>
    refine wp_bind hP (wp_mono (hf i (by simp) past l w h) ?_)
    rintro (e | _) l w hi hj
    · exact hj
    · rw [← List.singleton_append, ← List.append_assoc]
      exact ih (fun i hi => hf i (by simp [hi])) hj

/-- A loop with an invariant on the elements done so far. -/
theorem wp_forEach (hP : P.Lawful E) {ι : Type} {f : ι → Script S R ε Unit}
    {J : List ι → Local K W → D → Prop} {Z : ε → Local K W → D → Prop} {is : List ι}
    (hf : ∀ i ∈ is, ∀ past l w, J past l w →
      wp E P c (f i) (Keeps (fun _ => J (past ++ [i])) Z) l w)
    (hJ : ∀ past l w w', J past l w → P.rely c.id l.held w w' → P.inv w' → J past l w')
    {l : Local K W} {w : D} (h : J [] l w) :
    wp E P c (Script.forEach f is) (Keeps (fun _ => J is) Z) l w :=
  wp_forEach_from hP hf hJ h

end Wp

end TurfSync.Txn
