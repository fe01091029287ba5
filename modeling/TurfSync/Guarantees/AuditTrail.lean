import TurfSync.Protocol.Recording

/-! Whether the audit log explains the users. An admin request reads a user, changes one
field and records the change with the value it has read, in three statements. Replayed in
the order they were written, the entries lead from the first value of a field to the current
one if every change finds what was read, the changes are recorded in the order they were
made, and none is left out. -/

namespace TurfSync.Accounts

open Txn Journal

namespace Field

variable {T : Type} [DecidableEq T] (f : Field T)

/-- A change finds another value in the field than it writes, and what a session puts into
the audit log is the first change of that field of that user that is not there. -/
def InOrder (t : Sys) (session : ℕ) : List Write → Prop
  | [.userSet id change] => ∀ n ∈ f.written change, ∀ u ∈ t.world.db.user? id, f.read u ≠ n
  | [.auditInsert row] => (f.entry row).isSome →
    ∃ e ∈ (f.pending row.targetId t.world.history).head?, e.session.id = session
  | _ => True

instance (t : Sys) (session : ℕ) : DecidablePred (f.InOrder t session) := fun ws =>
  decidable_of_iff ((match ws with
    | [.userSet id change] =>
      decide (∀ n ∈ f.written change, ∀ u ∈ t.world.db.user? id, f.read u ≠ n)
    | [.auditInsert row] => decide ((f.entry row).isSome →
      ∃ e ∈ (f.pending row.targetId t.world.history).head?, e.session.id = session)
    | _ => true) = true) (by unfold InOrder; split <;> simp only [decide_eq_true_eq])

end Field

/-- Changes and their entries in the audit log are in order, and no call fails between
the two. -/
def AuditsInOrder (cfg : Config) (t : Sys) (a : Act) : Prop :=
  (∀ cm ∈ (service cfg).committed t a, statusField.InOrder t cm.session.id cm.writes ∧
    roleField.InOrder t cm.session.id cm.writes) ∧
  match a with
  | .fault i => ∀ e ∈ unaudited t.world.history, e.session.id ≠ i
  | _ => True

instance (cfg : Config) (t : Sys) (a : Act) : Decidable (AuditsInOrder cfg t a) :=
  @instDecidableAnd _ _ inferInstance (match a with
    | .fault i => inferInstanceAs (Decidable (∀ e ∈ unaudited t.world.history, e.session.id ≠ i))
    | .spawn _ => inferInstanceAs (Decidable True)
    | .run _ => inferInstanceAs (Decidable True)
    | .env _ => inferInstanceAs (Decidable True))

/-- Whenever no call is in progress, the entries of a user that were written since `start`
lead from the `isVerified` and the role that the user had then to the current ones. -/
def Explained (start : Db) (t : Sys) : Prop :=
  (∀ th ∈ t.threads, th.prog.result?.isSome) →
    ∀ id, ∀ u₀ ∈ start.user? id, ∀ u ∈ t.world.db.user? id,
      let rows := (t.world.db.auditLogs.drop start.auditLogs.length).filter (·.targetId = id)
      statusField.replay u₀.isVerified rows = some u.isVerified ∧
        roleField.replay u₀.role rows = some u.role

/-! ### The log leads to the current values -/

namespace Field

variable {T : Type} [DecidableEq T] (f : Field T)

/-- `v` is followed by the new values, each different from the one before, and then by `w`. -/
def Chain : T → List T → T → Prop
  | v, [], w => v = w
  | v, n :: ns, w => v ≠ n ∧ Chain n ns w

variable {f}

omit [DecidableEq T] in
theorem chain_snoc {v w n : T} {ns : List T} (h : Chain v ns w) (hn : w ≠ n) :
    Chain v (ns ++ [n]) n := by
  induction ns generalizing v with
  | nil =>
    obtain rfl := h
    exact ⟨hn, rfl⟩
  | cons m ns ih => exact ⟨h.1, ih h.2⟩

theorem replay_append {v v' : T} {rows rows' : List AuditLog} (h : f.replay v rows = some v') :
    f.replay v (rows ++ rows') = f.replay v' rows' := by
  induction rows generalizing v with
  | nil =>
    obtain rfl := Option.some.inj h
    rfl
  | cons row rows ih =>
    simp only [List.cons_append, replay] at h ⊢
    cases hentry : f.entry row with
    | none =>
      rw [hentry] at h
      exact ih h
    | some entry =>
      rw [hentry] at h
      simp only at h ⊢
      split_ifs at h ⊢
      exact ih h

/-- The entries lead to a value, and the changes that are not in the audit log from there
to the current one. -/
def Led (f : Field T) (start : Db) (new : List AuditLog) (w : World) : Prop :=
  ∀ id, ∀ u₀ ∈ start.user? id, ∀ u ∈ w.db.user? id,
    ∃ v, f.replay (f.read u₀) (new.filter (·.targetId = id)) = some v ∧
      Chain v ((f.pending id w.history).filterMap (f.change? id)) (f.read u)

variable {start : Db} {new : List AuditLog} {w w' : World}

/-- What changes nothing that the audit log shows. -/
theorem Led.rest (h : Led f start new w)
    (husers : ∀ id, ∀ u' ∈ w'.db.user? id, ∃ u ∈ w.db.user? id, f.read u = f.read u')
    (hhistory : unaudited w'.history = unaudited w.history) : Led f start new w' := by
  intro id u₀ hu₀ u' hu'
  obtain ⟨u, hu, hread⟩ := husers id u' hu'
  obtain ⟨v, hreplay, hchain⟩ := h id u₀ hu₀ u hu
  refine ⟨v, hreplay, ?_⟩
  rw [← hread, pending, hhistory]
  exact hchain

omit [DecidableEq T] in
theorem change?_eq {e : Entry} {id id' : UserId} {change : UserChange}
    (he : changes e = some (id', change)) :
    f.change? id e = if id' = id then f.written change else none := by
  simp [change?, he]

/-- A change, which finds another value than it writes. -/
theorem Led.change (h : Led f start new w) {e : Entry} {id : UserId} {change : UserChange}
    (he : changes e = some (id, change)) (hdb : w'.db = w.db.apply (.userSet id change))
    (hhistory : unaudited w'.history = unaudited w.history ++ [e])
    (hother : ∀ n ∈ f.written change, ∀ u ∈ w.db.user? id, f.read u ≠ n) : Led f start new w' := by
  intro id' u₀ hu₀ u' hu'
  rw [hdb, user?_userSet] at hu'
  have hpending : f.pending id' w'.history =
      f.pending id' w.history ++ [e].filter fun e => (f.change? id' e).isSome := by
    rw [pending, hhistory, List.filter_append]
    rfl
  rw [hpending, List.filterMap_append]
  by_cases hid : id' = id
  · subst hid
    rw [if_pos rfl] at hu'
    obtain ⟨u, hu, rfl⟩ := Option.map_eq_some_iff.mp hu'
    obtain ⟨v, hreplay, hchain⟩ := h id' u₀ hu₀ u hu
    refine ⟨v, hreplay, ?_⟩
    cases hwritten : f.written change with
    | none =>
      rw [f.set, hwritten]
      simpa [change?_eq he, hwritten] using hchain
    | some n =>
      rw [f.set, hwritten]
      simpa [change?_eq he, hwritten] using chain_snoc hchain (hother n hwritten u hu)
  · rw [if_neg hid] at hu'
    obtain ⟨v, hreplay, hchain⟩ := h id' u₀ hu₀ u' hu'
    refine ⟨v, hreplay, ?_⟩
    simpa [change?_eq he, Ne.symm hid] using hchain

omit [DecidableEq T] in
/-- The entry of a change is about this change only. -/
theorem pending_filter {es : List Entry} {e : Entry} {id : UserId}
    (hmem : e ∈ unaudited es) (honce : ((unaudited es).map (·.session.id)).Nodup)
    (hchange : f.change? id e = none) :
    (f.pending id es).filter (fun e' => e'.session.id ≠ e.session.id) = f.pending id es := by
  refine List.filter_eq_self.mpr fun e' he' => decide_eq_true fun hsession => ?_
  obtain ⟨hmem', hsome⟩ := List.mem_filter.mp he'
  obtain rfl := List.inj_on_of_nodup_map honce hmem' hmem hsession
  rw [hchange] at hsome
  cases hsome

/-- The entry of the first change that is not in the audit log. -/
theorem Led.audit (h : Led f start new w) {e : Entry} {id : UserId} {change : UserChange}
    {row : AuditLog} (he : changes e = some (id, change)) (hmem : e ∈ unaudited w.history)
    (honce : ((unaudited w.history).map (·.session.id)).Nodup) (hdb : w'.db.users = w.db.users)
    (hhistory : unaudited w'.history =
      (unaudited w.history).filter fun e' => e'.session.id ≠ e.session.id)
    (htarget : row.targetId = id)
    (hentry : f.entry row = (f.written change).map fun n => (f.other n, n))
    (horder : (f.entry row).isSome →
      ∃ e' ∈ (f.pending id w.history).head?, e'.session.id = e.session.id) :
    Led f start (new ++ [row]) w' := by
  intro id' u₀ hu₀ u hu
  have hu' : u ∈ w.db.user? id' := by
    rw [Db.user?, hdb] at hu
    exact hu
  obtain ⟨v, hreplay, hchain⟩ := h id' u₀ hu₀ u hu'
  have hpending : f.pending id' w'.history =
      (f.pending id' w.history).filter fun e' => e'.session.id ≠ e.session.id := by
    simp only [pending, hhistory, List.filter_filter, Bool.and_comm]
  rw [List.filter_append, hpending]
  by_cases hid : id = id'
  · subst hid
    have hrow : [row].filter (fun r => r.targetId = id) = [row] := by simp [htarget]
    rw [hrow, replay_append hreplay]
    cases hwritten : f.written change with
    | none =>
      -- another field
      rw [hwritten, Option.map_none] at hentry
      rw [pending_filter hmem honce (by rw [change?_eq he, if_pos rfl, hwritten])]
      exact ⟨v, by simp [replay, hentry], hchain⟩
    | some n =>
      rw [hwritten, Option.map_some] at hentry
      obtain ⟨e', hhead, hsession⟩ := horder (by rw [hentry]; rfl)
      obtain ⟨rest, hrest⟩ := List.head?_eq_some_iff.mp hhead
      have hmem' : e' ∈ unaudited w.history :=
        (List.mem_filter.mp (show e' ∈ f.pending id w.history by rw [hrest]; simp)).1
      obtain rfl := List.inj_on_of_nodup_map honce hmem' hmem hsession
      have hnodup : ((f.pending id w.history).map (·.session.id)).Nodup :=
        honce.sublist (List.filter_sublist.map _)
      rw [hrest, List.map_cons, List.nodup_cons] at hnodup
      have hkept : rest.filter (fun e => e.session.id ≠ e'.session.id) = rest := by
        refine List.filter_eq_self.mpr fun e he => decide_eq_true fun hs => hnodup.1 ?_
        exact List.mem_map.mpr ⟨e, he, hs⟩
      have hvalue : f.change? id e' = some n := by rw [change?_eq he, if_pos rfl, hwritten]
      rw [hrest, List.filterMap_cons_some hvalue] at hchain
      refine ⟨n, ?_, ?_⟩
      · simp [replay, hentry, f.two v n hchain.1]
      · rw [hrest, List.filter_cons_of_neg (by simp), hkept]
        exact hchain.2
  · have hrow : [row].filter (fun r => r.targetId = id') = [] := by simp [htarget, hid]
    rw [hrow, List.append_nil, pending_filter hmem honce (by rw [change?_eq he, if_neg hid])]
    exact ⟨v, hreplay, hchain⟩

end Field

/-! ### Runs -/

/-- What holds between the steps: the changes that are not in the audit log are those of
the requests that owe their entry. -/
structure Accounted (start : Db) (g : ℕ → Duty) (w : World) : Prop where
  seen : ∀ i, ∀ id ∈ (g i).seen, (w.db.user? id).isSome
  due : ∀ e ∈ unaudited w.history, ∃ id change,
    changes e = some (id, change) ∧ (g e.session.id).stage = .due id change
  duty : ∀ i id change, (g i).stage = .due id change →
    ∃ e ∈ unaudited w.history, e.session.id = i
  once : ((unaudited w.history).map (·.session.id)).Nodup
  ended : ∀ k ∈ w.history, Audits k → (g k.session.id).stage = .over
  logs : ∃ new, w.db.auditLogs = start.auditLogs ++ new ∧ statusField.Led start new w ∧
    roleField.Led start new w

variable {start : Db} {g : ℕ → Duty} {w w' : World}

theorem isSome_user?_apply {db : Db} {id : UserId} (x : Write) (h : (db.user? id).isSome) :
    ((db.apply x).user? id).isSome := by
  cases x with
  | userSet id' change =>
    rw [user?_userSet]
    split_ifs
    · rwa [Option.isSome_map]
    · exact h
  | _ => exact h

/-- A step that nothing in the audit log is about. -/
theorem Accounted.rest {g' : ℕ → Duty} (h : Accounted start g w)
    (hseen : ∀ i, ∀ id ∈ (g' i).seen, (w'.db.user? id).isSome)
    (hstage : ∀ i, (g' i).stage = (g i).stage)
    (hhistory : unaudited w'.history = unaudited w.history)
    (hended : ∀ k ∈ w'.history, Audits k → k ∈ w.history)
    (hlogs : w'.db.auditLogs = w.db.auditLogs)
    (husers : ∀ id, ∀ u' ∈ w'.db.user? id, ∃ u ∈ w.db.user? id,
      u.isVerified = u'.isVerified ∧ u.role = u'.role) : Accounted start g' w' where
  seen := hseen
  due e he := by
    rw [hhistory] at he
    rw [hstage]
    exact h.due e he
  duty i id change hdue := by
    rw [hstage] at hdue
    rw [hhistory]
    exact h.duty i id change hdue
  once := by rw [hhistory]; exact h.once
  ended k hk haudits := by
    rw [hstage]
    exact h.ended k (hended k hk haudits) haudits
  logs := by
    obtain ⟨new, hnew, hstatus, hrole⟩ := h.logs
    refine ⟨new, hlogs.trans hnew, hstatus.rest (fun id u' hu' => ?_) hhistory,
      hrole.rest (fun id u' hu' => ?_) hhistory⟩
    · obtain ⟨u, hu, hread, -⟩ := husers id u' hu'
      exact ⟨u, hu, hread⟩
    · obtain ⟨u, hu, -, hread⟩ := husers id u' hu'
      exact ⟨u, hu, hread⟩

/-- A change by a session that has made none. -/
theorem Accounted.change {i : ℕ} {e : Entry} {id : UserId} {change : UserChange}
    (h : Accounted start g w) (hfresh : (g i).stage = .fresh) (hi : e.session.id = i)
    (he : changes e = some (id, change)) (hdb : w'.db = w.db.apply (.userSet id change))
    (hhistory : w'.history = w.history ++ [e])
    (hstatus : ∀ n ∈ statusField.written change, ∀ u ∈ w.db.user? id, statusField.read u ≠ n)
    (hrole : ∀ n ∈ roleField.written change, ∀ u ∈ w.db.user? id, roleField.read u ≠ n) :
    Accounted start (Function.update g i { g i with stage := .due id change }) w' := by
  have hfirst : ∀ k ∈ w.history, k.session.id = e.session.id → ¬ Audits k := by
    intro k hk hsession haudits
    have hended := h.ended k hk haudits
    rw [hsession, hi, hfresh] at hended
    cases hended
  have hopen : unaudited w'.history = unaudited w.history ++ [e] := by
    rw [hhistory]
    exact unaudited_change (by rw [he]; rfl) hfirst
  -- the session owes nothing yet
  have hnone : ∀ e' ∈ unaudited w.history, e'.session.id ≠ i := by
    rintro e' he' rfl
    obtain ⟨_, _, -, hdue⟩ := h.due e' he'
    rw [hfresh] at hdue
    cases hdue
  exact {
    seen := by
      intro j a ha
      rw [hdb]
      refine isSome_user?_apply _ (h.seen j a ?_)
      by_cases hj : j = i
      · subst hj
        simpa using ha
      · simpa [hj] using ha
    due := by
      intro e' he'
      rw [hopen] at he'
      rcases List.mem_append.mp he' with he' | he'
      · rw [Function.update_of_ne (hnone e' he')]
        exact h.due e' he'
      · obtain rfl := List.mem_singleton.mp he'
        rw [hi, Function.update_self]
        exact ⟨id, change, he, rfl⟩
    duty := by
      intro j id' change' hdue
      rw [hopen]
      by_cases hj : j = i
      · exact ⟨e, by simp, hi.trans hj.symm⟩
      · rw [Function.update_of_ne hj] at hdue
        obtain ⟨e', he', hsession⟩ := h.duty j id' change' hdue
        exact ⟨e', List.mem_append_left _ he', hsession⟩
    once := by
      rw [hopen, List.map_append, List.nodup_append]
      refine ⟨h.once, by simp, ?_⟩
      rintro _ hn _ hm rfl
      obtain ⟨e', he', hn⟩ := List.mem_map.mp hn
      rw [List.map_singleton, List.mem_singleton, hi] at hm
      exact hnone e' he' (hn.trans hm)
    ended := by
      intro k hk haudits
      rw [hhistory] at hk
      rcases List.mem_append.mp hk with hk | hk
      · have hended := h.ended k hk haudits
        have hki : k.session.id ≠ i := by
          rintro rfl
          rw [hfresh] at hended
          cases hended
        rw [Function.update_of_ne hki]
        exact hended
      · obtain rfl := List.mem_singleton.mp hk
        rw [changes_of_audits haudits] at he
        cases he
    logs := by
      obtain ⟨new, hnew, hled, hled'⟩ := h.logs
      refine ⟨new, ?_, hled.change he hdb hopen hstatus, hled'.change he hdb hopen hrole⟩
      rw [hdb]
      exact hnew }

/-- The entry of a change. -/
theorem Accounted.audit {i : ℕ} {k : Entry} {id : UserId} {change : UserChange} {row : AuditLog}
    (h : Accounted start g w) (hdue : (g i).stage = .due id change) (hi : k.session.id = i)
    (hk : k.writes = [.auditInsert row]) (hrecords : Records id change row)
    (hdb : w'.db = w.db.apply (.auditInsert row)) (hhistory : w'.history = w.history ++ [k])
    (hstatus : (statusField.entry row).isSome →
      ∃ e ∈ (statusField.pending row.targetId w.history).head?, e.session.id = i)
    (hrole : (roleField.entry row).isSome →
      ∃ e ∈ (roleField.pending row.targetId w.history).head?, e.session.id = i) :
    Accounted start (Function.update g i { g i with stage := .over }) w' := by
  have haudits : Audits k := by
    unfold Audits
    rw [hk]
    trivial
  have hopen : unaudited w'.history =
      (unaudited w.history).filter fun e => e.session.id ≠ i := by
    rw [hhistory, unaudited_audit haudits, hi]
  have hold : ∀ e, e ∈ unaudited w'.history → e ∈ unaudited w.history ∧ e.session.id ≠ i := by
    intro e he
    rw [hopen] at he
    obtain ⟨hmem, hne⟩ := List.mem_filter.mp he
    exact ⟨hmem, of_decide_eq_true hne⟩
  obtain ⟨e, hmem, hsession⟩ := h.duty i id change hdue
  obtain ⟨id', change', he, hdue'⟩ := h.due e hmem
  rw [hsession, hdue] at hdue'
  cases hdue'
  exact {
    seen := by
      intro j a ha
      rw [hdb]
      refine h.seen j a ?_
      by_cases hj : j = i
      · subst hj
        simpa using ha
      · simpa [hj] using ha
    due := by
      intro e' he'
      obtain ⟨hmem', hne⟩ := hold e' he'
      rw [Function.update_of_ne hne]
      exact h.due e' hmem'
    duty := by
      intro j id' change' hdue'
      by_cases hj : j = i
      · subst hj
        rw [Function.update_self] at hdue'
        cases hdue'
      · rw [Function.update_of_ne hj] at hdue'
        obtain ⟨e', he', rfl⟩ := h.duty j id' change' hdue'
        refine ⟨e', ?_, rfl⟩
        rw [hopen]
        exact List.mem_filter.mpr ⟨he', decide_eq_true hj⟩
    once := by
      rw [hopen]
      exact h.once.sublist (List.filter_sublist.map _)
    ended := by
      intro k' hk' haudits'
      by_cases hj : k'.session.id = i
      · rw [hj, Function.update_self]
      · rw [Function.update_of_ne hj]
        rw [hhistory] at hk'
        rcases List.mem_append.mp hk' with hk' | hk'
        · exact h.ended k' hk' haudits'
        · exact absurd ((List.mem_singleton.mp hk').symm ▸ hi) hj
    logs := by
      obtain ⟨new, hnew, hled, hled'⟩ := h.logs
      have hopen' : unaudited w'.history =
          (unaudited w.history).filter fun e' => e'.session.id ≠ e.session.id := by
        rw [hsession]
        exact hopen
      have husers : w'.db.users = w.db.users := by rw [hdb]; rfl
      refine ⟨new ++ [row], ?_, ?_, ?_⟩
      · rw [hdb, ← List.append_assoc, ← hnew]
        rfl
      · refine hled.audit he hmem h.once husers hopen' hrecords.target hrecords.status fun hs => ?_
        rw [← hrecords.target, hsession]
        exact hstatus hs
      · refine hled'.audit he hmem h.once husers hopen' hrecords.target hrecords.role fun hs => ?_
        rw [← hrecords.target, hsession]
        exact hrole hs }

section

variable {cfg : Config} {i : ℕ} {th : Thread Stmt Stmt.Reply Err Empty Write Call Reply}

/-- An unaudited statement. -/
theorem Accounted.ordinary (h : Accounted start g w) {s : Stmt} (hs : s.unaudited = true)
    (hl : th.loc.tx = none) : Accounted start
      (Function.update g i (recording.next (g i) (.stmt s) ((engine cfg).exec th.loc w (.stmt s)).reply))
      ((engine cfg).after th.session ((engine cfg).exec th.loc w (.stmt s))) := by
  have hstage : ∀ j, (Function.update g i (recording.next (g i) (.stmt s)
      ((engine cfg).exec th.loc w (.stmt s)).reply) j).stage = (g j).stage := by
    intro j
    by_cases hj : j = i
    · subst hj
      rw [Function.update_self, next_unaudited hs]
    · rw [Function.update_of_ne hj]
  have hseen : ∀ j, ∀ id ∈ (Function.update g i (recording.next (g i) (.stmt s)
      ((engine cfg).exec th.loc w (.stmt s)).reply) j).seen, (w.db.user? id).isSome := by
    intro j id hid
    by_cases hj : j = i
    · subst hj
      rw [Function.update_self] at hid
      exact next_seen hl (h.seen j) id hid
    · rw [Function.update_of_ne hj] at hid
      exact h.seen j id hid
  rcases after_stmt cfg th.session hl w s with ⟨-, hdb, hhistory⟩ | ⟨x, m, -, hx, hdb, hhistory⟩
  · refine h.rest ?_ hstage (by rw [hhistory]) (by rw [hhistory]; exact fun k hk _ => hk)
      (by rw [hdb]) (by rw [hdb]; exact fun id u hu => ⟨u, hu, rfl, rfl⟩)
    rw [hdb]
    exact hseen
  · obtain ⟨hchanges, haudits, hlogs, husers⟩ := hx.unaudited hs th.session m w.db
    refine h.rest ?_ hstage ?_ ?_ (by rw [hdb]; exact hlogs) (by rw [hdb]; exact husers)
    · rw [hdb]
      exact fun j id hid => isSome_user?_apply x (hseen j id hid)
    · rw [hhistory]
      exact unaudited_snoc hchanges haudits
    · intro k hk haudits'
      rw [hhistory] at hk
      rcases List.mem_append.mp hk with hk | hk
      · exact hk
      · rw [List.mem_singleton.mp hk] at haudits'
        exact absurd haudits' haudits

/-- What `AuditsInOrder` says about a write. -/
abbrev WriteInOrder (t : Sys) (n : ℕ) (ws : List Write) : Prop :=
  statusField.InOrder t n ws ∧ roleField.InOrder t n ws

/-- The update of an admin request. -/
theorem Accounted.update {t : Sys} (h : Accounted start g t.world) {id : UserId}
    {change : UserChange} (haudited : change.audited = true) (hl : th.loc.tx = none)
    (hid : th.session.id = i) (hfresh : (g i).stage = .fresh)
    (horder : ((engine cfg).act (.update (.userUpdate id change)) t.world t.world).writes ≠ [] →
      WriteInOrder t i ((engine cfg).act (.update (.userUpdate id change)) t.world t.world).writes) :
    Accounted start
      (Function.update g i (recording.next (g i) (.stmt (.update (.userUpdate id change)))
        ((engine cfg).exec th.loc t.world (.stmt (.update (.userUpdate id change)))).reply))
      ((engine cfg).after th.session
        ((engine cfg).exec th.loc t.world (.stmt (.update (.userUpdate id change))))) := by
  have hreply : ((engine cfg).exec th.loc t.world (.stmt (.update (.userUpdate id change)))).reply =
      ((Update.userUpdate id change).plan t.world.db t.world.uuid).1 := by
    rw [Engine.exec_auto hl]
    rfl
  have hwrites : ((engine cfg).act (.update (.userUpdate id change)) t.world t.world).writes =
      ((Update.userUpdate id change).plan t.world.db t.world.uuid).2 := rfl
  rw [hreply]
  cases hu : t.world.db.user? id with
  | none =>
    simp only [Update.plan, hu] at hwrites ⊢
    rcases after_stmt cfg th.session hl t.world (.update (.userUpdate id change)) with
      ⟨-, hdb, hhistory⟩ | ⟨x, m, hx, -⟩
    · rw [show recording.next (g i) _ (.error Err.P2025) = g i from rfl, Function.update_eq_self]
      refine h.rest (by rw [hdb]; exact h.seen) (fun _ => rfl) (by rw [hhistory])
        (by rw [hhistory]; exact fun k hk _ => hk) (by rw [hdb]) ?_
      rw [hdb]
      exact fun id u hu => ⟨u, hu, rfl, rfl⟩
    · cases hx.symm.trans hwrites
  | some u =>
    simp only [Update.plan, hu] at hwrites ⊢
    rcases after_stmt cfg th.session hl t.world (.update (.userUpdate id change)) with
      ⟨hx, -⟩ | ⟨x, m, hx, hissues, hdb, hhistory⟩
    · cases hx.symm.trans hwrites
    · obtain rfl := hissues
      have horder' := horder (by rw [hwrites]; exact List.cons_ne_nil _ _)
      rw [hwrites] at horder'
      have hnext : recording.next (g i) (.stmt (.update (.userUpdate id change)))
          (.ok (change.set u)) = { g i with stage := .due id change } := by
        simp only [recording, haudited, if_true]
      rw [hnext]
      refine h.change hfresh (e := ⟨th.session, [.userSet id change], m⟩) hid ?_ hdb hhistory
        horder'.1 horder'.2
      simp [changes, haudited]

/-- The insertion into the audit log. -/
theorem Accounted.insert {t : Sys} (h : Accounted start g t.world) {row : AuditLog}
    {id : UserId} {change : UserChange} (hl : th.loc.tx = none) (hid : th.session.id = i)
    (hdue : (g i).stage = .due id change) (hrecords : Records id change row)
    (hadmin : row.adminId ∈ (g i).seen)
    (horder : ((engine cfg).act (.update (.auditLogCreate row)) t.world t.world).writes ≠ [] →
      WriteInOrder t i ((engine cfg).act (.update (.auditLogCreate row)) t.world t.world).writes) :
    Accounted start
      (Function.update g i (recording.next (g i) (.stmt (.update (.auditLogCreate row)))
        ((engine cfg).exec th.loc t.world (.stmt (.update (.auditLogCreate row)))).reply))
      ((engine cfg).after th.session
        ((engine cfg).exec th.loc t.world (.stmt (.update (.auditLogCreate row))))) := by
  have hsome : ¬ (t.world.db.user? row.adminId).isNone = true := by
    have hfound := h.seen i row.adminId hadmin
    rw [Option.isNone_iff_eq_none]
    rintro hnone
    rw [hnone] at hfound
    cases hfound
  have hwrites : ((engine cfg).act (.update (.auditLogCreate row)) t.world t.world).writes =
      [.auditInsert row] := by
    show ((Update.auditLogCreate row).plan t.world.db t.world.uuid).2 = _
    simp only [Update.plan, if_neg hsome]
  have hnext : ∀ r, recording.next (g i) (.stmt (.update (.auditLogCreate row))) r =
      { g i with stage := .over } := fun r => by cases r <;> rfl
  rw [hnext]
  rcases after_stmt cfg th.session hl t.world (.update (.auditLogCreate row)) with
    ⟨hx, -⟩ | ⟨x, m, hx, hissues, hdb, hhistory⟩
  · cases hx.symm.trans hwrites
  · obtain rfl := hissues
    have horder' := horder (by rw [hwrites]; exact List.cons_ne_nil _ _)
    rw [hwrites] at horder'
    exact h.audit hdue (k := ⟨th.session, [.auditInsert row], m⟩) hid rfl hrecords hdb hhistory
      horder'.1 horder'.2

end

/-- In the end no entry is owed. -/
abbrev NoneDue (d : Duty) (_ : Except Err Reply) : Prop := ∀ id change, d.stage ≠ .due id change

theorem Accounted.step {cfg : Config} {t : Sys} {a : Act} (hg : Obeying recording NoneDue g t)
    (h : Accounted start g t.world) (ha : AuditsInOrder cfg t a)
    (hstep : Stepped (service cfg) recording NoneDue g t a) :
    ∃ g', Obeying recording NoneDue g' ((service cfg).step t a) ∧
      Accounted start g' ((service cfg).step t a).world := by
  cases hstep with
  | rests _ hworld _ hobeying => exact ⟨g, hobeying, by rw [hworld]; exact h⟩
  | evolves v _ hstep hobeying =>
    refine ⟨g, hobeying, ?_⟩
    rw [hstep]
    exact ⟨h.seen, h.due, h.duty, h.once, h.ended, h.logs⟩
  | fails i th m k haction hth hp hmay _ hstep hobeying =>
    refine ⟨_, hobeying, ?_⟩
    subst haction
    obtain ⟨s, rfl⟩ := recording_plain _ _ hmay
    -- a session that owes an entry does not fail
    have hfresh : (g i).stage = .fresh := by
      by_contra hne
      have hdue : ∃ id change, (g i).stage = .due id change := by
        cases s with
        | update u =>
          cases u with
          | auditLogCreate row =>
            obtain ⟨id, change, hdue, -⟩ := hmay
            exact ⟨id, change, hdue⟩
          | _ => exact absurd hmay hne
        | _ => exact absurd hmay hne
      obtain ⟨id, change, hdue⟩ := hdue
      obtain ⟨e, he, hsession⟩ := h.duty i id change hdue
      exact ha.2 e he hsession
    have hnext : recording.next (g i) (.stmt s) (.error (service cfg).fault) = g i := by
      cases s with
      | update u =>
        cases u with
        | auditLogCreate row =>
          obtain ⟨id, change, hdue, -⟩ := hmay
          rw [hfresh] at hdue
          cases hdue
        | _ => rfl
      | query q => cases q <;> rfl
      | external x => rfl
    rw [hstep, hnext, Function.update_eq_self]
    exact h
  | runs i th m k haction hth hp hmay hfree hcommitted hstep hobeying =>
    refine ⟨_, hobeying, ?_⟩
    have hl := hg.plain recording_plain th (List.mem_of_getElem? hth)
    have hid := hg.ids i th hth
    obtain ⟨s, rfl⟩ := recording_plain _ _ hmay
    have horder : ((engine cfg).act s t.world t.world).writes ≠ [] →
        WriteInOrder t i ((engine cfg).act s t.world t.world).writes := by
      intro hws
      have hdone : ((engine cfg).exec th.loc t.world (.stmt s)).done =
          some ((engine cfg).act s t.world t.world).writes := by
        rw [Engine.exec_auto hl]
        simp [hws]
      have hcm := ha.1 _ (hcommitted.trans (congrArg _ hdone))
      rwa [hid] at hcm
    rw [hstep]
    by_cases hs : s.unaudited = true
    · exact h.ordinary hs hl
    · cases s with
      | query q => exact absurd rfl hs
      | external x => exact absurd rfl hs
      | update u =>
        cases u with
        | userUpdate id change =>
          refine h.update ?_ hl hid hmay horder
          cases change with
          | role r => rfl
          | isVerified v => rfl
          | _ => exact absurd rfl hs
        | auditLogCreate row =>
          obtain ⟨id, change, hdue, hrecords, hadmin⟩ := hmay
          exact h.insert hl hid hdue hrecords hadmin horder
        | _ => exact absurd rfl hs

/-- Where every request has ended, nothing is missing in the audit log. -/
theorem Accounted.explained {t : Sys} (hg : Obeying recording NoneDue g t)
    (h : Accounted start g t.world) : Explained start t := by
  intro hended id u₀ hu₀ u hu
  have hnone : unaudited t.world.history = [] := by
    refine List.eq_nil_iff_forall_not_mem.mpr fun e he => ?_
    obtain ⟨id, change, -, hdue⟩ := h.due e he
    rcases Nat.lt_or_ge e.session.id t.threads.length with hlt | hge
    · have hth := List.getElem?_eq_getElem hlt
      have hobeys := hg.obeys _ _ hth
      have hended := hended _ (List.getElem_mem hlt)
      cases hp : t.threads[e.session.id].prog with
      | ret a =>
        rw [hp] at hobeys
        exact hobeys id change hdue
      | throw err =>
        rw [hp] at hobeys
        exact hobeys id change hdue
      | call m k =>
        rw [hp] at hended
        cases hended
    · rw [hg.later _ hge] at hdue
      cases hdue
  obtain ⟨new, hnew, hstatus, hrole⟩ := h.logs
  have hdrop : t.world.db.auditLogs.drop start.auditLogs.length = new := by
    rw [hnew, List.drop_left]
  have hend : ∀ {T : Type} [DecidableEq T] (f : Field T), f.Led start new t.world →
      f.replay (f.read u₀) (new.filter (·.targetId = id)) = some (f.read u) := by
    intro T _ f hled
    obtain ⟨v, hreplay, hchain⟩ := hled id u₀ hu₀ u hu
    rw [Field.pending, hnone] at hchain
    obtain rfl : v = f.read u := hchain
    exact hreplay
  rw [hdrop]
  exact ⟨hend statusField hstatus, hend roleField hrole⟩

/-- In every run in which changes and their entries are in order and no call fails between
the two, the audit log explains the users. -/
theorem explained_always {cfg : Config} {s : Sys} {as : List Act} (hthreads : s.threads = [])
    (hhistory : s.world.history = []) (horder : (service cfg).Each (AuditsInOrder cfg) s as) :
    (service cfg).Always (Explained s.world.db) s as := by
  have hnone : unaudited s.world.history = [] := by rw [hhistory]; rfl
  have hled : ∀ {T : Type} [DecidableEq T] (f : Field T), f.Led s.world.db [] s.world := by
    intro T _ f id u₀ hu₀ u hu
    obtain rfl := Option.some.inj (hu₀.symm.trans hu)
    exact ⟨f.read u₀, rfl, by rw [Field.pending, hnone]; rfl⟩
  have hstart : Accounted s.world.db (fun _ => recording.init) s.world := {
    seen := fun i id hid => by cases hid
    due := fun e he => by simp [hnone] at he
    duty := fun i id change hdue => by cases hdue
    once := by simp [hnone]
    ended := fun k hk => by simp [hhistory] at hk
    logs := ⟨[], by simp, hled _, hled _⟩ }
  refine (Service.always_obeying (I := fun g t => Accounted s.world.db g t.world)
    (recording_answered cfg) (body_keeps cfg) (fun g t a hg hi ha hstep => hi.step hg ha hstep)
    hthreads hstart horder).mono ?_
  rintro t ⟨g, hg, hi⟩
  exact hi.explained hg

/-- Ana makes Eve an admin while Ben takes her verification away. -/
theorem explained_office : (service Office.cfg).Always (Explained Office.sys.world.db) Office.sys
    (Office.first 0 (.makeAdmin (Office.jwt Office.ana 60) 7) 3 ++
      Office.first 1 (.toggleUserStatus (Office.jwt Office.ben 61) 7) 4 ++ [.run 0]) :=
  explained_always rfl rfl (by decide +kernel)

/-- Ana and Ben toggle Eve's status; both have read that she is verified. -/
theorem explained_fails :
    let t := (service Office.cfg).run Office.sys
      (Office.first 0 (.toggleUserStatus (Office.jwt Office.ana 60) 7) 2 ++
        Office.first 1 (.toggleUserStatus (Office.jwt Office.ben 61) 7) 4 ++
        List.replicate 2 (.run 0))
    (∀ th ∈ t.threads, th.prog.result?.isSome) ∧ ¬ Explained Office.sys.world.db t := by
  intro t
  have hended : ∀ th ∈ t.threads, th.prog.result?.isSome := by decide +kernel
  have hreplay : statusField.replay true
      ((t.world.db.auditLogs.drop 0).filter (·.targetId = 7)) = none := by decide +kernel
  have hu : ∃ u ∈ t.world.db.user? 7, u.isVerified = false := by decide +kernel
  refine ⟨hended, fun h => ?_⟩
  obtain ⟨u, hu, -⟩ := hu
  have hstatus := (h hended 7 Office.eve rfl u hu).1
  cases hreplay.symm.trans hstatus

end TurfSync.Accounts
