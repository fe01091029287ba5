import TurfSync.Protocol.Accounts

/-! Every request on accounts keeps to the journal. The programs are read forward, from
the entries that the request has made so far. -/

namespace TurfSync.Accounts

open Txn Journal

/-- What every step of the others leaves alone, and the time, which goes on. -/
abbrev rules (cfg : Config) : Rules Stmt Empty Write World Call :=
  Journal.rules World.history World.moment (fun w w' => w.now ≤ w'.now) World.Recorded (Acts cfg)

theorem kept (cfg : Config) :
    Kept (engine cfg) World.history World.moment fun w w' => w.now ≤ w'.now where
  refl _ := Int.le_refl _
  trans := Int.le_trans
  act s _ w := by
    cases s with
    | query q => exact ⟨rfl, Int.le_refl _⟩
    | update u => exact ⟨rfl, Int.le_refl _⟩
    | external x => cases x <;> exact ⟨rfl, Int.le_refl _⟩
  commit _ _ _ := ⟨rfl, Int.le_refl _⟩

theorem World.Recorded.out {w w' : World} (h : w.Recorded) (hdb : w'.db = w.db)
    (hhistory : w'.history = w.history) (hnow : w.now ≤ w'.now) (huuid : w.uuid ≤ w'.uuid) :
    w'.Recorded where
  chained := by rw [hdb, hhistory]; exact h.chained
  times e he := Int.le_trans (h.times e (hhistory ▸ he)) hnow
  valid := by rw [hdb]; exact h.valid
  valids := by rw [hhistory]; exact h.valids
  drawn r hr := by
    rw [hdb, hhistory] at hr
    obtain ⟨hid, hjti⟩ := h.drawn r hr
    exact ⟨Nat.lt_of_lt_of_le hid huuid, Nat.lt_of_lt_of_le hjti huuid⟩

theorem recorded_act {cfg : Config} (s : Stmt) (v : World) {w : World} (h : w.Recorded) :
    ((engine cfg).act s v w).world.Recorded := by
  cases s with
  | query q => exact h
  | update u => exact h.out rfl rfl (Int.le_refl _) (Nat.le_add_right _ 3)
  | external x =>
    cases x with
    | dateNow => exact h
    | argon2Hash _ => exact h.out rfl rfl (Int.le_refl _) (Nat.le_succ _)
    | randomBytes => exact h.out rfl rfl (Int.le_refl _) (Nat.le_succ _)
    | sendPasswordResetEmail _ _ _ => exact h.out rfl rfl (Int.le_refl _) (Nat.le_refl _)

theorem recorded_commit {cfg : Config} {c : Session Call} {ws : List Write} {w : World}
    (h : w.Recorded) (hact : Acts cfg w.history ⟨c, ws, w.moment⟩) :
    ((engine cfg).commit c ws w).Recorded where
  chained := by
    obtain ⟨db, hdb⟩ := h.chained
    exact ⟨db, hdb.snoc (e := ⟨c, ws, w.moment⟩) rfl⟩
  times e he := by
    rcases List.mem_append.mp he with he | he
    · exact h.times e he
    · rw [List.mem_singleton.mp he]
      exact Int.le_refl _
  valid := hact.valid h.valid
  valids e he := by
    rcases List.mem_append.mp he with he | he
    · exact h.valids e he
    · rw [List.mem_singleton.mp he]
      exact h.valid
  drawn r hr := by
    have hold : ∀ e ∈ w.history ++ [⟨c, ws, w.moment⟩], r ∈ e.before.db.refreshTokens →
        r.id < w.uuid ∧ r.token.token.jti < w.uuid := by
      intro e he hr
      rcases List.mem_append.mp he with he | he
      · exact h.drawn r (.inr ⟨e, he, hr⟩)
      · rw [List.mem_singleton.mp he] at hr
        exact h.drawn r (.inl hr)
    rcases hr with hr | ⟨e, he, hr⟩
    · rcases hact.rows hr with hr | hws
      · exact h.drawn r (.inl hr)
      · exact (hact.of_insert hws).2.2
    · exact hold e he hr

section

variable {cfg : Config} {c : Session Call} {es : List Entry} {α : Type}
  {Q : Post Err Empty Write World α}

/-- A program that keeps to the journal from where the request has come. -/
abbrev Holds (cfg : Config) (c : Session Call) (es : List Entry) (p : Op α)
    (Q : Post Err Empty Write World α) : Prop :=
  Journal.Holds (engine cfg) World.history (rules cfg) c es p Q

theorem lawful (cfg : Config) : (rules cfg).Lawful (engine cfg) :=
  Journal.rules_lawful (kept cfg) (fun s v _ => recorded_act s v) fun _ _ _ h _ hact =>
    recorded_commit h hact

theorem holds_query {q : Query} {f : q.Reply → Op α}
    (h : ∀ m, Holds cfg c (es ++ [⟨c, [.seen q], m⟩]) (f (q.eval m.db)) Q)
    (hf : ∀ e, Holds cfg c es (.throw e) Q) : Holds cfg c es ((query q).bind f) Q :=
  holds_stmt (kept cfg) (lawful cfg)
    (fun w _ _ => ⟨fun hw => (List.cons_ne_nil _ _ hw).elim, fun _ => ⟨.seen, h w.moment⟩⟩) (hf _)

theorem holds_external {x : External} {f : x.Reply → Op α}
    (h : ∀ r, Holds cfg c es (f r) Q) (hf : ∀ e, Holds cfg c es (.throw e) Q) :
    Holds cfg c es ((external x).bind f) Q :=
  holds_stmt (kept cfg) (lawful cfg)
    (fun w _ _ => ⟨fun _ => h (x.eval cfg w).1, fun hw => absurd rfl hw⟩) (hf _)

/-- The clock is read after the entries that the request has made. -/
theorem holds_dateNow {f : Time → Op α}
    (h : ∀ t, (∀ e ∈ es, e.before.now ≤ t) → Holds cfg c es (f t) Q)
    (hf : ∀ e, Holds cfg c es (.throw e) Q) :
    Holds cfg c es ((external .dateNow).bind f) Q := by
  refine holds_stmt (kept cfg) (lawful cfg) (fun w hw hes => ⟨fun _ => ?_, fun h => absurd rfl h⟩)
    (hf _)
  refine h w.now fun e he => hw.times e ?_
  rw [← hes] at he
  exact (mem_own.mp he).1

theorem holds_userUpdate {id : UserId} {change : UserChange} {f : User → Op α}
    (hact : ∀ past m, own c.id past = es → Acts cfg past ⟨c, [.userSet id change], m⟩)
    (h : ∀ m user, m.db.user? id = some user →
      Holds cfg c (es ++ [⟨c, [.userSet id change], m⟩]) (f (change.set user)) Q)
    (hf : ∀ e, Holds cfg c es (.throw e) Q) :
    Holds cfg c es ((update (.userUpdate id change)).bind f) Q := by
  refine holds_stmt (kept cfg) (lawful cfg) (fun w _ hes => ?_) (hf _)
  simp only [engine, Stmt.act, Update.plan]
  cases huser : w.db.user? id with
  | none => exact ⟨fun _ => hf _, fun hw => absurd rfl hw⟩
  | some user => exact ⟨fun hw => (List.cons_ne_nil _ _ hw).elim, fun _ => ⟨hact _ _ hes, h ⟨_, _, _⟩ user huser⟩⟩

theorem holds_tokenCreate {payload : JwtPayload} {expiresAt : Time} {f : TokenPair → Op α}
    (hcred : Credential cfg c es payload.sub)
    (h : ∀ m row pair, row.token = ⟨pair.refreshToken⟩ →
      Holds cfg c (es ++ [⟨c, [.tokenInsert row], m⟩]) (f pair) Q)
    (hf : ∀ e, Holds cfg c es (.throw e) Q) :
    Holds cfg c es ((update (.tokenCreate payload expiresAt)).bind f) Q := by
  refine holds_stmt (kept cfg) (lawful cfg) (fun w hw hes => ?_) (hf _)
  simp only [engine, Stmt.act, Update.plan]
  split_ifs with huser htaken
  · exact ⟨fun _ => hf _, fun hw => absurd rfl hw⟩
  · exact ⟨fun _ => hf _, fun hw => absurd rfl hw⟩
  · refine ⟨fun hw => hw.elim, fun _ => ⟨.issued (by rw [hes]; exact hcred) ?_ ?_,
      h _ _ _ rfl⟩⟩
    · -- the id and the `jti` are drawn now
      intro r hr
      obtain ⟨hid, hjti⟩ := hw.drawn r hr
      refine ⟨fun he => ?_, fun he => ?_⟩
      · rw [he, newToken] at hid
        simp at hid
      · rw [he, newToken] at hjti
        simp at hjti
    · show w.uuid + 2 < w.uuid + 3 ∧ w.uuid + 1 < w.uuid + 3
      omega

theorem holds_tokenDelete {id : ℕ} {f : Unit → Op α}
    (hact : ∀ past m, own c.id past = es → (∃ r ∈ m.db.refreshTokens, r.id = id) →
      Acts cfg past ⟨c, [.tokenDelete (.row id)], m⟩)
    (h : ∀ m, Holds cfg c (es ++ [⟨c, [.tokenDelete (.row id)], m⟩]) (f ()) Q)
    (hf : ∀ e, Holds cfg c es (.throw e) Q) :
    Holds cfg c es ((update (.tokenDelete id)).bind f) Q := by
  refine holds_stmt (kept cfg) (lawful cfg) (fun w _ hes => ?_) (hf _)
  simp only [engine, Stmt.act, Update.plan]
  split_ifs with hrow
  · exact ⟨fun hw => hw.elim, fun _ => ⟨hact _ _ hes hrow, h _⟩⟩
  · exact ⟨fun _ => hf _, fun hw => absurd rfl hw⟩

theorem holds_tokenDeleteMany {scope : Scope} {f : ℕ → Op α}
    (hact : ∀ past m, own c.id past = es → Acts cfg past ⟨c, [.tokenDelete scope], m⟩)
    (h : ∀ m n, Holds cfg c (es ++ [⟨c, [.tokenDelete scope], m⟩]) (f n) Q)
    (hf : ∀ e, Holds cfg c es (.throw e) Q) :
    Holds cfg c es ((update (.tokenDeleteMany scope)).bind f) Q :=
  holds_stmt (kept cfg) (lawful cfg)
    (fun _ _ hes => ⟨fun hw => (List.cons_ne_nil _ _ hw).elim, fun _ => ⟨hact _ _ hes, h _ _⟩⟩) (hf _)

theorem holds_auditLogCreate {data : AuditLog} {f : Unit → Op α}
    (hact : ∀ past m, own c.id past = es → Acts cfg past ⟨c, [.auditInsert data], m⟩)
    (h : ∀ m, Holds cfg c (es ++ [⟨c, [.auditInsert data], m⟩]) (f ()) Q)
    (hf : ∀ e, Holds cfg c es (.throw e) Q) :
    Holds cfg c es ((update (.auditLogCreate data)).bind f) Q := by
  refine holds_stmt (kept cfg) (lawful cfg) (fun w _ hes => ?_) (hf _)
  simp only [engine, Stmt.act, Update.plan]
  split_ifs with hadmin
  · exact ⟨fun _ => hf _, fun hw => absurd rfl hw⟩
  · exact ⟨fun hw => hw.elim, fun _ => ⟨hact _ _ hes, h _⟩⟩

/-! ### The requests -/

/-- The entries of a refresh request that returned tokens. -/
inductive Rotated (c : Session Call) (token : Jwt) : Reply → List Entry → Prop
  | intro {v f d s i : Entry} {stored row : RefreshToken} {q q' : Query} {pair : TokenPair}
      (validated : v.writes = [.seen q]) (presented : Presented c token stored f)
      (deleted : d.writes = [.tokenDelete (.row stored.id)]) (user : s.writes = [.seen q'])
      (inserted : i.writes = [.tokenInsert row]) (returned : row.token = ⟨pair.refreshToken⟩) :
      Rotated c token (.tokens pair) [v, f, d, s, i]

/-- What a refresh request has done when it ends; nothing is said of the others. -/
def Answers (c : Session Call) : Post Err Empty Write World Reply := fun r _ w =>
  ∀ token, c.call = .refresh token → match r with
    | .ok reply => Rotated c token reply (own c.id w.history)
    | .error _ => ∀ e ∈ own c.id w.history, ∀ row, e.writes ≠ [.tokenInsert row]

theorem jwt_holds {payload : JwtPayload} {f : User → Op α}
    (h : ∀ m user, m.db.user? payload.sub = some user →
      Holds cfg c (es ++ [⟨c, [.seen (.userById payload.sub)], m⟩]) (f user) Q)
    (hf : ∀ es e, Holds cfg c es (.throw e) Q) :
    Holds cfg c es ((JwtStrategy.validate payload).bind f) Q := by
  rw [JwtStrategy.validate, Prog.bind_eq, Prog.bind_assoc]
  refine holds_query (fun m => ?_) (hf _)
  simp only [Query.eval]
  cases huser : m.db.user? payload.sub with
  | none => exact hf _ _
  | some user => exact h m user huser

/-- The guards of an admin route. -/
theorem adminRoute_holds {accessToken : Jwt} {service : UserId → Op Reply}
    {Q : Post Err Empty Write World Reply}
    (h : ∀ g : Entry, (∃ admin, g.before.db.user? accessToken.sub = some admin ∧
      admin.role = .ADMIN) → Holds cfg c [g] (service accessToken.sub) Q)
    (hf : ∀ es e, Holds cfg c es (.throw e) Q) :
    Holds cfg c [] (adminRoute accessToken service) Q := by
  rw [adminRoute, Prog.bind_eq]
  refine jwt_holds (fun m user huser => ?_) hf
  rw [Prog.bind_eq, RolesGuard.canActivate]
  split_ifs with hrole
  · rw [(Rows.lookup_some huser).2]
    exact h ⟨c, _, m⟩ ⟨user, huser, hrole⟩
  · exact hf _ _

/-- A user that a request looks up, or an error. -/
theorem userById_holds {userId : UserId} {f : User → Op α} {err : Err}
    (h : ∀ m user, m.db.user? userId = some user → user.id = userId →
      Holds cfg c (es ++ [⟨c, [.seen (.userById userId)], m⟩]) (f user) Q)
    (hf : ∀ es e, Holds cfg c es (.throw e) Q) :
    Holds cfg c es ((query (.userById userId)).bind fun found : Option User => match found with
      | none => .throw err
      | some user => f user) Q := by
  refine holds_query (fun m => ?_) (hf _)
  simp only [Query.eval]
  cases huser : m.db.user? userId with
  | none => exact hf _ _
  | some user => exact h m user huser (Rows.lookup_some huser).2

/-- The body of an admin request: one read, one change, one entry in the audit log. -/
theorem manage_holds {adminId : UserId} {userId : UserId} {change : UserChange}
    {f : User → AuditLog} {r : User → Reply} {g s : Entry} {user : User} {row : AuditLog}
    {Q : Post Err Empty Write World Reply} (hid : user.id = userId)
    (managing : Managing c adminId user change row g s)
    (hrow : ∀ u : User, f (change.set u) = row)
    (hret : ∀ es a, Holds cfg c es (.ret a) Q) (hf : ∀ es e, Holds cfg c es (.throw e) Q) :
    Holds cfg c [g, s] ((update (.userUpdate userId change)).bind fun updated =>
      (AdminService.createAuditLog (f updated)).bind fun _ => .ret (r updated)) Q := by
  subst hid
  refine holds_userUpdate (fun past m hown => .managed hown managing) (fun m u hu => ?_) (hf _)
  rw [hrow]
  exact holds_auditLogCreate (fun past m' hown => .audited hown managing rfl)
    (fun m' => hret _ _) (hf _)

theorem toggleUserStatus_holds {accessToken : Jwt} {userId : UserId}
    {Q : Post Err Empty Write World Reply} (call : c.call = .toggleUserStatus accessToken userId)
    (hret : ∀ es a, Holds cfg c es (.ret a) Q) (hf : ∀ es e, Holds cfg c es (.throw e) Q) :
    Holds cfg c [] (adminRoute accessToken (AdminService.toggleUserStatus userId)) Q := by
  refine adminRoute_holds (fun g hg => ?_) hf
  rw [AdminService.toggleUserStatus]
  split_ifs with hself
  · exact hf _ _
  refine userById_holds (fun m user huser hid => ?_) hf
  have hmanages := @Manages.toggled accessToken userId user
  rw [← call] at hmanages
  exact manage_holds hid ⟨hmanages, hg, hid ▸ huser, hid.symm, hid ▸ hself⟩ (fun _ => rfl) hret hf

theorem makeAdmin_holds {accessToken : Jwt} {userId : UserId}
    {Q : Post Err Empty Write World Reply} (call : c.call = .makeAdmin accessToken userId)
    (hret : ∀ es a, Holds cfg c es (.ret a) Q) (hf : ∀ es e, Holds cfg c es (.throw e) Q) :
    Holds cfg c [] (adminRoute accessToken (AdminService.makeAdmin userId)) Q := by
  refine adminRoute_holds (fun g hg => ?_) hf
  rw [AdminService.makeAdmin]
  split_ifs with hself
  · exact hf _ _
  refine userById_holds (fun m user huser hid => ?_) hf
  split_ifs with hrole
  · exact hf _ _
  · exact manage_holds hid ⟨call ▸ .promoted hrole, hg, hid ▸ huser, hid.symm, hid ▸ hself⟩
      (fun _ => rfl) hret hf

theorem demoteAdmin_holds {accessToken : Jwt} {userId : UserId}
    {Q : Post Err Empty Write World Reply} (call : c.call = .demoteAdmin accessToken userId)
    (hret : ∀ es a, Holds cfg c es (.ret a) Q) (hf : ∀ es e, Holds cfg c es (.throw e) Q) :
    Holds cfg c [] (adminRoute accessToken (AdminService.demoteAdmin userId)) Q := by
  refine adminRoute_holds (fun g hg => ?_) hf
  rw [AdminService.demoteAdmin]
  split_ifs with hself
  · exact hf _ _
  refine userById_holds (fun m user huser hid => ?_) hf
  split_ifs with hrole
  · exact hf _ _
  · exact manage_holds hid ⟨call ▸ .demoted (not_not.mp hrole), hg, hid ▸ huser, hid.symm,
      hid ▸ hself⟩ (fun _ => rfl) hret hf

theorem generateTokens_holds {payload : JwtPayload} {f : TokenPair → Op α}
    (hcred : Credential cfg c es payload.sub)
    (h : ∀ m row pair, row.token = ⟨pair.refreshToken⟩ →
      Holds cfg c (es ++ [⟨c, [.tokenInsert row], m⟩]) (f pair) Q)
    (hf : ∀ e, Holds cfg c es (.throw e) Q) :
    Holds cfg c es ((AuthService.generateTokens cfg payload).bind f) Q := by
  rw [AuthService.generateTokens, Prog.bind_eq, Prog.bind_assoc]
  exact holds_dateNow (fun t _ => holds_tokenCreate hcred h hf) hf

theorem checkLockout_holds {user : User} {f : Unit → Op α} (h : Holds cfg c es (f ()) Q)
    (hf : ∀ e, Holds cfg c es (.throw e) Q) :
    Holds cfg c es ((AuthService.checkLockout user).bind f) Q := by
  rw [AuthService.checkLockout]
  cases user.lockoutUntil with
  | none => exact h
  | some t =>
    simp only [Prog.bind_eq, Prog.bind_assoc]
    refine holds_dateNow (fun now _ => ?_) hf
    split_ifs
    · rw [Prog.bind_assoc]
      exact holds_dateNow (fun _ _ => hf _) hf
    · exact h

theorem failLogin_holds {dto : LoginDto} {user : User} {e : Entry}
    {Q : Post Err Empty Write World Reply} (login : Login cfg c dto user false e)
    (hf : ∀ es e, Holds cfg c es (.throw e) Q) :
    Holds cfg c [e] (AuthService.failLogin user) Q := by
  rw [AuthService.failLogin]
  split_ifs with hlock
  · refine holds_dateNow (fun t ht => ?_) (hf _)
    refine holds_userUpdate (fun past m hown => ?_) (fun _ _ _ => hf _ _) (hf _)
    refine .failedLogin hown login ?_
    rw [Locks, if_pos hlock]
    exact ⟨t, ht e (List.mem_singleton.mpr rfl), rfl⟩
  · refine holds_userUpdate (fun past m hown => ?_) (fun _ _ _ => hf _ _) (hf _)
    refine .failedLogin hown login ?_
    rw [Locks, if_neg hlock]

theorem passLogin_holds {dto : LoginDto} {user : User} {e : Entry}
    {Q : Post Err Empty Write World Reply} (login : Login cfg c dto user true e)
    (hret : ∀ es a, Holds cfg c es (.ret a) Q) (hf : ∀ es e, Holds cfg c es (.throw e) Q) :
    Holds cfg c [e] (AuthService.passLogin cfg user) Q := by
  have htokens : ∀ rest, Holds cfg c (e :: rest)
      ((AuthService.generateTokens cfg ⟨user.id, user.email, user.role⟩).bind fun tokens =>
        .ret (.session user.toProfile tokens)) Q := fun rest =>
    generateTokens_holds (.password login) (fun _ _ _ _ => hret _ _) (hf _)
  rw [AuthService.passLogin]
  split_ifs
  · exact holds_userUpdate (fun past m hown => .unlocked hown login) (fun m _ _ => htokens [_])
      (hf _)
  · exact htokens []

theorem login_holds {dto : LoginDto} {Q : Post Err Empty Write World Reply}
    (call : c.call = .login dto) (hret : ∀ es a, Holds cfg c es (.ret a) Q)
    (hf : ∀ es e, Holds cfg c es (.throw e) Q) :
    Holds cfg c [] (AuthService.login cfg dto) Q := by
  rw [AuthService.login, Prog.bind_eq]
  refine holds_query (fun m => ?_) (hf _)
  simp only [Query.eval]
  cases huser : m.db.userByEmail? dto.email with
  | none => exact hf _ _
  | some user =>
    refine checkLockout_holds ?_ (hf _)
    split_ifs with hwrong
    · exact failLogin_holds ⟨rfl, call, rfl, huser, hwrong⟩ hf
    · exact passLogin_holds ⟨rfl, call, rfl, huser, Bool.eq_true_of_not_eq_false hwrong⟩ hret hf

theorem refreshValidate_holds {token : Jwt} {f : User → Op α} (call : c.call = .refresh token)
    (h : ∀ v q user, v.writes = [.seen q] → Holds cfg c [v] (f user) Q)
    (hf : ∀ es e, (∀ e ∈ es, ∀ row, e.writes ≠ [.tokenInsert row]) →
      Holds cfg c es (.throw e) Q) :
    Holds cfg c [] ((JwtRefreshStrategy.validate token).bind f) Q := by
  rw [JwtRefreshStrategy.validate, Prog.bind_eq, Prog.bind_assoc]
  refine holds_query (fun m => ?_) fun e => hf _ e (by simp)
  cases Query.eval m.db (.tokenFindUnique ⟨token⟩) with
  | none =>
    simp only [Prog.bind_eq, Prog.bind_assoc]
    refine holds_tokenDeleteMany (fun past m hown => .reused hown call) (fun m n => ?_) fun e => ?_
    · exact hf _ _ (by simp)
    · exact hf _ _ (by simp)
  | some found =>
    simp only [Prog.bind_eq, Prog.bind_assoc]
    refine holds_dateNow (fun now _ => ?_) fun e => hf _ e (by simp)
    split_ifs
    · rw [Prog.bind_assoc]
      refine holds_tokenDelete (fun past m hown _ => .expired hown call) (fun m => ?_) fun e => ?_
      · exact hf _ _ (by simp)
      · exact hf _ _ (by simp)
    · exact h _ _ _ rfl

theorem refreshTokens_holds {token : Jwt} {userId : UserId} {v : Entry} {q : Query}
    {Q : Post Err Empty Write World Reply} (call : c.call = .refresh token)
    (hv : v.writes = [.seen q]) (hret : ∀ es a, Rotated c token a es → Holds cfg c es (.ret a) Q)
    (hf : ∀ es e, (∀ e ∈ es, ∀ row, e.writes ≠ [.tokenInsert row]) →
      Holds cfg c es (.throw e) Q) :
    Holds cfg c [v] (AuthService.refreshTokens cfg userId token) Q := by
  rw [AuthService.refreshTokens, Prog.bind_eq]
  refine holds_query (fun m => ?_) fun e => hf _ e (by simp [hv])
  simp only [Query.eval]
  cases hstored : m.db.refreshTokens.find? fun r => r.token = ⟨token⟩ ∧ r.userId = userId with
  | none => exact hf _ _ (by simp [hv])
  | some stored =>
    have hmem := List.mem_of_find?_eq_some hstored
    have hboth : stored.token = ⟨token⟩ ∧ stored.userId = userId := by
      simpa using List.find?_some hstored
    obtain ⟨htoken, rfl⟩ := hboth
    have hpresented : Presented c token stored
        ⟨c, [.seen (.tokenFindFirst ⟨token⟩ stored.userId)], m⟩ := ⟨rfl, call, rfl, hmem, htoken⟩
    refine holds_tokenDelete (fun past m' hown hrow => .rotated hown hpresented hrow)
      (fun m' => ?_) fun e => hf _ e (by simp [hv])
    refine holds_query (fun m'' => ?_) fun e => hf _ e (by simp [hv])
    simp only [Query.eval]
    cases huser : m''.db.user? stored.userId with
    | none => exact hf _ _ (by simp [hv])
    | some user =>
      have hid : user.id = stored.userId := (Rows.lookup_some huser).2
      refine generateTokens_holds ?_ (fun m row pair hrow => ?_) fun e => hf _ e (by simp [hv])
      · show Credential cfg c _ user.id
        rw [hid]
        exact .token hpresented rfl rfl
      · exact hret _ _ (.intro hv hpresented rfl rfl rfl hrow)

theorem logout_holds {accessToken : Jwt} {token : Option Jwt}
    {Q : Post Err Empty Write World Reply} (call : c.call = .logout accessToken token)
    (hret : ∀ es a, Holds cfg c es (.ret a) Q) (hf : ∀ es e, Holds cfg c es (.throw e) Q) :
    Holds cfg c [] (AuthController.logout accessToken token) Q := by
  refine jwt_holds (fun m user huser => ?_) hf
  cases token with
  | none => exact hret _ _
  | some token =>
    have hid : user.id = accessToken.sub := (Rows.lookup_some huser).2
    rw [hid]
    exact holds_tokenDeleteMany (fun past m hown => .loggedOut hown call) (fun _ _ => hret _ _)
      (hf _)

theorem logoutAll_holds {accessToken : Jwt} {Q : Post Err Empty Write World Reply}
    (call : c.call = .logoutAll accessToken) (hret : ∀ es a, Holds cfg c es (.ret a) Q)
    (hf : ∀ es e, Holds cfg c es (.throw e) Q) :
    Holds cfg c [] (AuthController.logoutAll accessToken) Q := by
  refine jwt_holds (fun m user huser => ?_) hf
  have hid : user.id = accessToken.sub := (Rows.lookup_some huser).2
  rw [hid]
  exact holds_tokenDeleteMany (fun past m hown => .loggedOutAll hown call) (fun _ _ => hret _ _)
    (hf _)

theorem forgotPassword_holds {email : String} {Q : Post Err Empty Write World Reply}
    (call : c.call = .forgotPassword email) (hret : ∀ es a, Holds cfg c es (.ret a) Q)
    (hf : ∀ es e, Holds cfg c es (.throw e) Q) :
    Holds cfg c [] (AuthService.forgotPassword email) Q := by
  rw [AuthService.forgotPassword, Prog.bind_eq]
  refine holds_query (fun m => ?_) (hf _)
  simp only [Query.eval]
  cases huser : m.db.userByEmail? email with
  | none => exact hret _ _
  | some user =>
    refine holds_external (fun token => holds_external (fun now => ?_) (hf _)) (hf _)
    refine holds_userUpdate (fun past m' hown => .resetRequested hown call huser)
      (fun m' _ _ => ?_) (hf _)
    exact holds_external (fun _ => hret _ _) (hf _)

theorem resetPassword_holds {token : ℕ} {newPassword : String}
    {Q : Post Err Empty Write World Reply} (call : c.call = .resetPassword token newPassword)
    (hret : ∀ es a, Holds cfg c es (.ret a) Q) (hf : ∀ es e, Holds cfg c es (.throw e) Q) :
    Holds cfg c [] (AuthService.resetPassword token newPassword) Q := by
  rw [AuthService.resetPassword, Prog.bind_eq]
  refine holds_external (fun now => holds_query (fun m => ?_) (hf _)) (hf _)
  cases huser : Query.eval m.db (.userByResetToken token now) with
  | none => exact hf _ _
  | some user =>
    have hfound : user ∈ m.db.users ∧ user.passwordResetToken = some token := by
      have hmem := List.mem_of_find?_eq_some huser
      have hboth := List.find?_some huser
      simp only [decide_eq_true_eq] at hboth
      exact ⟨hmem, hboth.1⟩
    refine holds_external (fun hash => ?_) (hf _)
    refine holds_userUpdate (fun past m' hown => .passwordReset hown call hfound)
      (fun m' _ _ => ?_) (hf _)
    exact holds_tokenDeleteMany (fun past m'' hown => .revoked hown call hfound rfl)
      (fun _ _ => hret _ _) (hf _)

theorem cleanupExpiredTokens_holds {Q : Post Err Empty Write World Reply}
    (call : c.call = .cleanupExpiredTokens) (hret : ∀ es a, Holds cfg c es (.ret a) Q)
    (hf : ∀ es e, Holds cfg c es (.throw e) Q) :
    Holds cfg c [] AuthService.cleanupExpiredTokens Q :=
  holds_external (fun _ => holds_tokenDeleteMany (fun _ _ _ => .cleaned call)
    (fun _ _ => hret _ _) (hf _)) (hf _)

end

/-- Every request keeps to the journal. -/
theorem body_holds {cfg : Config} (c : Session Call) :
    Holds cfg c [] (c.call.body cfg) (Answers c) := by
  -- of the others nothing is to be shown when they end
  have hret : (∀ token, c.call ≠ .refresh token) → ∀ es a,
      Holds cfg c es (.ret a) (Answers c) := fun h es a =>
    holds_ret fun w _ _ token hc => absurd hc (h token)
  have hf : (∀ token, c.call ≠ .refresh token) → ∀ es e,
      Holds cfg c es (.throw e) (Answers c) := fun h es e =>
    holds_throw fun w _ _ token hc => absurd hc (h token)
  cases hcall : c.call with
  | refresh token =>
    have hthrow : ∀ es e, (∀ e ∈ es, ∀ row, e.writes ≠ [.tokenInsert row]) →
        Holds cfg c es (.throw e) (Answers c) := by
      intro es e hnone
      refine holds_throw fun w _ hes token' _ => ?_
      rw [hes]
      exact hnone
    refine refreshValidate_holds hcall (fun v q user hv => ?_) hthrow
    refine refreshTokens_holds hcall hv (fun es a hrotated => ?_) hthrow
    refine holds_ret fun w _ hes token' hc => ?_
    rw [hcall] at hc
    cases hc
    rw [hes]
    exact hrotated
  | login dto => exact login_holds hcall (hret (by simp [hcall])) (hf (by simp [hcall]))
  | logout accessToken token =>
    exact logout_holds hcall (hret (by simp [hcall])) (hf (by simp [hcall]))
  | logoutAll accessToken =>
    exact logoutAll_holds hcall (hret (by simp [hcall])) (hf (by simp [hcall]))
  | forgotPassword email =>
    exact forgotPassword_holds hcall (hret (by simp [hcall])) (hf (by simp [hcall]))
  | resetPassword token newPassword =>
    exact resetPassword_holds hcall (hret (by simp [hcall])) (hf (by simp [hcall]))
  | cleanupExpiredTokens =>
    exact cleanupExpiredTokens_holds hcall (hret (by simp [hcall])) (hf (by simp [hcall]))
  | toggleUserStatus accessToken userId =>
    exact toggleUserStatus_holds hcall (hret (by simp [hcall])) (hf (by simp [hcall]))
  | makeAdmin accessToken userId =>
    exact makeAdmin_holds hcall (hret (by simp [hcall])) (hf (by simp [hcall]))
  | demoteAdmin accessToken userId =>
    exact demoteAdmin_holds hcall (hret (by simp [hcall])) (hf (by simp [hcall]))

/-! ### Runs -/

theorem service_lawful (cfg : Config) : Lawful (service cfg) World.history World.moment
    (fun w w' => w.now ≤ w'.now) World.Recorded (Acts cfg) Answers where
  kept := kept cfg
  act s v _ := recorded_act s v
  commit _ _ _ h _ hact := recorded_commit h hact
  evolve _ _ h := h.out rfl rfl (Int.le_add_of_nonneg_right (Int.natCast_nonneg _)) (Nat.le_refl _)
  moves _ _ := ⟨rfl, Int.le_add_of_nonneg_right (Int.natCast_nonneg _)⟩
  body := body_holds

/-- A system that keeps to the journal. -/
abbrev Sys.Keeps (cfg : Config) (s : Sys) : Prop :=
  Journal.Keeps (service cfg) World.history World.moment (fun w w' => w.now ≤ w'.now)
    World.Recorded (Acts cfg) Answers s

theorem Sys.Initial.recorded {s : Sys} (h : s.Initial) : s.world.Recorded where
  chained := ⟨s.world.db, by rw [h.history]; rfl⟩
  times := by simp [h.history]
  valid := h.valid
  valids := by simp [h.history]
  drawn r hr := by
    rcases hr with hr | ⟨e, he, -⟩
    · exact h.drawn r hr
    · simp [h.history] at he

theorem Sys.Keeps.step {cfg : Config} {s : Sys} (h : s.Keeps cfg) (a : Act) :
    Sys.Keeps cfg ((service cfg).step s a) :=
  Sound.step h (service_lawful cfg).rules (service_lawful cfg).starts
    (permits_any s a)

/-- Every run from an initial state keeps to the journal. -/
theorem Sys.Initial.always {cfg : Config} {s : Sys} {as : List Act} (h : s.Initial) :
    (service cfg).Always (Sys.Keeps cfg) s as :=
  (service_lawful cfg).always h.threads h.history h.recorded

theorem Sys.Initial.keeps {cfg : Config} {s : Sys} (h : s.Initial) : s.Keeps cfg :=
  (@Sys.Initial.always cfg s [] h).last

/-- What a step does to the tables: nothing, or one of the listed statements. -/
theorem Sys.Keeps.step_cases {cfg : Config} {s : Sys} (h : s.Keeps cfg) (a : Act) :
    ((service cfg).committed s a = none ∧
      ((service cfg).step s a).world.history = s.world.history ∧
      ((service cfg).step s a).world.db = s.world.db) ∨
    ∃ cm e, (service cfg).committed s a = some cm ∧ e.session = cm.session ∧
      e.writes = cm.writes ∧ e.before.db = s.world.db ∧ cm.base.db = s.world.db ∧
      s.world.now ≤ e.before.now ∧ Acts cfg s.world.history e ∧
      ((service cfg).step s a).world.history = s.world.history ++ [e] ∧
      ((service cfg).step s a).world.db = e.writes.foldl Db.apply s.world.db ∧
      ∃ t, s.threads[e.session.id]? = some t ∧ t.session = e.session ∧
        t.prog.result? = none := by
  have hact : ∀ st v w, ((service cfg).act st v w).world.db = w.db := by
    intro st v w
    cases st with
    | external x => cases x <;> rfl
    | _ => rfl
  rcases (service_lawful cfg).step_cases h World.db hact (fun _ _ => rfl) a with
    ⟨hc, hjournal, hdb⟩ | ⟨cm, hc, -, hjournal, hdb, hnow, hpost, hw, hrunning⟩
  · exact .inl ⟨hc, hjournal, hdb⟩
  · refine .inr ⟨cm, ⟨cm.session, cm.writes, cm.base.moment⟩, hc, rfl, rfl, hdb, hdb, hnow, hpost,
      ?_, ?_, hrunning⟩
    · rw [hw, ← hjournal]
      rfl
    · rw [hw, ← hdb]
      rfl

/-! ### A small office -/

namespace Office

/-- A password hash that shows the password. -/
def cfg : Config where
  argon2Hash password _ := password
  argon2Verify hash password := hash = password
  refreshExpiresIn := "7d"

def user (id : UserId) (name : String) (role : Role) : User where
  id := id
  name := name
  email := name ++ "@turf.example"
  phone := "0170000000" ++ toString id
  role := role
  isVerified := true
  isActive := true
  passwordResetToken := none
  passwordResetExpires := none
  failedLoginAttempts := 0
  lockoutUntil := none
  passwordHash := name ++ "-secret"

def ana : User := user 1 "ana" .ADMIN

def ben : User := user 2 "ben" .ADMIN

def eve : User := user 7 "eve" .USER

/-- A token of a user. -/
def jwt (u : User) (jti : ℕ) : Jwt := ⟨⟨u.id, u.email, u.role⟩, jti⟩

/-- Two admins and a user, who has one session. -/
def sys : Sys where
  world := {
    db := {
      users := [ana, ben, eve]
      refreshTokens := [⟨50, ⟨jwt eve 51⟩, 7, 604800000⟩]
      auditLogs := [] }
    now := 0
    uuid := 100
    mails := []
    history := [] }
  threads := []

theorem initial : sys.Initial where
  threads := rfl
  history := rfl
  valid := ⟨by decide, by decide, by decide, by decide⟩
  drawn := by decide

/-- Call `i` is made and executes its first `n` statements. -/
def first (i : ℕ) (c : Call) (n : ℕ) : List Act := .spawn c :: List.replicate n (.run i)

end Office

end TurfSync.Accounts
