import TurfSync.Services.Admin

/-! What the requests on accounts do to the database. `Acts` lists every statement a
request can execute, with the entries that the request has made before; each request
keeps to it, so in every run the whole history does. -/

namespace TurfSync.Accounts

open Txn Journal

/-- A row that is in the table, or was there when one of the entries was made. -/
def Known (past : List Entry) (db : Db) (r : RefreshToken) : Prop :=
  r ∈ db.refreshTokens ∨ ∃ e ∈ past, r ∈ e.before.db.refreshTokens

/-- A login that has read its user, and found the password right or not. -/
structure Login (cfg : Config) (c : Session Call) (dto : LoginDto) (user : User) (right : Bool)
    (e : Entry) : Prop where
  session : e.session = c
  call : c.call = .login dto
  looked : e.writes = [.seen (.userByEmail dto.email)]
  found : e.before.db.userByEmail? dto.email = some user
  verified : cfg.argon2Verify user.passwordHash dto.password = right

/-- A refresh request that has found the row of the token it presents. -/
structure Presented (c : Session Call) (token : Jwt) (stored : RefreshToken) (f : Entry) :
    Prop where
  session : f.session = c
  call : c.call = .refresh token
  looked : f.writes = [.seen (.tokenFindFirst ⟨token⟩ stored.userId)]
  found : stored ∈ f.before.db.refreshTokens
  token : stored.token = ⟨token⟩

/-- What a request has done when it may insert a refresh token of a user. -/
inductive Credential (cfg : Config) (c : Session Call) : List Entry → UserId → Prop
  | password {dto user e rest} (login : Login cfg c dto user true e) :
      Credential cfg c (e :: rest) user.id
  | token {token stored v f d s} (presented : Presented c token stored f)
      (deleted : d.writes = [.tokenDelete (.row stored.id)]) (session : d.session = c) :
      Credential cfg c [v, f, d, s] stored.userId

/-- The lockout that a failed login writes with its count of attempts. -/
def Locks (since : Time) (attempts : ℕ) (lockoutUntil : Option Time) : Prop :=
  if 5 ≤ attempts then ∃ t, since ≤ t ∧ lockoutUntil = some (t + lockoutMs)
  else lockoutUntil = none

/-- An admin request: the user it is about as it was read, the change it makes and its
entry in the audit log. -/
inductive Manages : Call → UserId → User → UserChange → AuditLog → Prop
  | toggled {accessToken : Jwt} {userId} {user : User} :
      Manages (.toggleUserStatus accessToken userId) accessToken.sub user
        (.isVerified (!user.isVerified))
        ⟨accessToken.sub, "USER_STATUS_TOGGLED", userId, "USER",
          .status (AdminService.verifiedWord user.isVerified)
            (AdminService.verifiedWord (!user.isVerified))⟩
  | promoted {accessToken : Jwt} {userId} {user : User} (role : user.role ≠ .ADMIN) :
      Manages (.makeAdmin accessToken userId) accessToken.sub user (.role .ADMIN)
        ⟨accessToken.sub, "USER_PROMOTED_TO_ADMIN", userId, "USER", .role user.role .ADMIN⟩
  | demoted {accessToken : Jwt} {userId} {user : User} (role : user.role = .ADMIN) :
      Manages (.demoteAdmin accessToken userId) accessToken.sub user (.role .USER)
        ⟨accessToken.sub, "ADMIN_DEMOTED_TO_USER", userId, "USER", .role .ADMIN .USER⟩

/-- An admin request that has passed its guards and read its user. -/
structure Managing (c : Session Call) (adminId : UserId) (user : User) (change : UserChange)
    (row : AuditLog) (g s : Entry) : Prop where
  manages : Manages c.call adminId user change row
  caller : ∃ admin, g.before.db.user? adminId = some admin ∧ admin.role = .ADMIN
  found : s.before.db.user? user.id = some user
  target : row.targetId = user.id
  other : user.id ≠ adminId

/-- Every statement on the database, with what its session did before. -/
inductive Acts (cfg : Config) (past : List Entry) : Entry → Prop
  | seen {c q m} : Acts cfg past ⟨c, [.seen q], m⟩
  | failedLogin {c m dto user e lockoutUntil} (own : own c.id past = [e])
      (login : Login cfg c dto user false e)
      (locks : Locks e.before.now (user.failedLoginAttempts + 1) lockoutUntil) :
      Acts cfg past
        ⟨c, [.userSet user.id (.failedLogin (user.failedLoginAttempts + 1) lockoutUntil)], m⟩
  | unlocked {c m dto user e} (own : own c.id past = [e]) (login : Login cfg c dto user true e) :
      Acts cfg past ⟨c, [.userSet user.id .unlocked], m⟩
  | issued {c m row} (credential : Credential cfg c (own c.id past) row.userId)
      (fresh : ∀ r, Known past m.db r → r.id ≠ row.id ∧ r.token ≠ row.token)
      (drawn : row.id < m.uuid ∧ row.token.token.jti < m.uuid) :
      Acts cfg past ⟨c, [.tokenInsert row], m⟩
  | rotated {c m token stored v f} (own : own c.id past = [v, f])
      (presented : Presented c token stored f)
      (present : ∃ r ∈ m.db.refreshTokens, r.id = stored.id) :
      Acts cfg past ⟨c, [.tokenDelete (.row stored.id)], m⟩
  | expired {c m} {token : Jwt} {stored : RefreshToken} {v} (own : own c.id past = [v])
      (call : c.call = .refresh token) : Acts cfg past ⟨c, [.tokenDelete (.row stored.id)], m⟩
  | reused {c m} {token : Jwt} {v} (own : own c.id past = [v]) (call : c.call = .refresh token) :
      Acts cfg past ⟨c, [.tokenDelete (.user token.sub)], m⟩
  | loggedOut {c m} {accessToken token : Jwt} {g} (own : own c.id past = [g])
      (call : c.call = .logout accessToken (some token)) :
      Acts cfg past ⟨c, [.tokenDelete (.userToken accessToken.sub ⟨token⟩)], m⟩
  | loggedOutAll {c m} {accessToken : Jwt} {g} (own : own c.id past = [g])
      (call : c.call = .logoutAll accessToken) :
      Acts cfg past ⟨c, [.tokenDelete (.user accessToken.sub)], m⟩
  | cleaned {c m t} (call : c.call = .cleanupExpiredTokens) :
      Acts cfg past ⟨c, [.tokenDelete (.expired t)], m⟩
  | resetRequested {c m email token expires} {user : User} {e} (own : own c.id past = [e])
      (call : c.call = .forgotPassword email)
      (found : e.before.db.userByEmail? email = some user) :
      Acts cfg past ⟨c, [.userSet user.id (.resetRequested token expires)], m⟩
  | passwordReset {c m token newPassword hash} {user : User} {e} (own : own c.id past = [e])
      (call : c.call = .resetPassword token newPassword)
      (found : user ∈ e.before.db.users ∧ user.passwordResetToken = some token) :
      Acts cfg past ⟨c, [.userSet user.id (.passwordReset hash)], m⟩
  | revoked {c m token newPassword hash} {user : User} {e s} (own : own c.id past = [e, s])
      (call : c.call = .resetPassword token newPassword)
      (found : user ∈ e.before.db.users ∧ user.passwordResetToken = some token)
      (reset : s.writes = [.userSet user.id (.passwordReset hash)]) :
      Acts cfg past ⟨c, [.tokenDelete (.user user.id)], m⟩
  | managed {c m adminId user change row g s} (own : own c.id past = [g, s])
      (managing : Managing c adminId user change row g s) :
      Acts cfg past ⟨c, [.userSet user.id change], m⟩
  | audited {c m adminId user change row g s u} (own : own c.id past = [g, s, u])
      (managing : Managing c adminId user change row g s)
      (changed : u.writes = [.userSet user.id change]) :
      Acts cfg past ⟨c, [.auditInsert row], m⟩

/-- What is known of the world in every state: its history leads to its tables, and ids
are drawn in order. -/
structure World.Recorded (w : World) : Prop where
  chained : ∃ db, Chained Moment.db Db.apply db w.history w.db
  times : ∀ e ∈ w.history, e.before.now ≤ w.now
  valid : w.db.Valid
  valids : ∀ e ∈ w.history, e.before.db.Valid
  drawn : ∀ r, Known w.history w.db r → r.id < w.uuid ∧ r.token.token.jti < w.uuid

/-! ### The tables -/

@[simp] theorem UserChange.set_id (change : UserChange) (u : User) : (change.set u).id = u.id := by
  cases change with
  | failedLogin n t => cases t <;> rfl
  | _ => rfl

@[simp] theorem UserChange.set_email (change : UserChange) (u : User) :
    (change.set u).email = u.email := by
  cases change with
  | failedLogin n t => cases t <;> rfl
  | _ => rfl

@[simp] theorem UserChange.failedLogin_set (n : ℕ) (lock : Option Time) (u : User) :
    ((UserChange.failedLogin n lock).set u).failedLoginAttempts = n ∧
      ((UserChange.failedLogin n lock).set u).passwordHash = u.passwordHash ∧
      ((UserChange.failedLogin n lock).set u).lockoutUntil = lock.or u.lockoutUntil := by
  cases lock <;> simp [UserChange.set]

theorem user?_userSet (db : Db) (id id' : UserId) (change : UserChange) :
    (db.apply (.userSet id change)).user? id' =
      if id' = id then (db.user? id').map change.set else db.user? id' := by
  show Rows.lookup (·.id) id' (Rows.update (·.id) [id] change.set db.users) = _
  rw [Rows.lookup_update fun u => UserChange.set_id change u]
  simp only [List.mem_singleton]
  rfl

/-- The writes of `Acts` keep the unique columns unique. -/
theorem Acts.valid {cfg : Config} {past : List Entry} {e : Entry} (h : Acts cfg past e)
    (hv : e.before.db.Valid) : Db.Valid (e.writes.foldl Db.apply e.before.db) := by
  have huser : ∀ id change, (e.before.db.apply (.userSet id change)).Valid := fun id change => {
    users := by
      show ((Rows.update (·.id) [id] change.set e.before.db.users).map (·.id)).Nodup
      rw [Rows.keys_update fun a => UserChange.set_id change a]
      exact hv.users
    emails := by
      show ((Rows.update (·.id) [id] change.set e.before.db.users).map (·.email)).Nodup
      rw [Rows.keys_update fun a => UserChange.set_email change a]
      exact hv.emails
    tokenIds := hv.tokenIds
    tokens := hv.tokens }
  have hdelete : ∀ scope, (e.before.db.apply (.tokenDelete scope)).Valid := fun scope => {
    users := hv.users
    emails := hv.emails
    tokenIds := hv.tokenIds.sublist (List.filter_sublist.map _)
    tokens := hv.tokens.sublist (List.filter_sublist.map _) }
  cases h with
  | seen => exact hv
  | failedLogin => exact huser _ _
  | unlocked => exact huser _ _
  | issued hcred hfresh hdrawn =>
    exact {
      users := hv.users
      emails := hv.emails
      tokenIds := Rows.nodup_insert hv.tokenIds fun b hb => (hfresh b (.inl hb)).1
      tokens := Rows.nodup_insert hv.tokens fun b hb => (hfresh b (.inl hb)).2 }
  | rotated => exact hdelete _
  | expired => exact hdelete _
  | reused => exact hdelete _
  | loggedOut => exact hdelete _
  | loggedOutAll => exact hdelete _
  | cleaned => exact hdelete _
  | resetRequested => exact huser _ _
  | passwordReset => exact huser _ _
  | revoked => exact hdelete _
  | managed => exact huser _ _
  | audited => exact ⟨hv.users, hv.emails, hv.tokenIds, hv.tokens⟩

/-- The only new row is the one that is issued. -/
theorem Acts.rows {cfg : Config} {past : List Entry} {e : Entry} (h : Acts cfg past e)
    {r : RefreshToken} (hr : r ∈ (e.writes.foldl Db.apply e.before.db).refreshTokens) :
    r ∈ e.before.db.refreshTokens ∨ e.writes = [.tokenInsert r] := by
  cases h with
  | issued =>
    rcases List.mem_append.mp hr with hr | hr
    · exact .inl hr
    · rw [List.mem_singleton.mp hr]
      exact .inr rfl
  | rotated => exact .inl (List.mem_filter.mp hr).1
  | expired => exact .inl (List.mem_filter.mp hr).1
  | reused => exact .inl (List.mem_filter.mp hr).1
  | loggedOut => exact .inl (List.mem_filter.mp hr).1
  | loggedOutAll => exact .inl (List.mem_filter.mp hr).1
  | cleaned => exact .inl (List.mem_filter.mp hr).1
  | revoked => exact .inl (List.mem_filter.mp hr).1
  | _ => exact .inl hr

theorem Acts.of_insert {cfg : Config} {past : List Entry} {e : Entry} {row : RefreshToken}
    (h : Acts cfg past e) (he : e.writes = [.tokenInsert row]) :
    Credential cfg e.session (own e.session.id past) row.userId ∧
      (∀ r, Known past e.before.db r → r.id ≠ row.id ∧ r.token ≠ row.token) ∧
      row.id < e.before.uuid ∧ row.token.token.jti < e.before.uuid := by
  cases h with
  | issued hcred hfresh hdrawn =>
    cases he
    exact ⟨hcred, hfresh, hdrawn⟩
  | _ => cases he

/-- A deletion of one row: by the strategy, for a token that has expired, or by the
rotation. -/
theorem Acts.of_delete {cfg : Config} {past : List Entry} {e : Entry} {id : ℕ}
    (h : Acts cfg past e) (he : e.writes = [.tokenDelete (.row id)]) :
    (∃ v, own e.session.id past = [v]) ∨
    ∃ v f, own e.session.id past = [v, f] ∧ ∃ r ∈ e.before.db.refreshTokens, r.id = id := by
  cases h with
  | rotated hown _ hpresent =>
    cases he
    exact .inr ⟨_, _, hown, hpresent⟩
  | expired hown => exact .inl ⟨_, hown⟩
  | _ => cases he

end TurfSync.Accounts
