import TurfSync.Store.Schema
import TurfSync.Txn.Journal
import TurfSync.Txn.Rows

/-! The accounts side of the database: users, their refresh tokens and the audit log,
with the statements `AuthService`, the JWT strategies and the user part of
`AdminService` issue. Nothing here runs in a transaction, so every statement commits by
itself. The history has an entry for every statement on the database, reads included;
no statement reads it. -/

namespace TurfSync.Accounts

open Txn

inductive Role where
  | USER | ADMIN
  deriving DecidableEq, Repr

/-- A user without the password hash. -/
structure Profile where
  id : UserId
  name : String
  email : String
  phone : String
  role : Role
  isVerified : Bool
  isActive : Bool
  passwordResetToken : Option ℕ
  passwordResetExpires : Option Time
  failedLoginAttempts : ℕ
  lockoutUntil : Option Time
  deriving DecidableEq, Repr

structure User extends Profile where
  passwordHash : String
  deriving DecidableEq, Repr

structure JwtPayload where
  sub : UserId
  email : String
  role : Role
  deriving DecidableEq, Repr

/-- A signed token. `jti` is a `randomUUID()`. -/
structure Jwt extends JwtPayload where
  jti : ℕ
  deriving DecidableEq, Repr

/-- The SHA-256 of a token; different tokens have different hashes. -/
structure TokenHash where
  token : Jwt
  deriving DecidableEq, Repr

structure RefreshToken where
  id : ℕ
  token : TokenHash
  userId : UserId
  expiresAt : Time
  deriving DecidableEq, Repr

inductive AuditDetails where
  | status (previousStatus newStatus : String)
  | role (previousRole newRole : Role)
  deriving DecidableEq, Repr

structure AuditLog where
  adminId : UserId
  action : String
  targetId : UserId
  targetType : String
  details : AuditDetails
  deriving DecidableEq, Repr

structure Db where
  users : List User
  refreshTokens : List RefreshToken
  auditLogs : List AuditLog
  deriving DecidableEq, Repr

/-! ### Writes -/

/-- The `data` of a `user.update`. -/
inductive UserChange where
  | failedLogin (failedLoginAttempts : ℕ) (lockoutUntil : Option Time)
  | unlocked
  | resetRequested (token : ℕ) (expires : Time)
  | passwordReset (passwordHash : String)
  | role (role : Role)
  | isVerified (isVerified : Bool)
  deriving DecidableEq, Repr

/-- A field that is left out of the data keeps its value. -/
def UserChange.set : UserChange → User → User
  | failedLogin n none, u => { u with failedLoginAttempts := n }
  | failedLogin n (some t), u => { u with failedLoginAttempts := n, lockoutUntil := some t }
  | unlocked, u => { u with failedLoginAttempts := 0, lockoutUntil := none }
  | resetRequested token expires, u =>
    { u with passwordResetToken := some token, passwordResetExpires := some expires }
  | passwordReset passwordHash, u =>
    { u with
      passwordHash := passwordHash
      passwordResetToken := none
      passwordResetExpires := none
      failedLoginAttempts := 0
      lockoutUntil := none }
  | role r, u => { u with role := r }
  | isVerified v, u => { u with isVerified := v }

/-- The `where` of a deletion of refresh tokens. -/
inductive Scope where
  | row (id : ℕ)
  | user (userId : UserId)
  | userToken (userId : UserId) (token : TokenHash)
  | expired (before : Time)
  deriving DecidableEq, Repr

def Scope.Covers : Scope → RefreshToken → Prop
  | .row id, r => r.id = id
  | .user userId, r => r.userId = userId
  | .userToken userId token, r => r.userId = userId ∧ r.token = token
  | .expired before, r => r.expiresAt < before

instance : (sc : Scope) → DecidablePred sc.Covers
  | .row id, r => inferInstanceAs (Decidable (r.id = id))
  | .user userId, r => inferInstanceAs (Decidable (r.userId = userId))
  | .userToken userId token, r => inferInstanceAs (Decidable (r.userId = userId ∧ r.token = token))
  | .expired before, r => inferInstanceAs (Decidable (r.expiresAt < before))

inductive Query where
  | userByEmail (email : String)
  | userById (id : UserId)
  | userByResetToken (token : ℕ) (now : Time)
  | tokenFindUnique (token : TokenHash)
  | tokenFindFirst (token : TokenHash) (userId : UserId)
  deriving DecidableEq, Repr

/-- What a statement does to the tables; `seen` is the trace of a read, and does nothing. -/
inductive Write where
  | seen (q : Query)
  | userSet (id : UserId) (change : UserChange)
  | tokenInsert (row : RefreshToken)
  | tokenDelete (scope : Scope)
  | auditInsert (row : AuditLog)
  deriving DecidableEq, Repr

namespace Db

def userByEmail? (db : Db) (email : String) : Option User :=
  Rows.lookup (·.email) email db.users

def user? (db : Db) (id : UserId) : Option User := Rows.lookup (·.id) id db.users

def token? (db : Db) (token : TokenHash) : Option RefreshToken :=
  Rows.lookup (·.token) token db.refreshTokens

def apply (db : Db) : Write → Db
  | .seen _ => db
  | .userSet id change => { db with users := Rows.update (·.id) [id] change.set db.users }
  | .tokenInsert row => { db with refreshTokens := db.refreshTokens ++ [row] }
  | .tokenDelete scope =>
    { db with refreshTokens := db.refreshTokens.filter (¬ scope.Covers ·) }
  | .auditInsert row => { db with auditLogs := db.auditLogs ++ [row] }

/-- The unique columns. -/
structure Valid (db : Db) : Prop where
  users : (db.users.map (·.id)).Nodup
  emails : (db.users.map (·.email)).Nodup
  tokenIds : (db.refreshTokens.map (·.id)).Nodup
  tokens : (db.refreshTokens.map (·.token)).Nodup

end Db

/-! ### Statements -/

@[reducible] def Query.Reply : Query → Type
  | .userByEmail _ => Option User
  | .userById _ => Option User
  | .userByResetToken _ _ => Option User
  | .tokenFindUnique _ => Option (RefreshToken × User)
  | .tokenFindFirst _ _ => Option RefreshToken

def Query.eval (db : Db) : (q : Query) → q.Reply
  | .userByEmail email => db.userByEmail? email
  | .userById id => db.user? id
  | .userByResetToken token now => db.users.find? fun u =>
    u.passwordResetToken = some token ∧ ∃ expires ∈ u.passwordResetExpires, now < expires
  | .tokenFindUnique token => do
    let row ← db.token? token
    let user ← db.user? row.userId
    some (row, user)
  | .tokenFindFirst token userId => db.refreshTokens.find? fun r =>
    r.token = token ∧ r.userId = userId

structure TokenPair where
  accessToken : Jwt
  refreshToken : Jwt
  deriving DecidableEq, Repr

/-- `tokenCreate` also draws what `generateTokens` draws before it inserts the hash: a
`jti` never repeats, so it does not matter when. -/
inductive Update where
  | userUpdate (id : UserId) (change : UserChange)
  | tokenCreate (payload : JwtPayload) (expiresAt : Time)
  | tokenDelete (id : ℕ)
  | tokenDeleteMany (scope : Scope)
  | auditLogCreate (data : AuditLog)
  deriving DecidableEq, Repr

@[reducible] def Update.Reply : Update → Type
  | .userUpdate _ _ => User
  | .tokenCreate _ _ => TokenPair
  | .tokenDelete _ => Unit
  | .tokenDeleteMany _ => ℕ
  | .auditLogCreate _ => Unit

/-- The row that `generateTokens` inserts. -/
def newToken (uuid : ℕ) (payload : JwtPayload) (expiresAt : Time) : RefreshToken where
  id := uuid + 2
  token := ⟨⟨payload, uuid + 1⟩⟩
  userId := payload.sub
  expiresAt := expiresAt

/-- What a write statement answers, and what it writes. -/
def Update.plan (db : Db) (uuid : ℕ) : (u : Update) → Except Err u.Reply × List Write
  | .userUpdate id change => match db.user? id with
    | some u => (.ok (change.set u), [.userSet id change])
    | none => (.error .P2025, [])
  | .tokenCreate payload expiresAt =>
    if (db.user? payload.sub).isNone then (.error .P2003, [])
    else if (db.token? (newToken uuid payload expiresAt).token).isSome then (.error .P2002, [])
    else (.ok ⟨⟨payload, uuid⟩, ⟨payload, uuid + 1⟩⟩,
      [.tokenInsert (newToken uuid payload expiresAt)])
  | .tokenDelete id =>
    if ∃ r ∈ db.refreshTokens, r.id = id then (.ok (), [.tokenDelete (.row id)])
    else (.error .P2025, [])
  | .tokenDeleteMany scope =>
    (.ok (db.refreshTokens.filter scope.Covers).length, [.tokenDelete scope])
  | .auditLogCreate data =>
    if (db.user? data.adminId).isNone then (.error .P2003, [])
    else (.ok (), [.auditInsert data])

/-- The clock, the password hash with a random salt, random bytes and the mail service. -/
inductive External where
  | dateNow
  | argon2Hash (password : String)
  | randomBytes
  | sendPasswordResetEmail (email name : String) (token : ℕ)
  deriving DecidableEq, Repr

@[reducible] def External.Reply : External → Type
  | .dateNow => Time
  | .argon2Hash _ => String
  | .randomBytes => ℕ
  | .sendPasswordResetEmail _ _ _ => Unit

inductive Stmt where
  | query (q : Query)
  | update (u : Update)
  | external (x : External)
  deriving DecidableEq, Repr

@[reducible] def Stmt.Reply : Stmt → Type
  | .query q => q.Reply
  | .update u => u.Reply
  | .external x => x.Reply

/-! ### The engine -/

/-- What is outside the repository: the password hash (of a password and a salt), and
the setting `JWT_REFRESH_EXPIRES_IN`. -/
structure Config where
  argon2Hash : String → ℕ → String
  argon2Verify : String → String → Bool
  refreshExpiresIn : String

structure LoginDto where
  email : String
  password : String
  deriving DecidableEq, Repr

/-- The requests. A token in a request has a valid signature; `logout` carries the
refresh token of the body or the cookie, if there is one. -/
inductive Call where
  | login (dto : LoginDto)
  | refresh (refreshToken : Jwt)
  | logout (accessToken : Jwt) (refreshToken : Option Jwt)
  | logoutAll (accessToken : Jwt)
  | forgotPassword (email : String)
  | resetPassword (token : ℕ) (newPassword : String)
  | cleanupExpiredTokens
  | toggleUserStatus (accessToken : Jwt) (userId : UserId)
  | makeAdmin (accessToken : Jwt) (userId : UserId)
  | demoteAdmin (accessToken : Jwt) (userId : UserId)
  deriving DecidableEq, Repr

/-- The tables as a statement finds them, when, and how many ids had been drawn. -/
structure Moment where
  db : Db
  now : Time
  uuid : ℕ

abbrev Entry := Journal.Entry Call Write Moment

structure World where
  db : Db
  now : Time
  uuid : ℕ
  mails : List (String × String × ℕ)
  history : List Entry

def World.moment (w : World) : Moment := ⟨w.db, w.now, w.uuid⟩

def External.eval (cfg : Config) (w : World) : (x : External) → x.Reply × World
  | .dateNow => (w.now, w)
  | .argon2Hash password => (cfg.argon2Hash password w.uuid, { w with uuid := w.uuid + 1 })
  | .randomBytes => (w.uuid, { w with uuid := w.uuid + 1 })
  | .sendPasswordResetEmail email name token =>
    ((), { w with mails := w.mails ++ [(email, name, token)] })

def Stmt.act (cfg : Config) : (s : Stmt) → World → World → Effect Err Empty Write World s.Reply
  | .query q, view, w => ⟨.ok (q.eval view.db), [], [.seen q], w⟩
  | .update u, view, w =>
    let p := u.plan view.db w.uuid
    ⟨p.1, [], p.2, { w with uuid := w.uuid + 3 }⟩
  | .external x, _, w => ⟨.ok (x.eval cfg w).1, [], [], (x.eval cfg w).2⟩

def engine (cfg : Config) : Engine Stmt Stmt.Reply Err Empty Write World Call where
  act := Stmt.act cfg
  apply x w := { w with db := w.db.apply x }
  commit c ws w :=
    { w with db := ws.foldl Db.apply w.db, history := w.history ++ [⟨c, ws, w.moment⟩] }
  fault := .infrastructure

/-- Programs of the services. -/
abbrev Op (α : Type) := Script Stmt Stmt.Reply Err α

def query (q : Query) : Op q.Reply := Script.perform (S := Stmt) (.query q)

def update (u : Update) : Op u.Reply := Script.perform (S := Stmt) (.update u)

def external (x : External) : Op x.Reply := Script.perform (S := Stmt) (.external x)

end TurfSync.Accounts
