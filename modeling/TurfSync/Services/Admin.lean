import TurfSync.Services.Auth

/-! The user management of `AdminService`, and all requests on accounts as one system:
any calls by anybody, interleaved statement by statement, while the clock advances. -/

namespace TurfSync.Accounts

open Txn

namespace AdminService

def createAuditLog (data : AuditLog) : Op Unit := update (.auditLogCreate data)

/-- The word for `isVerified` in the audit log. -/
def verifiedWord (isVerified : Bool) : String := if isVerified then "VERIFIED" else "UNVERIFIED"

def userNotFound (userId : UserId) : Err := .notFound ("User with ID: " ++ toString userId ++ " not found")

def toggleUserStatus (userId adminId : UserId) : Op Reply :=
  if userId = adminId then
    .throw (.badRequest "You cannot toggle your own verification status")
  else do
    let found : Option User ← query (.userById userId)
    match found with
    | none => .throw (userNotFound userId)
    | some user => do
      let updated : User ← update (.userUpdate userId (.isVerified (!user.isVerified)))
      createAuditLog {
        adminId := adminId
        action := "USER_STATUS_TOGGLED"
        targetId := userId
        targetType := "USER"
        details := .status (verifiedWord user.isVerified) (verifiedWord updated.isVerified) }
      pure (.toggled updated.id updated.name updated.email updated.isVerified)

def makeAdmin (userId adminId : UserId) : Op Reply :=
  if userId = adminId then
    .throw (.badRequest "You cannot promote yourself (you are already an admin)")
  else do
    let found : Option User ← query (.userById userId)
    match found with
    | none => .throw (userNotFound userId)
    | some user =>
      if user.role = .ADMIN then
        .throw (.badRequest ("User with ID: " ++ toString userId ++ " is already an admin"))
      else do
        let updated : User ← update (.userUpdate userId (.role .ADMIN))
        createAuditLog {
          adminId := adminId
          action := "USER_PROMOTED_TO_ADMIN"
          targetId := userId
          targetType := "USER"
          details := .role user.role .ADMIN }
        pure (.promoted updated.id updated.name updated.email updated.phone updated.role
          updated.isVerified)

def demoteAdmin (userId adminId : UserId) : Op Reply :=
  if userId = adminId then .throw (.badRequest "You cannot demote yourself")
  else do
    let found : Option User ← query (.userById userId)
    match found with
    | none => .throw (userNotFound userId)
    | some user =>
      if user.role ≠ .ADMIN then
        .throw (.badRequest ("User with ID: " ++ toString userId ++ " is not an admin"))
      else do
        let updated : User ← update (.userUpdate userId (.role .USER))
        createAuditLog {
          adminId := adminId
          action := "ADMIN_DEMOTED_TO_USER"
          targetId := userId
          targetType := "USER"
          details := .role .ADMIN .USER }
        pure (.promoted updated.id updated.name updated.email updated.phone updated.role
          updated.isVerified)

end AdminService

/-- A route of `AdminController`: the guards, then the service. -/
def adminRoute (accessToken : Jwt) (service : UserId → Op Reply) : Op Reply := do
  let user ← JwtStrategy.validate accessToken.toJwtPayload
  RolesGuard.canActivate user
  service user.id

def Call.body (cfg : Config) : Call → Op Reply
  | login dto => AuthService.login cfg dto
  | refresh refreshToken => AuthController.refresh cfg refreshToken
  | logout accessToken refreshToken => AuthController.logout accessToken refreshToken
  | logoutAll accessToken => AuthController.logoutAll accessToken
  | forgotPassword email => AuthService.forgotPassword email
  | resetPassword token newPassword => AuthService.resetPassword token newPassword
  | cleanupExpiredTokens => AuthService.cleanupExpiredTokens
  | toggleUserStatus accessToken userId =>
    adminRoute accessToken (AdminService.toggleUserStatus userId)
  | makeAdmin accessToken userId => adminRoute accessToken (AdminService.makeAdmin userId)
  | demoteAdmin accessToken userId => adminRoute accessToken (AdminService.demoteAdmin userId)

/-- Time passes. -/
structure Tick where
  ms : ℕ
  deriving DecidableEq, Repr

def service (cfg : Config) : Service Stmt Stmt.Reply Err Empty Write World Call Tick Reply where
  toEngine := engine cfg
  body := Call.body cfg
  accepts _ _ := true
  evolve v w := { w with now := w.now + v.ms }

abbrev Sys := System Stmt Stmt.Reply Err Empty Write World Call Reply

abbrev Act := Action Call Tick

/-- Nothing has been requested yet, the unique columns are unique, and no id or `jti`
that is still to be drawn is in use. -/
structure Sys.Initial (s : Sys) : Prop where
  threads : s.threads = []
  history : s.world.history = []
  valid : s.world.db.Valid
  drawn : ∀ r ∈ s.world.db.refreshTokens,
    r.id < s.world.uuid ∧ r.token.token.jti < s.world.uuid

end TurfSync.Accounts
