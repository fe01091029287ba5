import TurfSync.Store.Accounts

/-! `AuthService`, the two JWT strategies and the roles guard. A request runs its guards
first. The checks that passport makes by itself, on signatures and on the expiry inside
a token, are left out. -/

namespace TurfSync.Accounts

open Txn

/-- What a request returns. -/
inductive Reply where
  | session (user : Profile) (tokens : TokenPair)
  | tokens (tokens : TokenPair)
  | message (text : String)
  | promoted (id : UserId) (name email phone : String) (role : Role) (isVerified : Bool)
  | toggled (id : UserId) (name email : String) (isVerified : Bool)
  | done
  deriving DecidableEq, Repr

namespace JwtStrategy

def validate (payload : JwtPayload) : Op User := do
  let found : Option User ← query (.userById payload.sub)
  match found with
  | none => .throw (.unauthorized "User not found")
  | some user => pure user

end JwtStrategy

namespace RolesGuard

/-- The guard of a route for admins, after `JwtAuthGuard`. -/
def canActivate (user : User) : Op Unit :=
  if user.role = .ADMIN then pure () else .throw (.forbidden "Forbidden resource")

end RolesGuard

/-- The milliseconds of a unit of `JWT_REFRESH_EXPIRES_IN`. -/
def unitMs : Char → Option Time
  | 's' => some 1000
  | 'm' => some 60000
  | 'h' => some 3600000
  | 'd' => some 86400000
  | _ => none

/-- A number and a unit; anything else counts as seven days. -/
def parseDurationMs (duration : String) : Time :=
  let digits := duration.toList.dropLast
  match duration.toList.getLast?.bind unitMs with
  | some unit =>
    if digits ≠ [] ∧ digits.all Char.isDigit then
      digits.foldl (fun n d => 10 * n + (d.toNat - '0'.toNat)) 0 * unit
    else 7 * dayMs
  | none => 7 * dayMs

/-- The 15 minutes of a lockout. -/
def lockoutMs : Time := 900000

/-- `Math.ceil(ms / (60 * 1000))`. -/
def ceilMinutes (ms : Time) : ℤ := -(-ms / 60000)

namespace AuthService

def generateTokens (cfg : Config) (payload : JwtPayload) : Op TokenPair := do
  let now : Time ← external .dateNow
  update (.tokenCreate payload (now + parseDurationMs cfg.refreshExpiresIn))

/-- The rejection of a login while the account is locked. -/
def checkLockout (user : User) : Op Unit :=
  match user.lockoutUntil with
  | none => pure ()
  | some lockoutUntil => do
    let now : Time ← external .dateNow
    if now < lockoutUntil then do
      let now : Time ← external .dateNow
      .throw (.unauthorized ("This account is temporarily locked. Please try again in " ++
        toString (ceilMinutes (lockoutUntil - now)) ++ " minute(s)."))
    else pure ()

/-- The branch of `login` for a wrong password. -/
def failLogin (user : User) : Op Reply := do
  let newAttempts := user.failedLoginAttempts + 1
  if 5 ≤ newAttempts then do
    let now : Time ← external .dateNow
    let _ ← update (.userUpdate user.id (.failedLogin newAttempts (some (now + lockoutMs))))
    .throw (.unauthorized
      "Too many failed attempts. This account has been locked for 15 minutes.")
  else do
    let _ ← update (.userUpdate user.id (.failedLogin newAttempts none))
    .throw (.unauthorized "Email or password is incorrect")

/-- The branch of `login` for a right password. -/
def passLogin (cfg : Config) (user : User) : Op Reply := do
  if 0 < user.failedLoginAttempts ∨ user.lockoutUntil.isSome then do
    let _ ← update (.userUpdate user.id .unlocked)
    let tokens ← generateTokens cfg ⟨user.id, user.email, user.role⟩
    pure (.session user.toProfile tokens)
  else do
    let tokens ← generateTokens cfg ⟨user.id, user.email, user.role⟩
    pure (.session user.toProfile tokens)

def login (cfg : Config) (dto : LoginDto) : Op Reply := do
  let found : Option User ← query (.userByEmail dto.email)
  match found with
  | none => .throw (.unauthorized "Email or password is incorrect")
  | some user => do
    checkLockout user
    if cfg.argon2Verify user.passwordHash dto.password = false then failLogin user
    else passLogin cfg user

def refreshTokens (cfg : Config) (userId : UserId) (oldRefreshToken : Jwt) : Op Reply := do
  let found : Option RefreshToken ← query (.tokenFindFirst ⟨oldRefreshToken⟩ userId)
  match found with
  | none => .throw (.unauthorized "Invalid Refresh Token")
  | some storedToken => do
    let _ ← update (.tokenDelete storedToken.id)
    let found : Option User ← query (.userById userId)
    match found with
    | none => .throw (.unauthorized "User not found")
    | some user => do
      let tokens ← generateTokens cfg ⟨user.id, user.email, user.role⟩
      pure (.tokens tokens)

def logout (userId : UserId) (refreshToken : Jwt) : Op Reply := do
  let _ ← update (.tokenDeleteMany (.userToken userId ⟨refreshToken⟩))
  pure (.message "Logout successful")

def logoutAll (userId : UserId) : Op Reply := do
  let _ ← update (.tokenDeleteMany (.user userId))
  pure (.message "Logged out from all devices")

def forgotPassword (email : String) : Op Reply := do
  let found : Option User ← query (.userByEmail email)
  match found with
  | none => pure (.message "Reset email has been sent")
  | some user => do
    let token : ℕ ← external .randomBytes
    let now : Time ← external .dateNow
    let _ ← update (.userUpdate user.id (.resetRequested token (now + hourMs)))
    let _ ← external (.sendPasswordResetEmail user.email user.name token)
    pure (.message "Reset email has been sent")

def resetPassword (token : ℕ) (newPassword : String) : Op Reply := do
  let now : Time ← external .dateNow
  let found : Option User ← query (.userByResetToken token now)
  match found with
  | none => .throw (.badRequest "Invalid or expired reset token")
  | some user => do
    let passwordHash : String ← external (.argon2Hash newPassword)
    let _ ← update (.userUpdate user.id (.passwordReset passwordHash))
    let _ ← update (.tokenDeleteMany (.user user.id))
    pure (.message "Password reset successfully")

def cleanupExpiredTokens : Op Reply := do
  let now : Time ← external .dateNow
  let _ ← update (.tokenDeleteMany (.expired now))
  pure .done

end AuthService

namespace JwtRefreshStrategy

/-- A token that is signed but not stored has been used or revoked before, and every
session of its user is revoked. -/
def validate (refreshToken : Jwt) : Op User := do
  let found : Option (RefreshToken × User) ← query (.tokenFindUnique ⟨refreshToken⟩)
  match found with
  | none => do
    let _ ← update (.tokenDeleteMany (.user refreshToken.sub))
    .throw (.unauthorized "Session expired or token reuse detected. Please log in again.")
  | some (tokenRecord, user) => do
    let now : Time ← external .dateNow
    if tokenRecord.expiresAt < now then do
      let _ ← update (.tokenDelete tokenRecord.id)
      .throw (.unauthorized "Refresh token has expired")
    else pure user

end JwtRefreshStrategy

namespace AuthController

def refresh (cfg : Config) (refreshToken : Jwt) : Op Reply := do
  let user ← JwtRefreshStrategy.validate refreshToken
  AuthService.refreshTokens cfg user.id refreshToken

def logout (accessToken : Jwt) (refreshToken : Option Jwt) : Op Reply := do
  let user ← JwtStrategy.validate accessToken.toJwtPayload
  match refreshToken with
  | none => pure (.message "Logout successful")
  | some token => AuthService.logout user.id token

def logoutAll (accessToken : Jwt) : Op Reply := do
  let user ← JwtStrategy.validate accessToken.toJwtPayload
  AuthService.logoutAll user.id

end AuthController

end TurfSync.Accounts
