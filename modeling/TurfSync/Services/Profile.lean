import TurfSync.Services.Auth
import TurfSync.Txn.Automaton

/-! Phone numbers: the pattern of the two DTOs, `SmsService.formatNumber`, and the requests
that write a phone, `AuthService.register` and `AuthService.updateProfile`. The statements
run outside any transaction. Of the checks of the DTOs only the pattern of the phone is
modelled, and of the columns all but `createdAt`. -/

namespace TurfSync.Profiles

open Txn Accounts

/-! ### Phone numbers -/

/-- `[3-9]\d{8}`. -/
def Subscriber (digits : List Char) : Prop :=
  match digits with
  | d :: ds => '3' ≤ d ∧ d ≤ '9' ∧ ds.length = 8 ∧ ∀ c ∈ ds, c.isDigit
  | [] => False

instance : DecidablePred Subscriber
  | d :: ds =>
    have : Decidable (∀ c ∈ ds, c.isDigit) := List.decidableBAll _ ds
    inferInstanceAs (Decidable ('3' ≤ d ∧ d ≤ '9' ∧ ds.length = 8 ∧ ∀ c ∈ ds, c.isDigit))
  | [] => inferInstanceAs (Decidable False)

/-- What follows `+8801`, `8801` or `01`. -/
def subscriber : List Char → List Char
  | '+' :: '8' :: '8' :: '0' :: '1' :: rest => rest
  | '8' :: '8' :: '0' :: '1' :: rest => rest
  | '0' :: '1' :: rest => rest
  | _ => []

/-- `/^(\+8801|8801|01)[3-9]\d{8}$/`. -/
def Accepted (phone : String) : Prop := Subscriber (subscriber phone.toList)

instance : DecidablePred Accepted := fun phone =>
  inferInstanceAs (Decidable (Subscriber (subscriber phone.toList)))

/-- The phone of a valid request. -/
structure Phone where
  text : String
  accepted : Accepted text
  deriving DecidableEq

def formatNumber (phone : String) : String :=
  if phone = "" then "" else
    let digits := phone.toList.filter Char.isDigit
    let cleaned := if digits.head? = some '0' then '8' :: '8' :: digits else digits
    String.ofList (if cleaned.head? = some '+' then cleaned else '+' :: cleaned)

/-! ### The requests -/

structure RegisterDto where
  name : String
  email : String
  phone : Phone
  password : String
  deriving DecidableEq

structure UpdateProfileDto where
  name : String
  phone : Phone
  deriving DecidableEq

inductive Call where
  | register (dto : RegisterDto)
  | updateProfile (userId : UserId) (dto : UpdateProfileDto)
  deriving DecidableEq

/-- What a statement can fail with: a unique column that is taken, with `meta.target`, or another
error. -/
inductive Fault where
  | P2002 (target : List String)
  | other (e : Err)
  deriving DecidableEq

inductive Query where
  | byEmailOrPhone (email phone : String)
  | byPhoneNot (phone : String) (id : UserId)
  deriving DecidableEq, Repr

/-- The columns of `user.create`. -/
structure NewUser where
  name : String
  email : String
  phone : Phone
  passwordHash : String
  deriving DecidableEq

/-- The row, with the defaults of the schema. -/
def NewUser.row (d : NewUser) (id : UserId) : User where
  id := id
  name := d.name
  email := d.email
  phone := d.phone.text
  role := .USER
  isVerified := false
  isActive := true
  passwordResetToken := none
  passwordResetExpires := none
  failedLoginAttempts := 0
  lockoutUntil := none
  passwordHash := d.passwordHash

inductive Stmt where
  | query (q : Query)
  | dateNow
  | argon2Hash (password : String)
  | userCreate (data : NewUser)
  | userUpdate (id : UserId) (name : String) (phone : Phone)
  | tokenCreate (payload : JwtPayload) (expiresAt : Time)
  deriving DecidableEq

@[reducible] def Stmt.Reply : Stmt → Type
  | .query _ => Option User
  | .dateNow => Time
  | .argon2Hash _ => String
  | .userCreate _ => User
  | .userUpdate _ _ _ => User
  | .tokenCreate _ _ => TokenPair

inductive Write where
  | userInsert (id : UserId) (data : NewUser)
  | profileSet (id : UserId) (name : String) (phone : Phone)
  | tokenInsert (row : RefreshToken)
  deriving DecidableEq

def apply (db : Accounts.Db) : Write → Accounts.Db
  | .userInsert id data => { db with users := db.users ++ [data.row id] }
  | .profileSet id name phone => { db with
      users := Rows.update (·.id) [id] (fun u => { u with name := name, phone := phone.text })
        db.users }
  | .tokenInsert row => { db with refreshTokens := db.refreshTokens ++ [row] }

def Query.eval (db : Accounts.Db) : Query → Option User
  | .byEmailOrPhone email phone => db.users.find? fun u => u.email = email ∨ u.phone = phone
  | .byPhoneNot phone id => db.users.find? fun u => u.phone = phone ∧ u.id ≠ id

structure World where
  db : Accounts.Db
  now : Time
  uuid : ℕ

/-- Emails and phones are unique columns. The error of the `pg` adapter has no `meta.target`. -/
def Stmt.act (cfg : Accounts.Config) :
    (s : Stmt) → World → World → Effect Fault Empty Write World s.Reply
  | .query q, view, w => ⟨.ok (q.eval view.db), [], [], w⟩
  | .dateNow, _, w => ⟨.ok w.now, [], [], w⟩
  | .argon2Hash password, _, w =>
    ⟨.ok (cfg.argon2Hash password w.uuid), [], [], { w with uuid := w.uuid + 1 }⟩
  | .userCreate d, view, w =>
    if ∃ u ∈ view.db.users, u.email = d.email then ⟨.error (.P2002 []), [], [], w⟩
    else if ∃ u ∈ view.db.users, u.phone = d.phone.text then ⟨.error (.P2002 []), [], [], w⟩
    else ⟨.ok (d.row w.uuid), [], [.userInsert w.uuid d], { w with uuid := w.uuid + 1 }⟩
  | .userUpdate id name phone, view, w => match view.db.user? id with
    | none => ⟨.error (.other .P2025), [], [], w⟩
    | some u =>
      if ∃ u ∈ view.db.users, u.id ≠ id ∧ u.phone = phone.text then
        ⟨.error (.P2002 []), [], [], w⟩
      else ⟨.ok { u with name := name, phone := phone.text }, [], [.profileSet id name phone], w⟩
  | .tokenCreate payload expiresAt, view, w =>
    if (view.db.user? payload.sub).isNone then ⟨.error (.other .P2003), [], [], w⟩
    else if (view.db.token? (newToken w.uuid payload expiresAt).token).isSome then
      ⟨.error (.P2002 []), [], [], w⟩
    else ⟨.ok ⟨⟨payload, w.uuid⟩, ⟨payload, w.uuid + 1⟩⟩, [],
      [.tokenInsert (newToken w.uuid payload expiresAt)], { w with uuid := w.uuid + 3 }⟩

def engine (cfg : Accounts.Config) : Engine Stmt Stmt.Reply Fault Empty Write World Call where
  act := Stmt.act cfg
  apply x w := { w with db := apply w.db x }
  commit _ ws w := { w with db := ws.foldl apply w.db }
  fault := .other .infrastructure

abbrev Op (α : Type) := Script Stmt Stmt.Reply Fault α

def Op.throw {α : Type} (e : Err) : Op α := Prog.throw (.other e)

/-- What a request returns: the selected columns, and the tokens of a new user. -/
inductive Reply where
  | registered (id : UserId) (name email phone : String) (role : Role) (tokens : TokenPair)
  | profile (id : UserId) (name email phone : String) (role : Role) (isVerified : Bool)
  deriving DecidableEq

end TurfSync.Profiles

namespace TurfSync.Profiles.AuthService

open Txn Accounts

def generateTokens (cfg : Accounts.Config) (payload : JwtPayload) : Op TokenPair := do
  let now : Time ← Script.perform (S := Stmt) .dateNow
  Script.perform (S := Stmt) (.tokenCreate payload (now + parseDurationMs cfg.refreshExpiresIn))

/-- The `catch` of `register`. -/
def conflicts (error : Fault) : Op Reply :=
  match error with
  | .P2002 target =>
    if "email" ∈ target then .throw (.conflict "Email is already registered")
    else if "phone" ∈ target then .throw (.conflict "Phone number is already registered")
    else .throw (.conflict "Email or phone number is already registered")
  | .other e => .throw e

def register (cfg : Accounts.Config) (dto : RegisterDto) : Op Reply := do
  let existingUser : Option User ←
    Script.perform (S := Stmt) (.query (.byEmailOrPhone dto.email dto.phone.text))
  match existingUser with
  | some existingUser =>
    .throw (.conflict (if existingUser.email = dto.email then "Email is already registered"
      else "Phone number is already registered"))
  | none => do
    let passwordHash : String ← Script.perform (S := Stmt) (.argon2Hash dto.password)
    Prog.tryCatch (do
      let user : User ← Script.perform (S := Stmt) (.userCreate {
        name := dto.name
        email := dto.email
        phone := dto.phone
        passwordHash := passwordHash })
      let tokens ← generateTokens cfg ⟨user.id, user.email, user.role⟩
      pure (.registered user.id user.name user.email user.phone user.role tokens)) conflicts

def updateProfile (userId : UserId) (dto : UpdateProfileDto) : Op Reply := do
  let existingPhone : Option User ←
    Script.perform (S := Stmt) (.query (.byPhoneNot dto.phone.text userId))
  match existingPhone with
  | some _ => .throw (.conflict "Phone number is already registered")
  | none => do
    let u : User ← Script.perform (S := Stmt) (.userUpdate userId dto.name dto.phone)
    pure (.profile u.id u.name u.email u.phone u.role u.isVerified)

end TurfSync.Profiles.AuthService

namespace TurfSync.Profiles

open Txn Accounts

def Call.body (cfg : Accounts.Config) : Call → Op Reply
  | .register dto => AuthService.register cfg dto
  | .updateProfile userId dto => AuthService.updateProfile userId dto

/-- Time passes. -/
structure Tick where
  ms : ℕ
  deriving DecidableEq, Repr

def service (cfg : Accounts.Config) :
    Service Stmt Stmt.Reply Fault Empty Write World Call Tick Reply where
  toEngine := engine cfg
  body := Call.body cfg
  accepts _ _ := true
  evolve v w := { w with now := w.now + v.ms }

abbrev Sys := System Stmt Stmt.Reply Fault Empty Write World Call Reply

abbrev Act := Action Call Tick

end TurfSync.Profiles
