import TurfSync.Services.Admin
import TurfSync.Txn.Automaton

/-! Which statements the requests on accounts use. Only `forgotPassword` draws tokens and
hands them to users; only the admin requests change roles and verification and write to
the audit log. -/

namespace TurfSync.Accounts

open Txn

/-- A statement that draws no token and hands none to a user. -/
def Stmt.tokenless : Stmt → Bool
  | .external .randomBytes => false
  | .update (.userUpdate _ (.resetRequested _ _)) => false
  | _ => true

/-- A statement that changes nothing that admin requests change. -/
def Stmt.unaudited : Stmt → Bool
  | .update (.userUpdate _ (.role _)) => false
  | .update (.userUpdate _ (.isVerified _)) => false
  | .update (.auditLogCreate _) => false
  | _ => true

/-- A program of such statements only, outside any transaction. -/
abbrev Only {α : Type} (φ : Stmt → Bool) (p : Op α) : Prop :=
  Script.Uses (fun m => ∃ s : Stmt, m = .stmt s ∧ φ s = true) (fun _ => True) p

/-- A program of ordinary statements. -/
abbrev Ordinary {α : Type} (p : Op α) : Prop := Only (fun s => s.tokenless && s.unaudited) p

section

variable {α β : Type}

theorem only_stmt {φ : Stmt → Bool} {s : Stmt} (hs : φ s = true) {f : s.Reply → Op β}
    (hf : ∀ a, Only φ (f a)) : Only φ ((Script.perform s).bind f) :=
  Script.uses_perform_bind ⟨s, rfl, hs⟩ hf

theorem only_perform {φ : Stmt → Bool} {s : Stmt} (hs : φ s = true) :
    Only φ (Script.perform s : Op s.Reply) :=
  Script.uses_perform ⟨s, rfl, hs⟩

theorem only_bind {φ : Stmt → Bool} {p : Op α} {f : α → Op β} (hp : Only φ p)
    (hf : ∀ a, Only φ (f a)) : Only φ (p.bind f) :=
  Script.uses_bind hp fun a _ => hf a

theorem validate_ordinary (payload : JwtPayload) : Ordinary (JwtStrategy.validate payload) := by
  refine only_stmt rfl fun found => ?_
  cases found <;> trivial

theorem generateTokens_ordinary (cfg : Config) (payload : JwtPayload) :
    Ordinary (AuthService.generateTokens cfg payload) :=
  only_stmt rfl fun _ => only_perform rfl

theorem checkLockout_ordinary (user : User) : Ordinary (AuthService.checkLockout user) := by
  rw [AuthService.checkLockout]
  cases user.lockoutUntil with
  | none => trivial
  | some t =>
    refine only_stmt rfl fun now => ?_
    split_ifs
    · exact only_stmt rfl fun _ => trivial
    · trivial

theorem login_ordinary (cfg : Config) (dto : LoginDto) : Ordinary (AuthService.login cfg dto) := by
  refine only_stmt rfl fun found => ?_
  cases found with
  | none => trivial
  | some user =>
    refine only_bind (checkLockout_ordinary user) fun _ => ?_
    split_ifs
    · rw [AuthService.failLogin]
      split_ifs
      · exact only_stmt rfl fun _ => only_stmt rfl fun _ => trivial
      · exact only_stmt rfl fun _ => trivial
    · rw [AuthService.passLogin]
      split_ifs
      · exact only_stmt rfl fun _ =>
          only_bind (generateTokens_ordinary cfg _) fun _ => trivial
      · exact only_bind (generateTokens_ordinary cfg _) fun _ => trivial

theorem refresh_ordinary (cfg : Config) (token : Jwt) :
    Ordinary (AuthController.refresh cfg token) := by
  have hvalidate : Ordinary (JwtRefreshStrategy.validate token) := by
    refine only_stmt rfl fun found => ?_
    cases found with
    | none => exact only_stmt rfl fun _ => trivial
    | some found =>
      refine only_stmt rfl fun now => ?_
      split_ifs
      · exact only_stmt rfl fun _ => trivial
      · trivial
  refine only_bind hvalidate fun user => only_stmt rfl fun found => ?_
  cases found with
  | none => trivial
  | some stored =>
    refine only_stmt rfl fun _ => only_stmt rfl fun found => ?_
    cases found with
    | none => trivial
    | some user => exact only_bind (generateTokens_ordinary cfg _) fun _ => trivial

theorem logout_ordinary (accessToken : Jwt) (token : Option Jwt) :
    Ordinary (AuthController.logout accessToken token) := by
  refine only_bind (validate_ordinary _) fun user => ?_
  cases token with
  | none => trivial
  | some token => exact only_stmt rfl fun _ => trivial

theorem resetPassword_ordinary (token : ℕ) (newPassword : String) :
    Ordinary (AuthService.resetPassword token newPassword) := by
  refine only_stmt rfl fun now => only_stmt rfl fun found => ?_
  cases found with
  | none => trivial
  | some user =>
    exact only_stmt rfl fun _ => only_stmt rfl fun _ =>
      only_stmt rfl fun _ => trivial

end

/-- The user management of `AdminController`. -/
def Call.Managing : Call → Prop
  | .toggleUserStatus _ _ | .makeAdmin _ _ | .demoteAdmin _ _ => True
  | _ => False

theorem Call.body_ordinary (cfg : Config) {c : Call} (hc : ¬ c.Managing)
    (hforgot : ∀ email, c ≠ .forgotPassword email) : Ordinary (c.body cfg) := by
  cases c with
  | login dto => exact login_ordinary cfg dto
  | refresh token => exact refresh_ordinary cfg token
  | logout accessToken token => exact logout_ordinary accessToken token
  | logoutAll accessToken =>
    exact only_bind (validate_ordinary _) fun _ => only_stmt rfl fun _ => trivial
  | forgotPassword email => exact absurd rfl (hforgot email)
  | resetPassword token newPassword => exact resetPassword_ordinary token newPassword
  | cleanupExpiredTokens =>
    exact only_stmt rfl fun _ => only_stmt rfl fun _ => trivial
  | _ => exact absurd trivial hc

theorem forgotPassword_unaudited (email : String) :
    Only Stmt.unaudited (AuthService.forgotPassword email) := by
  refine only_stmt rfl fun found => ?_
  cases found with
  | none => trivial
  | some user =>
    exact only_stmt rfl fun _ => only_stmt rfl fun _ => only_stmt rfl fun _ =>
      only_stmt rfl fun _ => trivial

/-! ### Admin requests -/

theorem adminRoute_only {φ : Stmt → Bool} (hquery : ∀ q, φ (.query q) = true) (accessToken : Jwt)
    {service : UserId → Op Reply} (h : ∀ id, Only φ (service id)) :
    Only φ (adminRoute accessToken service) := by
  have hvalidate : Only φ (JwtStrategy.validate accessToken.toJwtPayload) := by
    refine only_stmt (hquery _) fun found => ?_
    cases found <;> trivial
  refine only_bind hvalidate fun user => ?_
  rw [Prog.bind_eq, RolesGuard.canActivate]
  split_ifs
  · exact h user.id
  · trivial

theorem manage_tokenless {userId : UserId} {change : UserChange} {f : User → AuditLog}
    {r : User → Reply} (hchange : Stmt.tokenless (.update (.userUpdate userId change)) = true) :
    Only Stmt.tokenless ((update (.userUpdate userId change)).bind fun updated =>
      (AdminService.createAuditLog (f updated)).bind fun _ => .ret (r updated)) :=
  only_stmt hchange fun _ => only_stmt rfl fun _ => trivial

theorem Call.body_tokenless (cfg : Config) {c : Call} (hc : c.Managing) :
    Only Stmt.tokenless (c.body cfg) := by
  cases c with
  | toggleUserStatus accessToken userId =>
    refine adminRoute_only (fun _ => rfl) accessToken fun adminId => ?_
    rw [AdminService.toggleUserStatus]
    split_ifs
    · trivial
    refine only_stmt rfl fun found => ?_
    cases found with
    | none => trivial
    | some user => exact manage_tokenless rfl
  | makeAdmin accessToken userId =>
    refine adminRoute_only (fun _ => rfl) accessToken fun adminId => ?_
    rw [AdminService.makeAdmin]
    split_ifs
    · trivial
    refine only_stmt rfl fun found => ?_
    cases found with
    | none => trivial
    | some user =>
      dsimp only
      split_ifs
      · trivial
      · exact manage_tokenless rfl
  | demoteAdmin accessToken userId =>
    refine adminRoute_only (fun _ => rfl) accessToken fun adminId => ?_
    rw [AdminService.demoteAdmin]
    split_ifs
    · trivial
    refine only_stmt rfl fun found => ?_
    cases found with
    | none => trivial
    | some user =>
      dsimp only
      split_ifs
      · trivial
      · exact manage_tokenless rfl
  | _ => exact hc.elim

/-! ### What a statement writes -/

/-- The write of a statement, if it makes one. -/
def Stmt.Issues : Stmt → Write → Prop
  | .query q, x => x = .seen q
  | .update (.userUpdate id change), x => x = .userSet id change
  | .update (.tokenCreate _ _), x => ∃ row, x = .tokenInsert row
  | .update (.tokenDelete id), x => x = .tokenDelete (.row id)
  | .update (.tokenDeleteMany scope), x => x = .tokenDelete scope
  | .update (.auditLogCreate row), x => x = .auditInsert row
  | .external _, _ => False

theorem act_writes (cfg : Config) (s : Stmt) (v w : World) :
    ((engine cfg).act s v w).writes = [] ∨
      ∃ x, ((engine cfg).act s v w).writes = [x] ∧ s.Issues x := by
  cases s with
  | query q => exact .inr ⟨_, rfl, rfl⟩
  | external x => exact .inl rfl
  | update u =>
    cases u with
    | userUpdate id change =>
      simp only [engine, Stmt.act, Update.plan]
      split
      · exact .inr ⟨_, rfl, rfl⟩
      · exact .inl rfl
    | tokenCreate payload expiresAt =>
      simp only [engine, Stmt.act, Update.plan]
      split_ifs
      · exact .inl rfl
      · exact .inl rfl
      · exact .inr ⟨_, rfl, _, rfl⟩
    | tokenDelete id =>
      simp only [engine, Stmt.act, Update.plan]
      split_ifs
      · exact .inr ⟨_, rfl, rfl⟩
      · exact .inl rfl
    | tokenDeleteMany scope => exact .inr ⟨_, rfl, rfl⟩
    | auditLogCreate data =>
      simp only [engine, Stmt.act, Update.plan]
      split_ifs
      · exact .inl rfl
      · exact .inr ⟨_, rfl, rfl⟩

theorem act_db (cfg : Config) (s : Stmt) (v w : World) :
    ((engine cfg).act s v w).world.db = w.db ∧ ((engine cfg).act s v w).world.history = w.history := by
  cases s with
  | external x => cases x <;> exact ⟨rfl, rfl⟩
  | _ => exact ⟨rfl, rfl⟩

/-- The world after a statement: nothing is written, or one write, with an entry. -/
theorem after_stmt (cfg : Config) (c : Session Call) {l : Local Empty Write} (hl : l.tx = none)
    (w : World) (s : Stmt) :
    (((engine cfg).act s w w).writes = [] ∧
      ((engine cfg).after c ((engine cfg).exec l w (.stmt s))).db = w.db ∧
      ((engine cfg).after c ((engine cfg).exec l w (.stmt s))).history = w.history) ∨
    ∃ x m, ((engine cfg).act s w w).writes = [x] ∧ s.Issues x ∧
      ((engine cfg).after c ((engine cfg).exec l w (.stmt s))).db = w.db.apply x ∧
      ((engine cfg).after c ((engine cfg).exec l w (.stmt s))).history = w.history ++ [⟨c, [x], m⟩] := by
  obtain ⟨hdb, hhistory⟩ := act_db cfg s w w
  rw [Engine.after_auto hl]
  rcases act_writes cfg s w w with hws | ⟨x, hws, hissues⟩
  · rw [if_pos hws]
    exact .inl ⟨hws, hdb, hhistory⟩
  · rw [hws, if_neg (List.cons_ne_nil _ _)]
    refine .inr ⟨x, ((engine cfg).act s w w).world.moment, rfl, hissues, ?_, ?_⟩
    · show Db.apply ((engine cfg).act s w w).world.db x = _
      rw [hdb]
    · show ((engine cfg).act s w w).world.history ++ _ = _
      rw [hhistory]

end TurfSync.Accounts
