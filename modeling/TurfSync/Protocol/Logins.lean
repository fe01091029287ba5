import TurfSync.Txn.Solo
import TurfSync.Protocol.Auth

/-! What a login and a reset do when they run alone and no statement fails: the outcome is
exact, as far as the rows of users and the reply are concerned. -/

namespace TurfSync.Accounts

open Txn Journal

variable {cfg : Config} {c : Session Call} {w : World}

/-! ### Statements -/

@[simp] theorem solo_query (q : Query) : (engine cfg).solo c (query q) .idle w =
    (.ok (q.eval w.db), .idle, (engine cfg).commit c [.seen q] w) :=
  Engine.solo_perform_auto (S := Stmt) (engine cfg) c (.query q) w

@[simp] theorem solo_external (x : External) : (engine cfg).solo c (external x) .idle w =
    (.ok (x.eval cfg w).1, .idle, (x.eval cfg w).2) :=
  Engine.solo_perform_read (S := Stmt) (engine cfg) c (.external x) w rfl

/-- A write statement with the plan `p`. -/
theorem solo_update {u : Update} {p : Except Err u.Reply × List Write}
    (hp : u.plan w.db w.uuid = p) : (engine cfg).solo c (update u) .idle w =
      (p.1, .idle, if p.2.isEmpty then { w with uuid := w.uuid + 3 }
        else (engine cfg).commit c p.2 { w with uuid := w.uuid + 3 }) := by
  subst hp
  exact Engine.solo_perform_auto (S := Stmt) (engine cfg) c (.update u) w

theorem solo_userUpdate {user : User} (hu : w.db.user? user.id = some user) (change : UserChange) :
    (engine cfg).solo c (update (.userUpdate user.id change)) .idle w =
      (.ok (change.set user), .idle,
        (engine cfg).commit c [.userSet user.id change] { w with uuid := w.uuid + 3 }) := by
  have hplan : (Update.userUpdate user.id change).plan w.db w.uuid =
      (.ok (change.set user), [.userSet user.id change]) := by
    simp only [Update.plan, hu]
  exact solo_update hplan

/-! ### Tokens -/

/-- Every `jti` in use has been drawn. -/
def World.Drawn (w : World) : Prop := ∀ r ∈ w.db.refreshTokens, r.token.token.jti < w.uuid

/-- New tokens are issued, and no user changes. -/
theorem solo_generateTokens {payload : JwtPayload} (hdrawn : w.Drawn)
    (huser : (w.db.user? payload.sub).isSome) :
    ∃ tokens w', (engine cfg).solo c (AuthService.generateTokens cfg payload) .idle w =
      (.ok tokens, .idle, w') ∧ w'.now = w.now ∧ w'.db.users = w.db.users := by
  have hfree : ∀ expiresAt, w.db.token? (newToken w.uuid payload expiresAt).token = none := by
    intro expiresAt
    refine Rows.lookup_none.mpr fun r hr he => ?_
    have hlt := hdrawn r hr
    rw [he] at hlt
    exact absurd hlt (by simp [newToken])
  have hplan : ∀ expiresAt, (Update.tokenCreate payload expiresAt).plan w.db w.uuid =
      (.ok ⟨⟨payload, w.uuid⟩, ⟨payload, w.uuid + 1⟩⟩,
        [.tokenInsert (newToken w.uuid payload expiresAt)]) := by
    intro expiresAt
    obtain ⟨u, hu⟩ := Option.isSome_iff_exists.mp huser
    simp only [Update.plan, hu, hfree, Option.isNone_some, Option.isSome_none, Bool.false_eq_true,
      if_false]
  unfold AuthService.generateTokens
  simp only [Prog.bind_eq, Engine.solo_bind, solo_external .dateNow, External.eval, Engine.andThen_ok,
    solo_update (hplan _)]
  exact ⟨_, _, rfl, rfl, rfl⟩

/-! ### Logins -/

/-- The message of a login that is turned away. -/
def lockedMessage (minutes : ℤ) : String :=
  "This account is temporarily locked. Please try again in " ++ toString minutes ++ " minute(s)."

/-- The message after a wrong password, the `n`th in a row. -/
def failedMessage (n : ℕ) : String :=
  if 5 ≤ n then "Too many failed attempts. This account has been locked for 15 minutes."
  else "Email or password is incorrect"

/-- The change that a wrong password makes. -/
def failedChange (now : Time) (user : User) : UserChange :=
  .failedLogin (user.failedLoginAttempts + 1)
    (if 5 ≤ user.failedLoginAttempts + 1 then some (now + lockoutMs) else none)

/-- A login of `user` at `now`: its reply, and the row it leaves. -/
inductive LoginEnds (cfg : Config) (dto : LoginDto) (now : Time) (user : User) :
    Except Err Reply → User → Prop
  | turnedAway {lock} (locked : lock ∈ user.lockoutUntil) (early : now < lock) :
      LoginEnds cfg dto now user
        (.error (.unauthorized (lockedMessage (ceilMinutes (lock - now))))) user
  | failed (free : ∀ lock ∈ user.lockoutUntil, ¬ now < lock)
      (wrong : cfg.argon2Verify user.passwordHash dto.password = false) :
      LoginEnds cfg dto now user
        (.error (.unauthorized (failedMessage (user.failedLoginAttempts + 1))))
        ((failedChange now user).set user)
  | passed {tokens} (free : ∀ lock ∈ user.lockoutUntil, ¬ now < lock)
      (right : cfg.argon2Verify user.passwordHash dto.password = true) :
      LoginEnds cfg dto now user (.ok (.session user.toProfile tokens))
        (UserChange.unlocked.set user)

/-- The row of one user is `user`, and the other rows are as they were. -/
def Db.Leaves (db db' : Db) (user : User) : Prop :=
  ∀ id, db'.user? id = if id = user.id then some user else db.user? id

theorem Db.Leaves.of_eq {db db' : Db} {user : User} (hu : db.user? user.id = some user)
    (h : db'.users = db.users) : db.Leaves db' user := by
  intro id
  have hsame : db'.user? id = db.user? id := by rw [Db.user?, Db.user?, h]
  rw [hsame]
  split_ifs with hid
  · rw [hid, hu]
  · rfl

theorem Db.leaves_userSet {db db' : Db} {user : User} (hu : db.user? user.id = some user)
    (change : UserChange) (h : db'.users = (db.apply (.userSet user.id change)).users) :
    db.Leaves db' (change.set user) := by
  intro id
  have hsame : db'.user? id = (db.apply (.userSet user.id change)).user? id := by
    rw [Db.user?, Db.user?, h]
  rw [hsame, user?_userSet, UserChange.set_id]
  split_ifs with hid
  · rw [hid, hu]
    rfl
  · rfl

theorem solo_checkLockout (user : User) :
    (engine cfg).solo c (AuthService.checkLockout user) .idle w =
      match user.lockoutUntil with
      | none => (.ok (), .idle, w)
      | some lock => if w.now < lock then
          (.error (.unauthorized (lockedMessage (ceilMinutes (lock - w.now)))), .idle, w)
        else (.ok (), .idle, w) := by
  unfold AuthService.checkLockout
  cases user.lockoutUntil with
  | none => rfl
  | some lock =>
    simp only [Prog.bind_eq, Engine.solo_bind, solo_external .dateNow, External.eval, Engine.andThen_ok]
    split_ifs
    · rw [Engine.solo_bind, solo_external .dateNow]
      rfl
    · rfl

theorem solo_failLogin {user : User} (hu : w.db.user? user.id = some user) :
    ∃ w', (engine cfg).solo c (AuthService.failLogin user) .idle w =
      (.error (.unauthorized (failedMessage (user.failedLoginAttempts + 1))), .idle, w') ∧
      w'.now = w.now ∧ w.db.Leaves w'.db ((failedChange w.now user).set user) := by
  unfold AuthService.failLogin failedMessage failedChange
  dsimp only
  split_ifs with hfive
  · simp only [Prog.bind_eq, Engine.solo_bind, solo_external .dateNow, External.eval, Engine.andThen_ok,
      solo_userUpdate hu]
    exact ⟨_, rfl, rfl, Db.leaves_userSet hu _ rfl⟩
  · simp only [Prog.bind_eq, Engine.solo_bind, Engine.andThen_ok, solo_userUpdate hu]
    exact ⟨_, rfl, rfl, Db.leaves_userSet hu _ rfl⟩

theorem solo_passLogin {user : User} (hu : w.db.user? user.id = some user) (hdrawn : w.Drawn) :
    ∃ tokens w', (engine cfg).solo c (AuthService.passLogin cfg user) .idle w =
      (.ok (.session user.toProfile tokens), .idle, w') ∧
      w'.now = w.now ∧ w.db.Leaves w'.db (UserChange.unlocked.set user) := by
  unfold AuthService.passLogin
  split_ifs with hcounted
  · simp only [Prog.bind_eq, Engine.solo_bind, Engine.andThen_ok, solo_userUpdate hu]
    generalize hw₁ : (engine cfg).commit c [.userSet user.id .unlocked] { w with uuid := w.uuid + 3 } = w₁
    have husers : w₁.db.users = (w.db.apply (.userSet user.id .unlocked)).users := by rw [← hw₁]; rfl
    have hleaves := Db.leaves_userSet hu .unlocked husers
    have hdrawn₁ : w₁.Drawn := by
      intro r hr
      rw [← hw₁] at hr ⊢
      exact Nat.lt_add_right 3 (hdrawn r hr)
    have hsome : (w₁.db.user? user.id).isSome := by
      rw [hleaves, UserChange.set_id, if_pos rfl]
      rfl
    obtain ⟨tokens, w₂, hw₂, hnow, hdb⟩ := @solo_generateTokens cfg c w₁
      ⟨user.id, user.email, user.role⟩ hdrawn₁ hsome
    rw [hw₂]
    refine ⟨tokens, w₂, rfl, by rw [hnow, ← hw₁]; rfl, Db.leaves_userSet hu _ ?_⟩
    rw [hdb, husers]
  · obtain ⟨tokens, w₂, hw₂, hnow, hdb⟩ := @solo_generateTokens cfg c w
      ⟨user.id, user.email, user.role⟩ hdrawn (by rw [hu]; rfl)
    simp only [Prog.bind_eq, Engine.solo_bind, hw₂]
    have hsame : UserChange.unlocked.set user = user := by
      obtain ⟨hzero, hnone⟩ := not_or.mp hcounted
      obtain ⟨⟨⟩, hash⟩ := user
      simp_all [UserChange.set]
    refine ⟨tokens, w₂, rfl, hnow, ?_⟩
    rw [hsame]
    exact .of_eq hu hdb

theorem solo_login {dto : LoginDto} {user : User} (hv : w.db.Valid) (hdrawn : w.Drawn)
    (hu : w.db.userByEmail? dto.email = some user) :
    ∃ r user' w', (engine cfg).solo c (AuthService.login cfg dto) .idle w = (r, .idle, w') ∧
      w'.now = w.now ∧ LoginEnds cfg dto w.now user r user' ∧ w.db.Leaves w'.db user' := by
  obtain ⟨hmem, -⟩ := Rows.lookup_some hu
  generalize hw₁ : (engine cfg).commit c [.seen (.userByEmail dto.email)] w = w₁
  have hdb₁ : w₁.db = w.db := by rw [← hw₁]; rfl
  have hnow₁ : w₁.now = w.now := by rw [← hw₁]; rfl
  have hdrawn₁ : w₁.Drawn := by rw [← hw₁]; exact hdrawn
  have huser : w₁.db.user? user.id = some user := by
    rw [hdb₁]
    exact Rows.lookup_of_mem hv.users hmem
  unfold AuthService.login
  simp only [Prog.bind_eq, Engine.solo_bind, solo_query (.userByEmail _), Query.eval, hu,
    Engine.andThen_ok, hw₁, solo_checkLockout, hnow₁]
  -- past the check of the lock, the password decides
  have hchecked : (∀ lock ∈ user.lockoutUntil, ¬ w.now < lock) → ∃ r user' w',
      (engine cfg).andThen c (.ok (), .idle, w₁) (fun _ =>
        if cfg.argon2Verify user.passwordHash dto.password = false then AuthService.failLogin user
        else AuthService.passLogin cfg user) = (r, .idle, w') ∧
      w'.now = w.now ∧ LoginEnds cfg dto w.now user r user' ∧ w.db.Leaves w'.db user' := by
    intro hfree
    rw [Engine.andThen_ok, ← hdb₁, ← hnow₁]
    rw [← hnow₁] at hfree
    split_ifs with hverify
    · obtain ⟨w', hw', hnow, hleaves⟩ := @solo_failLogin cfg c _ _ huser
      exact ⟨_, _, w', hw', hnow, .failed hfree hverify, hleaves⟩
    · obtain ⟨tokens, w', hw', hnow, hleaves⟩ :=
        @solo_passLogin cfg c _ _ huser hdrawn₁
      exact ⟨_, _, w', hw', hnow, .passed hfree (Bool.eq_true_of_not_eq_false hverify), hleaves⟩
  cases hlock : user.lockoutUntil with
  | none => exact hchecked (by simp [hlock])
  | some lock =>
    dsimp only
    by_cases hearly : w.now < lock
    · rw [if_pos hearly, Engine.andThen_error]
      refine ⟨_, user, w₁, rfl, hnow₁, .turnedAway hlock hearly, ?_⟩
      exact .of_eq (Rows.lookup_of_mem hv.users hmem) (congrArg Db.users hdb₁)
    · rw [if_neg hearly]
      refine hchecked fun lock' hlock' => ?_
      obtain rfl := Option.some.inj (hlock.symm.trans hlock')
      exact hearly

/-- Nobody has the email. -/
theorem solo_login_none {dto : LoginDto} (hu : w.db.userByEmail? dto.email = none) :
    ∃ w', (engine cfg).solo c (AuthService.login cfg dto) .idle w =
      (.error (.unauthorized "Email or password is incorrect"), .idle, w') ∧
      w'.now = w.now ∧ w'.db.users = w.db.users := by
  unfold AuthService.login
  simp only [Prog.bind_eq, Engine.solo_bind, solo_query (.userByEmail _), Query.eval, hu,
    Engine.andThen_ok]
  exact ⟨_, rfl, rfl, rfl⟩

/-! ### Resets -/

/-- A request for a reset changes at most the token of one user. -/
theorem solo_forgotPassword {email : String} (hv : w.db.Valid) :
    ∃ r w', (engine cfg).solo c (AuthService.forgotPassword email) .idle w = (r, .idle, w') ∧
      w'.now = w.now ∧ (w'.db.users = w.db.users ∨ ∃ user token expires,
        w.db.user? user.id = some user ∧
          w.db.Leaves w'.db ((UserChange.resetRequested token expires).set user)) := by
  unfold AuthService.forgotPassword
  cases hu : w.db.userByEmail? email with
  | none =>
    simp only [Prog.bind_eq, Engine.solo_bind, solo_query (.userByEmail _), Query.eval, hu,
      Engine.andThen_ok]
    exact ⟨_, _, rfl, rfl, .inl rfl⟩
  | some user =>
    obtain ⟨hmem, -⟩ := Rows.lookup_some hu
    have huser : w.db.user? user.id = some user := Rows.lookup_of_mem hv.users hmem
    simp only [Prog.bind_eq, Engine.solo_bind, solo_query (.userByEmail _), Query.eval, hu,
      Engine.andThen_ok, solo_external .randomBytes, solo_external .dateNow, External.eval]
    rw [solo_userUpdate (by exact huser)]
    simp only [Engine.andThen_ok, Engine.solo_bind, solo_external (.sendPasswordResetEmail _ _ _)]
    exact ⟨_, _, rfl, rfl, .inr ⟨user, _, _, huser, Db.leaves_userSet huser _ rfl⟩⟩

/-- A reset with a token that nobody has, or that has expired. -/
theorem solo_resetPassword_none {token : ℕ} {newPassword : String}
    (hu : (Query.userByResetToken token w.now).eval w.db = none) :
    ∃ w', (engine cfg).solo c (AuthService.resetPassword token newPassword) .idle w =
      (.error (.badRequest "Invalid or expired reset token"), .idle, w') ∧
      w'.now = w.now ∧ w'.db.users = w.db.users := by
  unfold AuthService.resetPassword
  simp only [Prog.bind_eq, Engine.solo_bind, solo_external .dateNow, External.eval,
    Engine.andThen_ok, solo_query (.userByResetToken _ _), hu]
  exact ⟨_, rfl, rfl, rfl⟩

theorem solo_resetPassword {token : ℕ} {newPassword : String} {user : User} (hv : w.db.Valid)
    (hu : (Query.userByResetToken token w.now).eval w.db = some user) :
    ∃ hash w', (engine cfg).solo c (AuthService.resetPassword token newPassword) .idle w =
      (.ok (.message "Password reset successfully"), .idle, w') ∧
      w'.now = w.now ∧ w.db.Leaves w'.db ((UserChange.passwordReset hash).set user) := by
  have hmem : user ∈ w.db.users := List.mem_of_find?_eq_some hu
  have huser : w.db.user? user.id = some user := Rows.lookup_of_mem hv.users hmem
  have hrows : ∀ w₁ : World, (Update.tokenDeleteMany (.user user.id)).plan w₁.db w₁.uuid =
      (.ok (w₁.db.refreshTokens.filter (Scope.user user.id).Covers).length,
        [.tokenDelete (.user user.id)]) := fun _ => rfl
  unfold AuthService.resetPassword
  simp only [Prog.bind_eq, Engine.solo_bind, solo_external .dateNow, External.eval,
    Engine.andThen_ok, solo_query (.userByResetToken _ _), hu, solo_external (.argon2Hash _)]
  rw [solo_userUpdate (by exact huser)]
  simp only [Engine.andThen_ok, Engine.solo_bind, solo_update (hrows _)]
  exact ⟨_, _, rfl, rfl, Db.leaves_userSet huser _ rfl⟩

end TurfSync.Accounts
