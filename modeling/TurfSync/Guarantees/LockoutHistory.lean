import TurfSync.Protocol.Logins

/-! The lockout against what has happened to an account. The two columns of a user say of
the past what `Locked` says: the counter is the number of wrong passwords in a row, and the
lock is in force exactly as long as the last of them that locked the account is less than
15 minutes old. The requests come one after the other, each at its own instant. -/

namespace TurfSync.Accounts

open Txn Journal

/-! ### What has happened -/

/-- What a request did to an account. -/
inductive Fact where
  | failed
  | passed
  | turnedAway
  | reset
  | other
  deriving DecidableEq, Repr

/-- What has happened, and when. -/
abbrev Past := List (Time × Fact)

/-- The wrong passwords in a row, after one more fact. -/
def streakStep (k : ℕ) (x : Time × Fact) : ℕ :=
  match x.2 with
  | .failed => k + 1
  | .passed | .reset => 0
  | .turnedAway | .other => k

/-- The wrong passwords since the last login or reset. -/
def streak (past : Past) : ℕ := past.foldl streakStep 0

/-- A wrong password that was at least the fifth in a row is less than 15 minutes old at
`t`, and there was no reset since. -/
def Locked (past : Past) (t : Time) : Prop :=
  ∃ pre t' post, past = pre ++ (t', .failed) :: post ∧ t < t' + lockoutMs ∧
    5 ≤ streak (pre ++ [(t', .failed)]) ∧ ∀ x ∈ post, x.2 ≠ .reset

theorem streak_snoc (past : Past) (x : Time × Fact) :
    streak (past ++ [x]) = streakStep (streak past) x := by
  simp [streak, List.foldl_append]

theorem Locked.mono {past : Past} {t t' : Time} (h : Locked past t') (hle : t ≤ t') :
    Locked past t := by
  obtain ⟨pre, t₀, post, he, hlt, hfive, hreset⟩ := h
  exact ⟨pre, t₀, post, he, Int.lt_of_le_of_lt hle hlt, hfive, hreset⟩

theorem not_locked_nil (t : Time) : ¬ Locked [] t := by
  rintro ⟨pre, t', post, he, -⟩
  simp at he

/-- The last fact locks, or leaves the lock in force, unless it is a reset. -/
theorem locked_snoc {past : Past} {x : Time × Fact} {t : Time} : Locked (past ++ [x]) t ↔
    x.2 = .failed ∧ t < x.1 + lockoutMs ∧ 5 ≤ streak past + 1 ∨ x.2 ≠ .reset ∧ Locked past t := by
  constructor
  · rintro ⟨pre, t', post, he, hlt, hfive, hreset⟩
    rcases List.eq_nil_or_concat post with rfl | ⟨post, y, rfl⟩
    · obtain ⟨rfl, hx⟩ := List.append_inj' he rfl
      obtain rfl := List.head_eq_of_cons_eq hx
      rw [streak_snoc] at hfive
      exact .inl ⟨rfl, hlt, hfive⟩
    · rw [List.concat_eq_append, ← List.cons_append, ← List.append_assoc] at he
      obtain ⟨rfl, hx⟩ := List.append_inj' he rfl
      obtain rfl := List.head_eq_of_cons_eq hx
      exact .inr ⟨hreset x (by simp), pre, t', post, rfl, hlt, hfive,
        fun y hy => hreset y (by simp [hy])⟩
  · rintro (⟨hfailed, hlt, hfive⟩ | ⟨hx, pre, t', post, rfl, hlt, hfive, hreset⟩)
    · obtain ⟨t', fact⟩ := x
      obtain rfl : fact = .failed := hfailed
      exact ⟨past, t', [], rfl, hlt, by rwa [streak_snoc], by simp⟩
    · refine ⟨pre, t', post ++ [x], by simp, hlt, hfive, fun y hy => ?_⟩
      rcases List.mem_append.mp hy with hy | hy
      · exact hreset y hy
      · rw [List.mem_singleton.mp hy]
        exact hx

/-! ### The columns -/

/-- The columns of a user say what has happened, as far as it counts from `now` on. -/
structure Tells (past : Past) (now : Time) (u : User) : Prop where
  counter : u.failedLoginAttempts = streak past
  lock : ∀ t, now ≤ t → ((∃ lock ∈ u.lockoutUntil, t < lock) ↔ Locked past t)

namespace Tells

variable {past : Past} {now : Time} {u : User}

theorem later (h : Tells past now u) {now' : Time} (hle : now ≤ now') : Tells past now' u where
  counter := h.counter
  lock t ht := h.lock t (Int.le_trans hle ht)

/-- A fact that does not count. -/
theorem other (h : Tells past now u) {u' : User} (x : Time × Fact)
    (hx : x.2 = .turnedAway ∨ x.2 = .other)
    (hcounter : u'.failedLoginAttempts = u.failedLoginAttempts)
    (hlock : u'.lockoutUntil = u.lockoutUntil) : Tells (past ++ [x]) now u' where
  counter := by
    rw [hcounter, h.counter, streak_snoc, streakStep]
    rcases hx with hx | hx <;> rw [hx]
  lock t ht := by
    rw [hlock, h.lock t ht, locked_snoc]
    rcases hx with hx | hx <;> simp [hx]

/-- A login or a reset clears both columns. -/
theorem cleared {u' : User} {fact : Fact} (hfact : fact = .passed ∧
    ¬ Locked past now ∨ fact = .reset) (hcounter : u'.failedLoginAttempts = 0)
    (hlock : u'.lockoutUntil = none) : Tells (past ++ [(now, fact)]) now u' where
  counter := by
    rw [hcounter, streak_snoc, streakStep]
    rcases hfact with ⟨rfl, -⟩ | rfl <;> rfl
  lock t ht := by
    rw [hlock, locked_snoc]
    rcases hfact with ⟨rfl, hfree⟩ | rfl
    · have hlater : ¬ Locked past t := fun hlocked => hfree (hlocked.mono ht)
      simp [hlater]
    · simp

theorem free_iff (h : Tells past now u) :
    (∀ lock ∈ u.lockoutUntil, ¬ now < lock) ↔ ¬ Locked past now := by
  rw [← h.lock now le_rfl]
  simp

/-- A wrong password that was checked counts, and the fifth one locks. -/
theorem failed (h : Tells past now u) (hfree : ¬ Locked past now) :
    Tells (past ++ [(now, .failed)]) now ((failedChange now u).set u) where
  counter := by
    rw [failedChange, (UserChange.failedLogin_set _ _ u).1, h.counter, streak_snoc]
    rfl
  lock t ht := by
    have hlater : ¬ Locked past t := fun hlocked => hfree (hlocked.mono ht)
    rw [failedChange, (UserChange.failedLogin_set _ _ u).2.2, locked_snoc, ← h.counter]
    split_ifs with hfive
    · simp [hfive, hlater]
    · have hold : ¬ ∃ lock ∈ u.lockoutUntil, t < lock := fun hlock => hlater ((h.lock t ht).mp hlock)
      simpa [hfive, hlater] using hold

end Tells

/-! ### Requests one after the other -/

inductive Visit where
  | login (dto : LoginDto)
  | forgotPassword (email : String)
  | resetPassword (token : ℕ) (newPassword : String)
  deriving DecidableEq, Repr

def Visit.call : Visit → Call
  | login dto => .login dto
  | forgotPassword email => .forgotPassword email
  | resetPassword token newPassword => .resetPassword token newPassword

/-- What a login was, by its reply. -/
def loginFact : Except Err Reply → Fact
  | .ok _ => .passed
  | .error e => if e = .unauthorized (failedMessage 1) ∨ e = .unauthorized (failedMessage 5)
    then .failed else .turnedAway

/-- What a request does to the account `id`. -/
def fact (cfg : Config) (id : UserId) (s : Sys) : Visit → Fact
  | .login dto => if (s.world.db.userByEmail? dto.email).map (·.id) = some id
    then loginFact ((service cfg).reply s (.login dto)) else .other
  | .resetPassword token _ =>
    if ((Query.userByResetToken token s.world.now).eval s.world.db).map (·.id) = some id
    then .reset else .other
  | .forgotPassword _ => .other

/-- Time passes. -/
def wait (cfg : Config) (s : Sys) (ms : ℕ) : Sys := (service cfg).step s (.env ⟨ms⟩)

/-- One more request, some time after the one before, with what it does to the account. -/
def visited (cfg : Config) (id : UserId) (p : Past × Sys) (x : ℕ × Visit) : Past × Sys :=
  let t := wait cfg p.2 x.1
  (p.1 ++ [(t.world.now, fact cfg id t x.2)], (service cfg).serve t x.2.call)

def history (cfg : Config) (id : UserId) (s : Sys) (xs : List (ℕ × Visit)) : Past × Sys :=
  xs.foldl (visited cfg id) ([], s)

/-- What is known of the account after some requests. -/
structure Tracks (cfg : Config) (id : UserId) (email : String) (past : Past) (s : Sys) : Prop where
  keeps : s.Keeps cfg
  quiet : s.Quiet
  row : ∃ u, s.world.db.user? id = some u ∧ u.email = email ∧ Tells past s.world.now u

section

variable {cfg : Config} {id : UserId} {email : String} {past : Past} {s : Sys}

theorem Sys.Keeps.serve (h : s.Keeps cfg) (hq : s.Quiet) (c : Call) :
    Sys.Keeps cfg ((service cfg).serve s c) := by
  obtain ⟨n, hn⟩ := Service.serve_eq_run (service cfg) hq (c := c) rfl
  have hrun : ∀ as, Sys.Keeps cfg ((service cfg).run s as) := fun as =>
    Service.Always.last (Service.always_of_step (M := fun _ _ => True) (fun _ a ht _ => ht.step a) h
      (Service.each_of_forall (fun _ _ => trivial) s as))
  exact hn ▸ hrun _

theorem quiet_serve (hq : s.Quiet) {c : Call} {r : Except Err Reply} {w' : World}
    (h : (service cfg).solo ⟨s.threads.length, c⟩ ((service cfg).body c) .idle s.world =
      (r, .idle, w')) : ((service cfg).serve s c).Quiet := by
  rw [Service.serve_of_solo (service cfg) h]
  intro u hu
  rcases List.mem_append.mp hu with hu | hu
  · exact hq u hu
  · rw [List.mem_singleton.mp hu]

theorem Tracks.wait (h : Tracks cfg id email past s) (ms : ℕ) :
    Tracks cfg id email past (wait cfg s ms) where
  keeps := h.keeps.step _
  quiet := h.quiet
  row := by
    obtain ⟨u, hu, hemail, htells⟩ := h.row
    exact ⟨u, hu, hemail, htells.later (Int.le_add_of_nonneg_right (Int.natCast_nonneg ms))⟩

theorem Tracks.drawn (h : Tracks cfg id email past s) : s.world.Drawn := fun r hr =>
  (h.keeps.inv.1.drawn r (.inl hr)).2

theorem Tracks.valid (h : Tracks cfg id email past s) : s.world.db.Valid := h.keeps.inv.1.valid

/-- The next request, from what it does alone. -/
theorem Tracks.next (h : Tracks cfg id email past s) {c : Call} {r : Except Err Reply}
    {w' : World} (hsolo : (service cfg).solo ⟨s.threads.length, c⟩ ((service cfg).body c) .idle
      s.world = (r, .idle, w')) (hnow : w'.now = s.world.now) {u' : User}
    (hu' : w'.db.user? id = some u') (hemail : u'.email = email) {x : Time × Fact}
    (htells : Tells (past ++ [x]) s.world.now u') :
    Tracks cfg id email (past ++ [x]) ((service cfg).serve s c) where
  keeps := Sys.Keeps.serve h.keeps h.quiet c
  quiet := quiet_serve h.quiet hsolo
  row := by
    rw [Service.serve_of_solo (service cfg) hsolo]
    exact ⟨u', hu', hemail, hnow ▸ htells⟩

/-- The next request, if it leaves the columns of the account alone. -/
theorem Tracks.skip (h : Tracks cfg id email past s) {c : Call} {r : Except Err Reply}
    {w' : World} (hsolo : (service cfg).solo ⟨s.threads.length, c⟩ ((service cfg).body c) .idle
      s.world = (r, .idle, w')) (hnow : w'.now = s.world.now)
    (hrow : ∀ u, s.world.db.user? id = some u → ∃ u', w'.db.user? id = some u' ∧
      u'.email = u.email ∧ u'.failedLoginAttempts = u.failedLoginAttempts ∧
      u'.lockoutUntil = u.lockoutUntil) :
    Tracks cfg id email (past ++ [(s.world.now, .other)]) ((service cfg).serve s c) := by
  obtain ⟨u, hu, hemail, htells⟩ := h.row
  obtain ⟨u', hu', hemail', hcounter, hlock⟩ := hrow u hu
  exact h.next hsolo hnow hu' (hemail'.trans hemail) (htells.other _ (.inr rfl) hcounter hlock)

/-- The rows of users are as they were. -/
theorem kept_of_users {db db' : Db} (h : db'.users = db.users) (u : User)
    (hu : db.user? id = some u) : ∃ u', db'.user? id = some u' ∧ u'.email = u.email ∧
      u'.failedLoginAttempts = u.failedLoginAttempts ∧ u'.lockoutUntil = u.lockoutUntil := by
  refine ⟨u, ?_, rfl, rfl, rfl⟩
  rw [Db.user?, h]
  exact hu

/-- Another user's row is as it was. -/
theorem Db.Leaves.kept {db db' : Db} {user : User} (h : db.Leaves db' user) (hid : user.id ≠ id)
    (u : User) (hu : db.user? id = some u) : ∃ u', db'.user? id = some u' ∧ u'.email = u.email ∧
      u'.failedLoginAttempts = u.failedLoginAttempts ∧ u'.lockoutUntil = u.lockoutUntil := by
  refine ⟨u, ?_, rfl, rfl, rfl⟩
  rw [h, if_neg (Ne.symm hid)]
  exact hu

end

/-! ### Replies -/

theorem lockedMessage_eq (minutes : ℤ) : lockedMessage minutes =
    "This account is temporarily locked. Please try again in " ++
      (toString minutes ++ " minute(s).") := String.append_assoc

/-- The messages differ in their second letter. -/
theorem lockedMessage_ne (minutes : ℤ) (n : ℕ) : lockedMessage minutes ≠ failedMessage n := by
  have hletters : ∀ s : String,
      ("This account is temporarily locked. Please try again in " ++ s).toList.take 2 =
        ['T', 'h'] := by
    intro s
    have hcons : "This account is temporarily locked. Please try again in ".toList =
        'T' :: 'h' :: "is account is temporarily locked. Please try again in ".toList := by
      decide +kernel
    simp only [String.toList_append, hcons, List.cons_append, List.take_succ_cons, List.take_zero]
  have hother : (failedMessage n).toList.take 2 ≠ ['T', 'h'] := by
    unfold failedMessage
    split <;> decide +kernel
  intro h
  rw [← h, lockedMessage_eq, hletters] at hother
  exact hother rfl

theorem failedMessage_cases (n : ℕ) :
    failedMessage n = failedMessage 1 ∨ failedMessage n = failedMessage 5 := by
  by_cases hfive : 5 ≤ n
  · exact .inr (by simp [failedMessage, hfive])
  · exact .inl (by simp [failedMessage, hfive])

/-- What a login was, by the row that it found. -/
theorem LoginEnds.fact {cfg : Config} {dto : LoginDto} {now : Time} {u u' : User}
    {r : Except Err Reply} (h : LoginEnds cfg dto now u r u') {past : Past}
    (htells : Tells past now u) :
    u'.email = u.email ∧ Tells (past ++ [(now, loginFact r)]) now u' := by
  cases h with
  | @turnedAway lock hlock hearly =>
    have hfact : loginFact (.error (.unauthorized (lockedMessage (ceilMinutes (lock - now))))) =
        .turnedAway := by simp [loginFact, lockedMessage_ne]
    rw [hfact]
    exact ⟨rfl, htells.other _ (.inl rfl) rfl rfl⟩
  | failed hfree hwrong =>
    have hfact : loginFact (.error (.unauthorized (failedMessage (u.failedLoginAttempts + 1)))) =
        .failed := by simp [loginFact, failedMessage_cases]
    rw [hfact]
    exact ⟨UserChange.set_email _ u, htells.failed (htells.free_iff.mp hfree)⟩
  | passed hfree hright =>
    exact ⟨rfl, .cleared (.inl ⟨rfl, htells.free_iff.mp hfree⟩) rfl rfl⟩

/-! ### The lockout -/

section

variable {cfg : Config} {id : UserId} {email : String} {past : Past} {s : Sys}

/-- A login to the account finds its row. -/
theorem Tracks.login (h : Tracks cfg id email past s) {dto : LoginDto} {user : User}
    (hfound : s.world.db.userByEmail? dto.email = some user) (hid : user.id = id) :
    ∃ r user' w', (service cfg).solo ⟨s.threads.length, .login dto⟩
      ((service cfg).body (.login dto)) .idle s.world = (r, .idle, w') ∧
      w'.now = s.world.now ∧ LoginEnds cfg dto s.world.now user r user' ∧
      w'.db.user? id = some user' ∧ s.world.db.user? id = some user ∧ user.email = email ∧
      Tells past s.world.now user := by
  obtain ⟨r, user', w', hsolo, hnow, hends, hleaves⟩ := @solo_login cfg
    ⟨s.threads.length, .login dto⟩ _ _ _ h.valid h.drawn hfound
  obtain ⟨u, hu, hemail, htells⟩ := h.row
  have huser : s.world.db.user? id = some user :=
    hid ▸ Rows.lookup_of_mem h.valid.users (Rows.lookup_some hfound).1
  obtain rfl := Option.some.inj (hu.symm.trans huser)
  have hid' : user'.id = u.id := by
    cases hends with
    | turnedAway => rfl
    | failed => exact UserChange.set_id _ u
    | passed => rfl
  refine ⟨r, user', w', hsolo, hnow, hends, ?_, hu, hemail, htells⟩
  rw [hleaves, hid', hid, if_pos rfl]

theorem Tracks.visit (h : Tracks cfg id email past s) (v : Visit) :
    Tracks cfg id email (past ++ [(s.world.now, fact cfg id s v)])
      ((service cfg).serve s v.call) := by
  cases v with
  | login dto =>
    cases hfound : s.world.db.userByEmail? dto.email with
    | none =>
      obtain ⟨w', hsolo, hnow, husers⟩ := @solo_login_none cfg
        ⟨s.threads.length, .login dto⟩ _ _ hfound
      simp only [fact, hfound, Option.map_none, reduceCtorEq, if_false]
      exact h.skip hsolo hnow (kept_of_users husers)
    | some user =>
      by_cases hid : user.id = id
      · obtain ⟨r, user', w', hsolo, hnow, hends, hrow, -, hemail, htells⟩ := h.login hfound hid
        have hreply : (service cfg).reply s (.login dto) = r := congrArg Prod.fst hsolo
        simp only [fact, hfound, Option.map_some, hid, if_true, hreply]
        obtain ⟨hemail', htells'⟩ := hends.fact htells
        exact h.next hsolo hnow hrow (hemail'.trans hemail) htells'
      · obtain ⟨r, user', w', hsolo, hnow, hends, hleaves⟩ := @solo_login cfg
          ⟨s.threads.length, .login dto⟩ _ _ _ h.valid h.drawn hfound
        have hid' : user'.id ≠ id := by
          cases hends with
          | turnedAway => exact hid
          | failed => rwa [UserChange.set_id]
          | passed => exact hid
        simp only [fact, hfound, Option.map_some, Option.some.injEq, hid, if_false]
        exact h.skip hsolo hnow (hleaves.kept hid')
  | forgotPassword email' =>
    obtain ⟨r, w', hsolo, hnow, hrow⟩ := @solo_forgotPassword cfg
      ⟨s.threads.length, .forgotPassword email'⟩ _ email' h.valid
    refine h.skip hsolo hnow fun u hu => ?_
    rcases hrow with husers | ⟨user, token, expires, huser, hleaves⟩
    · exact kept_of_users husers u hu
    · by_cases hid : user.id = id
      · obtain rfl := Option.some.inj (hu.symm.trans (hid ▸ huser))
        refine ⟨(UserChange.resetRequested token expires).set u, ?_, rfl, rfl, rfl⟩
        rw [hleaves, UserChange.set_id, if_pos hid.symm]
      · exact hleaves.kept (by rwa [UserChange.set_id]) u hu
  | resetPassword token newPassword =>
    cases hfound : (Query.userByResetToken token s.world.now).eval s.world.db with
    | none =>
      obtain ⟨w', hsolo, hnow, husers⟩ := @solo_resetPassword_none cfg
        ⟨s.threads.length, .resetPassword token newPassword⟩ _ _ newPassword
        hfound
      simp only [fact, hfound, Option.map_none, reduceCtorEq, if_false]
      exact h.skip hsolo hnow (kept_of_users husers)
    | some user =>
      obtain ⟨hash, w', hsolo, hnow, hleaves⟩ := @solo_resetPassword cfg
        ⟨s.threads.length, .resetPassword token newPassword⟩ _ _ newPassword
        _ h.valid hfound
      by_cases hid : user.id = id
      · obtain ⟨u, hu, hemail, htells⟩ := h.row
        have huser : s.world.db.user? id = some user :=
          hid ▸ Rows.lookup_of_mem h.valid.users (List.mem_of_find?_eq_some hfound)
        obtain rfl := Option.some.inj (hu.symm.trans huser)
        simp only [fact, hfound, Option.map_some, hid, if_true]
        refine @Tracks.next _ _ _ _ _ h _ _ _ hsolo hnow ((UserChange.passwordReset hash).set u) ?_
          hemail _ (.cleared (.inr rfl) rfl rfl)
        rw [hleaves, UserChange.set_id, if_pos hid.symm]
      · simp only [fact, hfound, Option.map_some, Option.some.injEq, hid, if_false]
        exact h.skip hsolo hnow (hleaves.kept (by rwa [UserChange.set_id]))

theorem Tracks.foldl {p : Past × Sys} (h : Tracks cfg id email p.1 p.2) (xs : List (ℕ × Visit)) :
    Tracks cfg id email (xs.foldl (visited cfg id) p).1 (xs.foldl (visited cfg id) p).2 := by
  induction xs generalizing p with
  | nil => exact h
  | cons x xs ih => exact @ih (visited cfg id p x) ((h.wait x.1).visit x.2)

/-- After any requests. -/
theorem tracks_history {user : User} (hs : s.Initial) (huser : user ∈ s.world.db.users)
    (hcounter : user.failedLoginAttempts = 0) (hlock : user.lockoutUntil = none)
    (xs : List (ℕ × Visit)) : Tracks cfg user.id user.email (history cfg user.id s xs).1
      (history cfg user.id s xs).2 := by
  have hstart : Tracks cfg user.id user.email [] s := {
    keeps := hs.keeps
    quiet := by simp [System.Quiet, hs.threads]
    row := ⟨user, Rows.lookup_of_mem hs.valid.users huser, rfl, hcounter, fun t _ => by
      simp [hlock, not_locked_nil]⟩ }
  exact @Tracks.foldl cfg user.id user.email ([], s) hstart xs

end

/-- What the lockout promises about one login: it is turned away, and changes nothing,
exactly if the account is locked by its past; otherwise a right password logs in and clears
the counter and the lock, and a wrong one is counted. -/
structure Specified (cfg : Config) (past : Past) (t : Sys) (u : User) (dto : LoginDto) : Prop where
  turnedAway : (∃ minutes, (service cfg).reply t (.login dto) =
    .error (.unauthorized (lockedMessage minutes))) ↔ Locked past t.world.now
  unchanged : Locked past t.world.now →
    ((service cfg).serve t (.login dto)).world.db.user? u.id = some u
  right : ¬ Locked past t.world.now → cfg.argon2Verify u.passwordHash dto.password = true →
    (∃ tokens, (service cfg).reply t (.login dto) = .ok (.session u.toProfile tokens)) ∧
    ∃ u' ∈ ((service cfg).serve t (.login dto)).world.db.user? u.id,
      u'.failedLoginAttempts = 0 ∧ u'.lockoutUntil = none
  wrong : ¬ Locked past t.world.now → cfg.argon2Verify u.passwordHash dto.password = false →
    (service cfg).reply t (.login dto) =
      .error (.unauthorized (failedMessage (u.failedLoginAttempts + 1))) ∧
    ∃ u' ∈ ((service cfg).serve t (.login dto)).world.db.user? u.id,
      u'.failedLoginAttempts = u.failedLoginAttempts + 1

theorem LoginEnds.specified {cfg : Config} {past : Past} {t : Sys} {u u' : User} {dto : LoginDto}
    {r : Except Err Reply} (h : LoginEnds cfg dto t.world.now u r u')
    (htells : Tells past t.world.now u) (hreply : (service cfg).reply t (.login dto) = r)
    (hrow : ((service cfg).serve t (.login dto)).world.db.user? u.id = some u') :
    Specified cfg past t u dto := by
  cases h with
  | @turnedAway lock hlock hearly =>
    have hlocked : Locked past t.world.now := (htells.lock _ le_rfl).mp ⟨lock, hlock, hearly⟩
    exact ⟨iff_of_true ⟨_, hreply⟩ hlocked, fun _ => hrow, fun hfree => absurd hlocked hfree,
      fun hfree => absurd hlocked hfree⟩
  | failed hfree hwrong =>
    have hunlocked := htells.free_iff.mp hfree
    refine ⟨iff_of_false ?_ hunlocked, fun hlocked => absurd hlocked hunlocked,
      fun _ hright => ?_, fun _ _ => ⟨hreply, _, hrow, (UserChange.failedLogin_set _ _ u).1⟩⟩
    · rintro ⟨minutes, hlocked⟩
      rw [hreply] at hlocked
      exact lockedMessage_ne _ _ (Err.unauthorized.inj (Except.error.inj hlocked)).symm
    · rw [hwrong] at hright
      cases hright
  | passed hfree hright =>
    have hunlocked := htells.free_iff.mp hfree
    refine ⟨iff_of_false ?_ hunlocked, fun hlocked => absurd hlocked hunlocked,
      fun _ _ => ⟨⟨_, hreply⟩, _, hrow, rfl, rfl⟩, fun _ hwrong => ?_⟩
    · rintro ⟨minutes, hlocked⟩
      rw [hreply] at hlocked
      cases hlocked
    · rw [hright] at hwrong
      cases hwrong

/-- After any requests, one after the other at times that do not go back, on an account
whose counter was zero and that was not locked: a login does what its past specifies. -/
theorem lockout_specified {cfg : Config} {s : Sys} {user : User} (hs : s.Initial)
    (huser : user ∈ s.world.db.users) (hcounter : user.failedLoginAttempts = 0)
    (hlock : user.lockoutUntil = none) (xs : List (ℕ × Visit)) (ms : ℕ) {dto : LoginDto}
    (hdto : dto.email = user.email) :
    let p := history cfg user.id s xs
    let t := wait cfg p.2 ms
    ∃ u, t.world.db.user? user.id = some u ∧ u.failedLoginAttempts = streak p.1 ∧
      Specified cfg p.1 t u dto := by
  intro p t
  have htracks : Tracks cfg user.id user.email p.1 t :=
    (tracks_history hs huser hcounter hlock xs).wait ms
  obtain ⟨u, hu, hemail, htells⟩ := htracks.row
  obtain ⟨hmem, hid⟩ := Rows.lookup_some hu
  have hfound : t.world.db.userByEmail? dto.email = some u := by
    rw [hdto, ← hemail]
    exact Rows.lookup_of_mem htracks.valid.emails hmem
  obtain ⟨r, u', w', hsolo, -, hends, hrow, -, -, -⟩ := htracks.login hfound hid
  refine ⟨u, hu, htells.counter, hends.specified htells (congrArg Prod.fst hsolo) ?_⟩
  rw [Service.serve_of_solo (service cfg) hsolo, hid]
  exact hrow

/-- Ten minutes after the last of five guesses, a minute apart. -/
theorem lockout_specified_eve :
    let guess : LoginDto := ⟨Office.eve.email, "guess"⟩
    let p := history Office.cfg 7 Office.sys (List.replicate 5 (60000, .login guess))
    let t := wait Office.cfg p.2 600000
    ∃ u, t.world.db.user? 7 = some u ∧ u.failedLoginAttempts = streak p.1 ∧
      Specified Office.cfg p.1 t u ⟨Office.eve.email, "eve-secret"⟩ :=
  @lockout_specified Office.cfg Office.sys Office.eve Office.initial (by decide) rfl rfl _ _ _ rfl

end TurfSync.Accounts
