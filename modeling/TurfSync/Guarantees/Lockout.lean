import TurfSync.Protocol.Auth

/-! Counting failed logins. `login` writes the counter that it has read with the user
plus one, after the password has been verified; of two logins that overlap, one may not
be counted. -/

namespace TurfSync.Accounts

open Txn Journal

/-- The update of a failed login of a user. -/
def Fails (id : UserId) (e : Entry) : Prop := match e.writes with
  | [.userSet id' (.failedLogin _ _)] => id' = id
  | _ => False

instance (id : UserId) : DecidablePred (Fails id) := fun e =>
  decidable_of_iff ((match e.writes with
    | [.userSet id' (.failedLogin _ _)] => decide (id' = id)
    | _ => false) = true) (by unfold Fails; split <;> simp)

/-- How many logins of a user have failed. -/
def failures (id : UserId) (es : List Entry) : ℕ := (es.filter (Fails id ·)).length

/-- No failed login is forgotten, and from the fifth on the account is locked. -/
def Remembered (id : UserId) (t : Sys) : Prop :=
  ∃ u ∈ t.world.db.user? id, failures id t.world.history ≤ u.failedLoginAttempts ∧
    (5 ≤ failures id t.world.history → ∃ lock ∈ u.lockoutUntil, t.world.now < lock)

instance (id : UserId) (t : Sys) : Decidable (Remembered id t) := by
  unfold Remembered
  infer_instance

/-- If the step is the update of a failed login, it finds the counter as the login has
read it. -/
def FindsCounter (cfg : Config) (t : Sys) (a : Act) : Prop :=
  ∀ cm ∈ (service cfg).committed t a, match cm.writes with
    | [.userSet id (.failedLogin n _)] =>
      ∀ u ∈ t.world.db.user? id, u.failedLoginAttempts + 1 = n
    | _ => True

instance (cfg : Config) (t : Sys) (a : Act) : Decidable (FindsCounter cfg t a) :=
  decidable_of_iff (∀ cm ∈ (service cfg).committed t a, (match cm.writes with
    | [.userSet id (.failedLogin n _)] =>
      decide (∀ u ∈ t.world.db.user? id, u.failedLoginAttempts + 1 = n)
    | _ => true) = true) (forall₂_congr fun _ _ => by split <;> simp)

/-- A login with a wrong password. -/
def Call.WrongLogin (cfg : Config) (user : User) (c : Call) : Prop :=
  ∃ dto, c = .login dto ∧ dto.email = user.email ∧
    cfg.argon2Verify user.passwordHash dto.password = false

/-- Any number of wrong logins on one account, within 15 minutes, from an unlocked
account with counter 0. -/
structure Attacked (cfg : Config) (user : User) (s : Sys) (as : List Act) : Prop where
  initial : s.Initial
  account : user ∈ s.world.db.users
  counter : user.failedLoginAttempts = 0
  unlocked : ∀ lock ∈ user.lockoutUntil, lock ≤ s.world.now
  calls : ∀ c, .spawn c ∈ as → c.WrongLogin cfg user
  window : (service cfg).Always (fun t => t.world.now < s.world.now + lockoutMs) s as

/-- What holds during the attack, whatever is forgotten. -/
structure Attack (cfg : Config) (user : User) (start : Time) (t : Sys) : Prop where
  keeps : t.Keeps cfg
  calls : ∀ th ∈ t.threads, th.session.call.WrongLogin cfg user
  times : start ≤ t.world.now ∧ ∀ e ∈ t.world.history, start ≤ e.before.now
  row : ∃ u, t.world.db.user? user.id = some u ∧ u.email = user.email ∧
    u.passwordHash = user.passwordHash ∧
    u.failedLoginAttempts ≤ failures user.id t.world.history ∧
    ∀ lock ∈ u.lockoutUntil, lock ≤ start ∨ start + lockoutMs ≤ lock
  read : ∀ e ∈ t.world.history, ∀ u, e.before.db.userByEmail? user.email = some u →
    u.id = user.id ∧ u.passwordHash = user.passwordHash ∧
      u.failedLoginAttempts ≤ failures user.id t.world.history

theorem failures_append (id : UserId) (es es' : List Entry) :
    failures id (es ++ es') = failures id es + failures id es' := by
  simp [failures]

/-- What a statement of the attack does. -/
inductive Attempts (user : User) (start : Time) (k : ℕ) (e : Entry) : Prop
  | seen {q} (writes : e.writes = [.seen q])
  | failed {n lock} (writes : e.writes = [.userSet user.id (.failedLogin n lock)]) (pos : 0 < n)
      (le : n ≤ k + 1) (locks : Locks start n lock)

theorem Locks.mono {since start : Time} {n : ℕ} {lock : Option Time} (h : Locks since n lock)
    (hle : start ≤ since) : Locks start n lock := by
  unfold Locks at *
  split_ifs at h ⊢ with h5
  · obtain ⟨t, ht, he⟩ := h
    exact ⟨t, Int.le_trans hle ht, he⟩
  · exact h

theorem Attack.attempts {cfg : Config} {user : User} {start : Time} {t : Sys}
    (h : Attack cfg user start t) {e : Entry} (hact : Acts cfg t.world.history e)
    (hcall : e.session.call.WrongLogin cfg user) :
    Attempts user start (failures user.id t.world.history) e := by
  obtain ⟨dto, hlogin, hemail, hwrong⟩ := hcall
  -- a login of the attack reads the account, with the password that is not presented
  have hread : ∀ {c : Session Call} {es : List Entry} {dto' : LoginDto} {u : User} {right : Bool}
      {e₀ : Entry}, c.call = .login dto → own c.id t.world.history = e₀ :: es →
      Login cfg c dto' u right e₀ →
      right = false ∧ u.id = user.id ∧
        u.failedLoginAttempts ≤ failures user.id t.world.history ∧ start ≤ e₀.before.now := by
    intro c es dto' u right e₀ hc hown hl
    have he₀ : e₀ ∈ t.world.history := (mem_own.mp (hown ▸ List.mem_cons_self)).1
    obtain rfl : dto = dto' := Call.login.inj (hc.symm.trans hl.call)
    obtain ⟨hid, hhash, hle⟩ := h.read e₀ he₀ u (hemail ▸ hl.found)
    rw [← hl.verified, hhash]
    exact ⟨hwrong, hid, hle, h.times.2 e₀ he₀⟩
  cases hact with
  | seen => exact .seen rfl
  | failedLogin hown login locks =>
    obtain ⟨-, hid, hle, htime⟩ := hread hlogin hown login
    rw [hid]
    exact .failed rfl (Nat.succ_pos _) (Nat.succ_le_succ hle) (locks.mono htime)
  | unlocked hown login =>
    obtain ⟨hfalse, -⟩ := hread hlogin hown login
    cases hfalse
  | @issued c m row hcred =>
    generalize hes : own c.id t.world.history = es at hcred
    generalize row.userId = id at hcred
    cases hcred with
    | password login =>
      obtain ⟨hfalse, -⟩ := hread hlogin hes login
      cases hfalse
    | token presented => exact absurd (hlogin.symm.trans presented.call) (by simp)
  | rotated hown presented => exact absurd (hlogin.symm.trans presented.call) (by simp)
  | managed hown managing =>
    have hmanages := managing.manages
    rw [hlogin] at hmanages
    cases hmanages
  | audited hown managing =>
    have hmanages := managing.manages
    rw [hlogin] at hmanages
    cases hmanages
  | _ => simp_all

/-- One step of the attack. -/
inductive Attempt (cfg : Config) (user : User) (start : Time) (t t' : Sys) (a : Act) : Prop
  | none (history : failures user.id t'.world.history = failures user.id t.world.history)
      (db : t'.world.db = t.world.db)
      (other : ∀ cm ∈ (service cfg).committed t a, ∀ id n lock,
        cm.writes ≠ [.userSet id (.failedLogin n lock)])
  | failed {n lock} {cm : Commit Call Write World} {u : User}
      (committed : (service cfg).committed t a = some cm)
      (writes : cm.writes = [.userSet user.id (.failedLogin n lock)])
      (history : failures user.id t'.world.history = failures user.id t.world.history + 1)
      (found : t.world.db.user? user.id = some u)
      (left : t'.world.db.user? user.id = some ((UserChange.failedLogin n lock).set u))
      (pos : 0 < n) (le : n ≤ failures user.id t.world.history + 1) (locks : Locks start n lock)

/-- A statement that is added was made during the attack. -/
theorem Attack.times_snoc {cfg : Config} {user : User} {start : Time} {t : Sys}
    (h : Attack cfg user start t) {e : Entry} (htime : t.world.now ≤ e.before.now) :
    ∀ e' ∈ t.world.history ++ [e], start ≤ e'.before.now := by
  intro e' he'
  rcases List.mem_append.mp he' with he' | he'
  · exact h.times.2 e' he'
  · rw [List.mem_singleton.mp he']
    exact Int.le_trans h.times.1 htime

/-- It has found the account as it is. -/
theorem Attack.read_snoc {cfg : Config} {user : User} {start : Time} {t : Sys}
    (h : Attack cfg user start t) {e : Entry} (hbefore : e.before.db = t.world.db) {k : ℕ}
    (hk : failures user.id t.world.history ≤ k) :
    ∀ e' ∈ t.world.history ++ [e], ∀ u, e'.before.db.userByEmail? user.email = some u →
      u.id = user.id ∧ u.passwordHash = user.passwordHash ∧ u.failedLoginAttempts ≤ k := by
  intro e' he' u' hu'
  rcases List.mem_append.mp he' with he' | he'
  · obtain ⟨hid, hsame, hle⟩ := h.read e' he' u' hu'
    exact ⟨hid, hsame, Nat.le_trans hle hk⟩
  · rw [List.mem_singleton.mp he', hbefore] at hu'
    obtain ⟨u, hu, hemail, hhash, hcount, -⟩ := h.row
    obtain ⟨hmem, hid⟩ := Rows.lookup_some hu
    have hfound := Rows.lookup_of_mem h.keeps.inv.1.valid.emails hmem
    rw [hemail] at hfound
    obtain rfl := Option.some.inj (hu'.symm.trans hfound)
    exact ⟨hid, hhash, Nat.le_trans hcount hk⟩

/-- The lock after a failed login. -/
theorem Locks.after {start : Time} {n : ℕ} {lock : Option Time} (h : Locks start n lock) {u : User}
    (hlocks : ∀ l ∈ u.lockoutUntil, l ≤ start ∨ start + lockoutMs ≤ l) :
    ∀ l ∈ ((UserChange.failedLogin n lock).set u).lockoutUntil,
      l ≤ start ∨ start + lockoutMs ≤ l := by
  intro l hl
  rw [(UserChange.failedLogin_set n lock u).2.2] at hl
  cases lock with
  | none => exact hlocks l hl
  | some l' =>
    obtain rfl : l' = l := by simpa using hl
    unfold Locks at h
    split_ifs at h
    · obtain ⟨t', ht', he⟩ := h
      right
      rw [Option.some.inj he]
      exact Int.add_le_add_right ht' _

theorem Attack.step {cfg : Config} {user : User} {start : Time} {t : Sys}
    (h : Attack cfg user start t) (a : Act) :
    Attempt cfg user start t ((service cfg).step t a) a ∧
      ((∀ c, a = .spawn c → c.WrongLogin cfg user) →
        Attack cfg user start ((service cfg).step t a)) := by
  have hkeeps := h.keeps.step a
  have hcalls : (∀ c, a = .spawn c → c.WrongLogin cfg user) →
      ∀ th ∈ ((service cfg).step t a).threads, th.session.call.WrongLogin cfg user := fun hspawn =>
    Service.calls_step (P := Call.WrongLogin cfg user) h.calls hspawn
  have hnow : start ≤ ((service cfg).step t a).world.now :=
    Int.le_trans h.times.1 ((service_lawful cfg).step_le t a)
  rcases h.keeps.step_cases a with ⟨hc, hhistory, hdb⟩ | ⟨cm, e, hc, hsession, hwrites, hbefore, -,
    htime, hact, hhistory, hdb, th, hth, hths, -⟩
  · refine ⟨.none (by rw [hhistory]) hdb fun cm hcm => ?_, fun hspawn => ?_⟩
    · rw [hc] at hcm
      cases hcm
    · refine ⟨hkeeps, hcalls hspawn, ⟨hnow, ?_⟩, ?_, ?_⟩
      · rw [hhistory]
        exact h.times.2
      · rw [hhistory, hdb]
        exact h.row
      · rw [hhistory]
        exact h.read
  · have hattempt := h.attempts hact (hths ▸ h.calls th (List.mem_of_getElem? hth))
    have htimes : ∀ e' ∈ ((service cfg).step t a).world.history, start ≤ e'.before.now := by
      rw [hhistory]
      exact h.times_snoc htime
    have hread : ∀ k, failures user.id t.world.history ≤ k →
        ∀ e' ∈ ((service cfg).step t a).world.history, ∀ u',
          e'.before.db.userByEmail? user.email = some u' → u'.id = user.id ∧
            u'.passwordHash = user.passwordHash ∧ u'.failedLoginAttempts ≤ k := by
      intro k hk
      rw [hhistory]
      exact h.read_snoc hbefore hk
    obtain ⟨u, hu, hemail, hhash, hcount, hlocks⟩ := h.row
    cases hattempt with
    | @seen q hseen =>
      have hfail : failures user.id ((service cfg).step t a).world.history =
          failures user.id t.world.history := by
        rw [hhistory, failures_append]
        simp [failures, Fails, hseen]
      have hsame : ((service cfg).step t a).world.db = t.world.db := by
        rw [hdb, hseen]
        rfl
      refine ⟨.none hfail hsame fun cm' hcm' id n lock hws => ?_, fun hspawn =>
        ⟨hkeeps, hcalls hspawn, ⟨hnow, htimes⟩, ?_, hfail ▸ hread _ (Nat.le_refl _)⟩⟩
      · rw [hc] at hcm'
        cases hcm'
        rw [← hwrites, hseen] at hws
        cases hws
      · rw [hfail, hsame]
        exact ⟨u, hu, hemail, hhash, hcount, hlocks⟩
    | @failed n lock hfailed hpos hle hlock =>
      have hfail : failures user.id ((service cfg).step t a).world.history =
          failures user.id t.world.history + 1 := by
        rw [hhistory, failures_append]
        simp [failures, Fails, hfailed]
      have hleft : ((service cfg).step t a).world.db.user? user.id =
          some ((UserChange.failedLogin n lock).set u) := by
        rw [hdb, hfailed, List.foldl_cons, List.foldl_nil, user?_userSet, if_pos rfl, hu]
        rfl
      obtain ⟨hcount', hhash', -⟩ := UserChange.failedLogin_set n lock u
      refine ⟨.failed hc (hwrites ▸ hfailed) hfail hu hleft hpos hle hlock, fun hspawn =>
        ⟨hkeeps, hcalls hspawn, ⟨hnow, htimes⟩, ⟨_, hleft, ?_, hhash'.trans hhash, ?_,
          hlock.after hlocks⟩, hfail ▸ hread _ (Nat.le_succ _)⟩⟩
      · rw [UserChange.set_email, hemail]
      · rw [hcount', hfail]
        exact hle

/-! ### The guarantee -/

/-- `Remembered`, with a lock that outlasts the attack. -/
def Counted (user : User) (start : Time) (t : Sys) : Prop :=
  ∃ u ∈ t.world.db.user? user.id, failures user.id t.world.history ≤ u.failedLoginAttempts ∧
    (5 ≤ failures user.id t.world.history → ∃ lock ∈ u.lockoutUntil, start + lockoutMs ≤ lock)

theorem Attack.remembered_iff_counted {cfg : Config} {user : User} {start : Time} {t : Sys}
    (h : Attack cfg user start t) (hwindow : t.world.now < start + lockoutMs) :
    Remembered user.id t ↔ Counted user start t := by
  obtain ⟨u, hu, -, -, -, hlocks⟩ := h.row
  constructor
  · rintro ⟨u', hu', hcount, hlock⟩
    obtain rfl := Option.some.inj (hu.symm.trans hu')
    refine ⟨u, hu, hcount, fun h5 => ?_⟩
    obtain ⟨lock, hl, hnow⟩ := hlock h5
    refine ⟨lock, hl, ?_⟩
    rcases hlocks lock hl with hle | hle
    · -- a lock from before the attack has run out
      have hlt := Int.lt_of_lt_of_le hnow (Int.le_trans hle h.times.1)
      exact absurd hlt (Int.lt_irrefl _)
    · exact hle
  · rintro ⟨u', hu', hcount, hlock⟩
    refine ⟨u', hu', hcount, fun h5 => ?_⟩
    obtain ⟨lock, hl, hle⟩ := hlock h5
    exact ⟨lock, hl, Int.lt_of_lt_of_le hwindow hle⟩

/-- A step that finds the counter as it was read counts the failure. -/
theorem Attempt.counted {cfg : Config} {user : User} {start : Time} {t t' : Sys} {a : Act}
    (h : Attempt cfg user start t t' a) (hcounted : Counted user start t)
    (hfinds : FindsCounter cfg t a) : Counted user start t' := by
  obtain ⟨u, hu, hcount, hlock⟩ := hcounted
  cases h with
  | none hhistory hdb =>
    unfold Counted
    rw [hhistory, hdb]
    exact ⟨u, hu, hcount, hlock⟩
  | @failed n lock cm u' hcm hwrites hhistory hfound hleft hpos hle hlocks =>
    obtain rfl := Option.some.inj (hu.symm.trans hfound)
    have hn := hfinds cm hcm
    simp only [hwrites] at hn
    have hcounter := hn u hu
    obtain ⟨hcount', -, hlock'⟩ := UserChange.failedLogin_set n lock u
    refine ⟨_, hleft, ?_, fun h5 => ?_⟩
    · rw [hcount', hhistory]
      omega
    · rw [hhistory] at h5
      rw [Locks, if_pos (by omega)] at hlocks
      obtain ⟨t₀, ht₀, rfl⟩ := hlocks
      exact ⟨t₀ + lockoutMs, by rw [hlock']; rfl, Int.add_le_add_right ht₀ _⟩

/-- A step that does not forgets one. -/
theorem Attempt.finds {cfg : Config} {user : User} {start : Time} {t t' : Sys} {a : Act}
    (h : Attempt cfg user start t t' a)
    (hrow : ∀ u ∈ t.world.db.user? user.id,
      u.failedLoginAttempts ≤ failures user.id t.world.history)
    (hcounted : Counted user start t) (hcounted' : Counted user start t') :
    FindsCounter cfg t a := by
  intro cm hcm
  cases h with
  | none hhistory hdb hother =>
    split
    · rename_i id n lock hws
      exact absurd hws (hother cm hcm id n lock)
    · trivial
  | @failed n lock cm' u' hcm' hwrites hhistory hfound hleft hpos hle hlocks =>
    obtain rfl := Option.some.inj (hcm.symm.trans hcm')
    simp only [hwrites]
    intro u hu
    obtain ⟨u₀, hu₀, hcount, -⟩ := hcounted
    obtain ⟨u₁, hu₁, hcount', -⟩ := hcounted'
    have hle := hrow u hu
    rw [hleft] at hu₁
    obtain rfl := Option.some.inj hu₁
    obtain rfl := Option.some.inj (hu.symm.trans hu₀)
    rw [(UserChange.failedLogin_set n lock u').1, hhistory] at hcount'
    omega

theorem Attacked.start {cfg : Config} {user : User} {s : Sys} {as : List Act}
    (h : Attacked cfg user s as) : Attack cfg user s.world.now s where
  keeps := h.initial.keeps
  calls := by simp [h.initial.threads]
  times := ⟨Int.le_refl _, by simp [h.initial.history]⟩
  row := ⟨user, Rows.lookup_of_mem h.initial.valid.users h.account, rfl, rfl,
    by simp [h.counter], fun lock hlock => .inl (h.unlocked lock hlock)⟩
  read := by simp [h.initial.history]

theorem Attacked.always {cfg : Config} {user : User} {s : Sys} {as : List Act}
    (h : Attacked cfg user s as) :
    (service cfg).Always (Attack cfg user s.world.now) s as := by
  have hspawns : (service cfg).Each (fun _ a => ∀ c, a = .spawn c → c.WrongLogin cfg user) s as := by
    refine Service.each_iff.mpr fun pre a post he c hc => ?_
    refine h.calls c ?_
    rw [he, hc]
    simp
  exact Service.always_of_step (fun t a ht hspawn => (ht.step a).2 hspawn) h.start hspawns

/-- Along every attack: no failed login is forgotten in any state if and only if every
update of a failed login finds the counter as its login has read it. -/
theorem remembered_iff {cfg : Config} {user : User} {s : Sys} {as : List Act}
    (h : Attacked cfg user s as) : (service cfg).Always (Remembered user.id) s as ↔
      (service cfg).Each (FindsCounter cfg) s as := by
  have hattack := h.always
  have hstart : Counted user s.world.now s := by
    obtain ⟨u, hu, -⟩ := h.start.row
    refine ⟨u, hu, by simp [failures, h.initial.history], fun h5 => ?_⟩
    simp [failures, h.initial.history] at h5
  rw [Service.always_congr (hattack.and h.window) fun t ht => ht.1.remembered_iff_counted ht.2]
  refine Service.always_iff_each hattack hstart (fun t a ht hcounted hfinds => ?_)
    fun t a ht hcounted hcounted' => ?_
  · exact (ht.step a).1.counted hcounted hfinds
  · refine (ht.step a).1.finds (fun u hu => ?_) hcounted hcounted'
    obtain ⟨u', hu', -, -, hcount, -⟩ := ht.row
    obtain rfl := Option.some.inj (hu'.symm.trans hu)
    exact hcount

/-- Five wrong logins on Eve's account, one after the other, and one more. -/
theorem remembered_five :
    let wrong : Call := .login ⟨Office.eve.email, "guess"⟩
    (service Office.cfg).Always (Remembered 7) Office.sys
      ((List.range 6).flatMap fun i => Office.first i wrong 6) := by
  intro wrong
  refine (@remembered_iff Office.cfg Office.eve _ _ ⟨Office.initial, by decide, rfl, by decide,
    fun c hc => ?_, by decide +kernel⟩).mpr (by decide +kernel)
  have hwrong : c = wrong := by
    simp only [Office.first, List.mem_flatMap, List.mem_cons, List.mem_replicate, Action.spawn.injEq,
      reduceCtorEq, and_false, or_false] at hc
    obtain ⟨-, -, hc⟩ := hc
    exact hc
  exact ⟨_, hwrong, rfl, by decide⟩

/-- Two wrong logins on Eve's account both read the counter before either writes it. -/
theorem remembered_fails :
    let wrong : Call := .login ⟨Office.eve.email, "guess"⟩
    let t := (service Office.cfg).run Office.sys
      (Office.first 0 wrong 1 ++ Office.first 1 wrong 2 ++ [.run 0])
    t.Ended 0 wrong (.error (.unauthorized "Email or password is incorrect")) ∧
      t.Ended 1 wrong (.error (.unauthorized "Email or password is incorrect")) ∧
      failures 7 t.world.history = 2 ∧
      (t.world.db.user? 7).map (·.failedLoginAttempts) = some 1 ∧ ¬ Remembered 7 t := by
  decide +kernel

end TurfSync.Accounts
