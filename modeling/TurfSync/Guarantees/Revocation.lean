import TurfSync.Guarantees.Rotation

/-! Revoking all sessions of a user. `logoutAll`, `resetPassword` and the reuse branch of
the refresh strategy end with one bulk deletion. A login or a refresh that has passed
its check before it, and inserts its row after it, is not revoked. -/

namespace TurfSync.Accounts

open Txn Journal

variable {cfg : Config} {userId : UserId}

/-- The bulk deletion, with which every revocation ends. -/
def Revokes (userId : UserId) (e : Entry) : Prop := e.writes = [.tokenDelete (.user userId)]

instance (userId : UserId) : DecidablePred (Revokes userId) := fun e =>
  inferInstanceAs (Decidable (e.writes = _))

/-- A login reads the user and finds the password right. Whether the account is locked depends
on the clock that the login reads next, so that a login which fails there counts as well. -/
def PassesLogin (cfg : Config) (userId : UserId) (dto : LoginDto) (e : Entry) : Prop :=
  ∃ u ∈ e.before.db.userByEmail? dto.email,
    u.id = userId ∧ cfg.argon2Verify u.passwordHash dto.password = true

instance (dto : LoginDto) (e : Entry) : Decidable (PassesLogin cfg userId dto e) :=
  inferInstanceAs (Decidable (∃ u ∈ e.before.db.userByEmail? dto.email, _))

/-- The check of a credential of a user: of the password hash by a login, of the row of
the presented token by a refresh. -/
def Checks (cfg : Config) (userId : UserId) (e : Entry) : Prop :=
  match e.session.call, e.writes with
  | .login dto, [.seen (.userByEmail _)] => PassesLogin cfg userId dto e
  | .refresh token, [.seen (.tokenFindFirst _ _)] =>
    ∃ r ∈ e.before.db.refreshTokens, r.token = ⟨token⟩ ∧ r.userId = userId
  | _, _ => False

/-- The statement after which a login or a refresh of a user cannot be rejected any
more, but for a lock on the account: the check of the password, or the deletion of the
presented token's row. -/
def Passes (cfg : Config) (userId : UserId) (e : Entry) : Prop :=
  match e.session.call, e.writes with
  | .login dto, [.seen (.userByEmail _)] => PassesLogin cfg userId dto e
  | .refresh _, [.tokenDelete (.row id)] =>
    ∃ r ∈ e.before.db.refreshTokens, r.id = id ∧ r.userId = userId
  | _, _ => False

instance : DecidablePred (Checks cfg userId) := fun e =>
  decidable_of_iff ((match e.session.call, e.writes with
    | .login dto, [.seen (.userByEmail _)] => decide (PassesLogin cfg userId dto e)
    | .refresh token, [.seen (.tokenFindFirst _ _)] =>
      decide (∃ r ∈ e.before.db.refreshTokens, r.token = ⟨token⟩ ∧ r.userId = userId)
    | _, _ => false) = true) (by unfold Checks; split <;> simp)

instance : DecidablePred (Passes cfg userId) := fun e =>
  decidable_of_iff ((match e.session.call, e.writes with
    | .login dto, [.seen (.userByEmail _)] => decide (PassesLogin cfg userId dto e)
    | .refresh _, [.tokenDelete (.row id)] =>
      decide (∃ r ∈ e.before.db.refreshTokens, r.id = id ∧ r.userId = userId)
    | _, _ => false) = true) (by unfold Passes; split <;> simp)

/-- Call `i` has ended. -/
def Over (t : Sys) (i : ℕ) : Prop := ∃ th ∈ t.threads[i]?, th.prog.result?.isSome

instance (t : Sys) (i : ℕ) : Decidable (Over t i) :=
  inferInstanceAs (Decidable (∃ th ∈ t.threads[i]?, _))

/-- Every row of a user whose sessions have been revoked was inserted by a login or a
refresh that has checked its credential after the revocation. -/
def NoneLeft (cfg : Config) (t : Sys) : Prop :=
  ∀ userId past k later, t.world.history = past ++ k :: later → Revokes userId k →
    ∀ r ∈ t.world.db.refreshTokens, r.userId = userId →
      ∃ e i, [e, i].Sublist later ∧ e.session = i.session ∧ Checks cfg userId e ∧
        i.writes = [.tokenInsert r]

/-- If the step is a bulk deletion, every login and every refresh of the user that
cannot be rejected any more has ended. -/
def RevokesAlone (cfg : Config) (t : Sys) (a : Act) : Prop :=
  ∀ cm ∈ (service cfg).committed t a, match cm.writes with
    | [.tokenDelete (.user userId)] => ∀ e ∈ t.world.history, Passes cfg userId e →
      Over t e.session.id
    | _ => True

instance (t : Sys) (a : Act) : Decidable (RevokesAlone cfg t a) :=
  decidable_of_iff (∀ cm ∈ (service cfg).committed t a, (match cm.writes with
    | [.tokenDelete (.user userId)] => decide (∀ e ∈ t.world.history, Passes cfg userId e →
      Over t e.session.id)
    | _ => true) = true) (forall₂_congr fun _ _ => by split <;> simp)

theorem Over.step {t : Sys} {i : ℕ} (h : Over t i) (a : Act) : Over ((service cfg).step t a) i := by
  obtain ⟨th, hth, hr⟩ := h
  obtain ⟨r, hr⟩ := Option.isSome_iff_exists.mp hr
  obtain ⟨th', hth', -, hr'⟩ : ((service cfg).step t a).Ended i th.session.call r :=
    Service.ended_step ⟨th, hth, rfl, hr⟩ a
  exact ⟨th', hth', by rw [hr']; rfl⟩

/-- Whoever has passed before a revocation has ended. -/
def PassedOver (cfg : Config) (t : Sys) : Prop :=
  ∀ userId past e later, t.world.history = past ++ e :: later → Passes cfg userId e →
    ∀ k ∈ later, Revokes userId k → Over t e.session.id

theorem Login.passes {c : Session Call} {dto : LoginDto} {u : User} {e : Entry}
    (h : Login cfg c dto u true e) : Passes cfg u.id e ∧ Checks cfg u.id e := by
  have hcall : e.session.call = .login dto := by rw [h.session, h.call]
  have hpass : PassesLogin cfg u.id dto e := ⟨u, h.found, rfl, h.verified⟩
  unfold Passes Checks
  rw [hcall, h.looked]
  exact ⟨hpass, hpass⟩

theorem Presented.checks {c : Session Call} {token : Jwt} {stored : RefreshToken} {f : Entry}
    (h : Presented c token stored f) : Checks cfg stored.userId f := by
  have hcall : f.session.call = .refresh token := by rw [h.session, h.call]
  unfold Checks
  rw [hcall, h.looked]
  exact ⟨stored, h.found, h.token, rfl⟩

/-- An entry of a session that goes on does not pass before a revocation. -/
theorem after_revocation {t : Sys} (hpassed : PassedOver cfg t) {past later : List Entry}
    {k e : Entry} (hk : t.world.history = past ++ k :: later) (hrevokes : Revokes userId k)
    (he : e ∈ t.world.history) (hpasses : Passes cfg userId e) (hne : e ≠ k)
    (hrunning : ¬ Over t e.session.id) : e ∈ later := by
  rw [hk] at he
  rcases List.mem_append.mp he with hp | hl
  · obtain ⟨as, bs, rfl⟩ := List.append_of_mem hp
    refine absurd (hpassed userId as e (bs ++ k :: later) ?_ hpasses k (by simp) hrevokes) hrunning
    rw [hk, List.append_assoc]
    rfl
  · rcases List.mem_cons.mp hl with he | hl
    · exact absurd he hne
    · exact hl

/-- The check behind an insertion comes after every revocation. -/
theorem checked_after {t : Sys} (ht : t.Keeps cfg) (hpassed : PassedOver cfg t)
    {past later : List Entry} {k : Entry} (hk : t.world.history = past ++ k :: later)
    (hrevokes : Revokes userId k) {c : Session Call}
    (hcred : Credential cfg c (own c.id t.world.history) userId) (hrunning : ¬ Over t c.id) :
    ∃ e ∈ later, e.session = c ∧ Checks cfg userId e := by
  obtain ⟨hw, hf⟩ := ht.inv
  generalize hes : own c.id t.world.history = es at hcred
  have hmem : ∀ e ∈ es, e ∈ t.world.history ∧ e.session.id = c.id := fun e he =>
    mem_own.mp (hes ▸ he)
  cases hcred with
  | @password dto u e rest login =>
    obtain ⟨hpasses, hchecks⟩ := login.passes
    obtain ⟨he, hid⟩ := hmem e (by simp)
    have hne : e ≠ k := by
      rintro rfl
      have hlooked := login.looked
      rw [hrevokes] at hlooked
      cases hlooked
    exact ⟨e, after_revocation hpassed hk hrevokes he hpasses hne (hid ▸ hrunning), login.session,
      hchecks⟩
  | @token token stored v f d s' presented deleted session =>
    obtain ⟨as, bs, hd, hfas, hstored⟩ := deletes_presented hw hf hes presented deleted
    obtain ⟨hdmem, hdid⟩ := hmem d (by simp)
    have hdpasses : Passes cfg stored.userId d := by
      have hcall : d.session.call = .refresh token := by rw [session, presented.call]
      unfold Passes
      rw [hcall, deleted]
      exact ⟨stored, hstored, rfl, rfl⟩
    have hdk : d ≠ k := by
      rintro rfl
      rw [hrevokes] at deleted
      cases deleted
    have hdlater := after_revocation hpassed hk hrevokes hdmem hdpasses hdk (hdid ▸ hrunning)
    have hfmem := (hmem f (by simp)).1
    refine ⟨f, ?_, presented.session, presented.checks⟩
    rw [hk] at hfmem
    rcases List.mem_append.mp hfmem with hp | hl
    · -- the row that the request deletes would have been revoked
      exfalso
      refine stays_gone hw hf hk (.inr ⟨f, hp, presented.found⟩) (p := fun r => r = stored)
        (fun r hr => .inl (by rw [hr])) (fun r hr he => ?_) d hdlater stored hstored rfl
      rw [hrevokes] at hr
      have hcovers := (List.mem_filter.mp hr).2
      simp [Scope.Covers, he] at hcovers
    · rcases List.mem_cons.mp hl with rfl | hl
      · have hlooked := presented.looked
        rw [hrevokes] at hlooked
        cases hlooked
      · exact hl

/-- One statement of a session that goes on. -/
theorem NoneLeft.insert {t t' : Sys} (ht : t.Keeps cfg) (hpassed : PassedOver cfg t)
    (hnone : NoneLeft cfg t) {e : Entry} (hact : Acts cfg t.world.history e)
    (hbefore : e.before.db = t.world.db) (hrunning : ¬ Over t e.session.id)
    (hhistory : t'.world.history = t.world.history ++ [e])
    (hdb : t'.world.db = e.writes.foldl Db.apply t.world.db) : NoneLeft cfg t' := by
  intro userId past k later hk hrevokes r hr huser
  rw [hhistory] at hk
  rcases List.eq_nil_or_concat later with rfl | ⟨later', x, rfl⟩
  · -- the revocation itself
    obtain ⟨-, hlast⟩ := List.append_inj' hk rfl
    obtain rfl := (List.cons.inj hlast).1
    rw [hdb, hrevokes] at hr
    have hcovers := (List.mem_filter.mp hr).2
    simp [Scope.Covers, huser] at hcovers
  · rw [List.concat_eq_append, ← List.cons_append, ← List.append_assoc] at hk
    obtain ⟨hsplit, hlast⟩ := List.append_inj' hk rfl
    obtain rfl := (List.cons.inj hlast).1
    rw [List.concat_eq_append]
    rw [hdb, ← hbefore] at hr
    rcases hact.rows hr with hold | hws
    · obtain ⟨e₀, i, hsub, hrest⟩ := hnone userId past k later' hsplit hrevokes r (hbefore ▸ hold) huser
      exact ⟨e₀, i, hsub.trans (List.sublist_append_left _ _), hrest⟩
    · obtain ⟨hcred, -⟩ := hact.of_insert hws
      rw [huser] at hcred
      obtain ⟨e₀, he₀, hsession, hchecks⟩ :=
        checked_after ht hpassed hsplit hrevokes hcred hrunning
      refine ⟨e₀, e, ?_, hsession, hchecks, hws⟩
      exact (List.singleton_sublist.mpr he₀).append (List.Sublist.refl [e])

theorem PassedOver.step {t : Sys} (ht : t.Keeps cfg) (hpassed : PassedOver cfg t) {a : Act}
    (halone : RevokesAlone cfg t a) : PassedOver cfg ((service cfg).step t a) := by
  intro userId past e later hsplit hpasses k hk hrevokes
  rcases ht.step_cases a with ⟨-, hhistory, -⟩ | ⟨cm, e', hc, -, hwrites, -, -, -, -, hhistory, -⟩
  · exact (hpassed userId past e later (hhistory ▸ hsplit) hpasses k hk hrevokes).step a
  · rw [hhistory] at hsplit
    rcases List.eq_nil_or_concat later with rfl | ⟨later', x, rfl⟩
    · cases hk
    · rw [List.concat_eq_append, ← List.cons_append, ← List.append_assoc] at hsplit
      obtain ⟨hfront, hlast⟩ := List.append_inj' hsplit rfl
      obtain rfl := (List.cons.inj hlast).1
      rw [List.concat_eq_append] at hk
      rcases List.mem_append.mp hk with hk | hk
      · exact (hpassed userId past e later' hfront hpasses k hk hrevokes).step a
      · -- the step is the revocation
        obtain rfl := List.mem_singleton.mp hk
        have hcm := halone cm hc
        rw [← hwrites, hrevokes] at hcm
        exact (hcm e (by simp [hfront]) hpasses).step a

/-- In every run in which each bulk deletion finds no login and no refresh of the user
that has passed and has not ended, no revocation leaves a session behind. -/
theorem noneLeft_always {s : Sys} {as : List Act} (hs : s.Initial)
    (halone : (service cfg).Each (RevokesAlone cfg) s as) :
    (service cfg).Always (NoneLeft cfg) s as := by
  have hstep : ∀ (t : Sys) (a : Act), t.Keeps cfg ∧ PassedOver cfg t ∧ NoneLeft cfg t →
      RevokesAlone cfg t a → Sys.Keeps cfg ((service cfg).step t a) ∧
        PassedOver cfg ((service cfg).step t a) ∧ NoneLeft cfg ((service cfg).step t a) := by
    rintro t a ⟨ht, hpassed, hnone⟩ ha
    refine ⟨ht.step a, hpassed.step ht ha, ?_⟩
    rcases ht.step_cases a with ⟨-, hhistory, hdb⟩ | ⟨cm, e, -, -, -, hbefore, -, -, hact, hhistory,
      hdb, th, hth, -, hrunning⟩
    · intro userId past k later hk hrevokes r hr huser
      rw [hhistory] at hk
      rw [hdb] at hr
      exact hnone userId past k later hk hrevokes r hr huser
    · refine hnone.insert ht hpassed hact hbefore ?_ hhistory hdb
      rintro ⟨th', hth', hover⟩
      obtain rfl := Option.some.inj (hth.symm.trans hth')
      rw [hrunning] at hover
      cases hover
  have hempty : ∀ {past later : List Entry} {e : Entry}, s.world.history ≠ past ++ e :: later := by
    intro past later e he
    simp [hs.history] at he
  have hstart : s.Keeps cfg ∧ PassedOver cfg s ∧ NoneLeft cfg s :=
    ⟨hs.keeps, fun _ _ _ _ h => absurd h hempty, fun _ _ _ _ h => absurd h hempty⟩
  exact (Service.always_of_step hstep hstart halone).mono fun t ht => ht.2.2

/-- Eve logs in, revokes all her sessions and logs in again. -/
theorem noneLeft_office :
    let login : Call := .login ⟨Office.eve.email, "eve-secret"⟩
    (service Office.cfg).Always (NoneLeft Office.cfg) Office.sys
      (Office.first 0 login 4 ++ Office.first 1 (.logoutAll (Office.jwt Office.eve 60)) 2 ++
        Office.first 2 login 4) :=
  noneLeft_always Office.initial (by decide +kernel)

theorem NoneLeft.checked {t : Sys} (h : NoneLeft cfg t) (n : ℕ)
    (hk : ∃ k ∈ t.world.history[n]?, Revokes userId k)
    (hr : ∃ r ∈ t.world.db.refreshTokens, r.userId = userId) :
    ∃ e ∈ t.world.history.drop (n + 1), Checks cfg userId e := by
  obtain ⟨k, hk, hrevokes⟩ := hk
  obtain ⟨r, hr, huser⟩ := hr
  obtain ⟨hlt, hget⟩ := List.getElem?_eq_some_iff.mp hk
  have hsplit : t.world.history = t.world.history.take n ++ k :: t.world.history.drop (n + 1) := by
    rw [← hget, List.getElem_cons_drop, List.take_append_drop]
  obtain ⟨e, i, hsub, -, hchecks, -⟩ := h userId _ k _ hsplit hrevokes r hr huser
  exact ⟨e, hsub.subset (by simp), hchecks⟩

/-- A refresh has deleted the row of its token when Eve revokes all sessions; then it
inserts the new one. -/
theorem noneLeft_fails :
    let revoke : Call := .logoutAll (Office.jwt Office.eve 60)
    let refresh : Call := .refresh (Office.jwt Office.eve 51)
    let t := (service Office.cfg).run Office.sys
      (Office.first 0 refresh 4 ++ Office.first 1 revoke 2 ++ List.replicate 3 (.run 0))
    t.Ended 1 revoke (.ok (.message "Logged out from all devices")) ∧
      (∃ r ∈ t.world.db.refreshTokens, r.userId = 7) ∧ ¬ NoneLeft Office.cfg t := by
  intro revoke refresh t
  have hnone : ¬ ∃ e ∈ t.world.history.drop 5, Checks Office.cfg 7 e := by decide +kernel
  have hrow : ∃ r ∈ t.world.db.refreshTokens, r.userId = 7 := by decide +kernel
  exact ⟨by decide +kernel, hrow, fun h => hnone (h.checked 4 (by decide +kernel) hrow)⟩

end TurfSync.Accounts
