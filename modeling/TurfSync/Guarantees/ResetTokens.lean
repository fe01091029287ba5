import TurfSync.Protocol.Auth
import TurfSync.Protocol.Requests
import TurfSync.Txn.Fresh

/-! Password reset tokens. A token is drawn by one `forgotPassword` and written once, so
a token that has been cleared never comes back. But `resetPassword` looks its token up
and updates the user by id, after it has computed the hash: two resets that have both
found the token both change the password. -/

namespace TurfSync.Accounts

open Txn Journal

/-- `randomBytes` draws a token, and `forgotPassword` spends it on a user. -/
def resetTokens : Drawing Stmt Stmt.Reply where
  draws
    | .external .randomBytes, token => some token
    | _, _ => none
  spends
    | .update (.userUpdate _ (.resetRequested token _)) => some token
    | _ => none

/-- Some user carries the token. -/
def Db.Carries (db : Db) (token : ℕ) : Prop := ∃ u ∈ db.users, u.passwordResetToken = some token

/-- Some user carries the token, or has carried it. -/
def World.Issued (w : World) (token : ℕ) : Prop :=
  w.db.Carries token ∨ ∃ e ∈ w.history, e.before.db.Carries token

/-! ### Every token is drawn and written once -/

theorem tokenless_neutral {s : Stmt} (h : s.tokenless = true) :
    resetTokens.spends s = none ∧ ∀ a, resetTokens.draws s a = none := by
  cases s with
  | query q => exact ⟨rfl, fun _ => rfl⟩
  | external x =>
    cases x with
    | randomBytes => cases h
    | _ => exact ⟨rfl, fun _ => rfl⟩
  | update u =>
    cases u with
    | userUpdate id change =>
      cases change with
      | resetRequested token expires => cases h
      | _ => exact ⟨rfl, fun _ => rfl⟩
    | _ => exact ⟨rfl, fun _ => rfl⟩

theorem owns_of_tokenless {α : Type} {p : Op α} {φ : Stmt → Bool} (hp : Only φ p)
    (hφ : ∀ s : Stmt, φ s = true → s.tokenless = true) : p.Owns resetTokens none := by
  refine Script.obeys_mono (Script.obeys_of_uses (J := fun o => o = none) ?_ hp rfl) fun _ _ _ =>
    trivial
  rintro o _ ⟨s, rfl, hs⟩ rfl
  obtain ⟨hspends, hdraws⟩ := tokenless_neutral (hφ s hs)
  refine ⟨fun x hx => ?_, fun r => ?_⟩
  · rw [hspends] at hx
    cases hx
  · cases r with
    | ok a => simp [Drawing.automaton, hspends, hdraws]
    | error e => simp [Drawing.automaton]

/-- The token that is drawn is the one that is written. -/
theorem forgotPassword_owns (email : String) :
    (AuthService.forgotPassword email).Owns resetTokens none := by
  refine Script.owns_perform rfl (fun _ => rfl) fun found => ?_
  cases found with
  | none => trivial
  | some user =>
    refine Script.owns_draw rfl fun token => Script.owns_perform rfl (fun _ => rfl) fun now => ?_
    exact Script.owns_spend rfl fun _ => Script.owns_perform rfl (fun _ => rfl) fun _ => trivial

theorem body_owns (cfg : Config) (c : Call) : (c.body cfg).Owns resetTokens none := by
  by_cases hc : c.Managing
  · exact owns_of_tokenless (Call.body_tokenless cfg hc) fun _ h => h
  · by_cases hforgot : ∃ email, c = .forgotPassword email
    · obtain ⟨email, rfl⟩ := hforgot
      exact forgotPassword_owns email
    · refine owns_of_tokenless (Call.body_ordinary cfg hc fun email he => hforgot ⟨email, he⟩)
        fun s hs => ?_
      exact (Bool.and_eq_true_iff.mp hs).1

/-- A change to a user that brings a token is a `resetRequested` with it. -/
theorem UserChange.set_token {change : UserChange} {u : User} {token : ℕ}
    (h : (change.set u).passwordResetToken = some token) :
    u.passwordResetToken = some token ∨ ∃ expires, change = .resetRequested token expires := by
  cases change with
  | failedLogin n t => cases t <;> exact .inl h
  | resetRequested token' expires =>
    obtain rfl := Option.some.inj h
    exact .inr ⟨expires, rfl⟩
  | passwordReset hash => cases h
  | _ => exact .inl h

theorem Db.Carries.of_apply {db : Db} {x : Write} {token : ℕ} (h : (db.apply x).Carries token) :
    db.Carries token ∨ ∃ id expires, x = .userSet id (.resetRequested token expires) := by
  cases x with
  | userSet id change =>
    obtain ⟨u, hu, htoken⟩ := h
    obtain ⟨u', hu', rfl⟩ := Rows.mem_update.mp hu
    split_ifs at htoken
    · rcases UserChange.set_token htoken with hold | ⟨expires, rfl⟩
      · exact .inl ⟨u', hu', hold⟩
      · exact .inr ⟨id, expires, rfl⟩
    · exact .inl ⟨u', hu', htoken⟩
  | _ => exact .inl h

/-- A statement that writes a token spends it. -/
theorem Stmt.Issues.spends {s : Stmt} {id : UserId} {token : ℕ} {expires : Time}
    (h : s.Issues (.userSet id (.resetRequested token expires))) :
    resetTokens.spends s = some token := by
  cases s with
  | query q => cases h
  | external x => exact h.elim
  | update u =>
    cases u with
    | userUpdate id change =>
      cases h
      rfl
    | tokenCreate payload expiresAt =>
      obtain ⟨row, hrow⟩ := h
      cases hrow
    | _ => cases h

theorem World.Issued.of_commit {cfg : Config} {c : Session Call} {ws : List Write} {w : World}
    {token : ℕ} (h : ((engine cfg).commit c ws w).Issued token) :
    w.Issued token ∨ Db.Carries (ws.foldl Db.apply w.db) token := by
  rcases h with h | ⟨e, he, h⟩
  · exact .inr h
  · rcases List.mem_append.mp he with he | he
    · exact .inl (.inr ⟨e, he, h⟩)
    · rw [List.mem_singleton.mp he] at h
      exact .inl (.inl h)

theorem resetTokens_lawful (cfg : Config) :
    resetTokens.Lawful (service cfg) World.uuid World.Issued where
  act s w := by
    cases s with
    | query q => exact ⟨Nat.le_refl _, fun _ h => h⟩
    | update u => exact ⟨Nat.le_add_right _ 3, fun _ h => h⟩
    | external x =>
      cases x with
      | dateNow => exact ⟨Nat.le_refl _, fun _ h => h⟩
      | argon2Hash _ => exact ⟨Nat.le_succ _, fun _ h => h⟩
      | randomBytes => exact ⟨Nat.le_succ _, fun _ h => h⟩
      | sendPasswordResetEmail _ _ _ => exact ⟨Nat.le_refl _, fun _ h => h⟩
  draws s w a x hreply hx := by
    cases s with
    | external y =>
      cases y with
      | randomBytes =>
        obtain rfl := Option.some.inj hx
        obtain rfl := Except.ok.inj hreply
        exact ⟨Nat.le_refl _, Nat.lt_succ_self _⟩
      | _ => cases hx
    | _ => cases hx
  commit c s w := by
    refine ⟨rfl, fun token h => ?_⟩
    have hsame : ∀ {w' : World}, w'.db = w.db → w'.history = w.history →
        w'.Issued token → w.Issued token := fun hdb hhistory h => by
      rwa [World.Issued, hdb, hhistory] at h
    obtain ⟨hdb, hhistory⟩ := act_db cfg s w w
    rcases h.of_commit with h | h
    · exact .inl (hsame hdb hhistory h)
    · rcases act_writes cfg s w w with hws | ⟨x, hws, hissues⟩
      · have h' : Db.Carries (((engine cfg).act s w w).writes.foldl Db.apply
            ((engine cfg).act s w w).world.db) token := h
        rw [hws, hdb] at h'
        exact .inl (.inl h')
      · have h' : Db.Carries (((engine cfg).act s w w).writes.foldl Db.apply
            ((engine cfg).act s w w).world.db) token := h
        rw [hws, hdb] at h'
        rcases Db.Carries.of_apply h' with hold | ⟨id, expires, rfl⟩
        · exact .inl (.inl hold)
        · exact .inr hissues.spends
  evolve v w := ⟨Nat.le_refl _, fun _ h => h⟩
  body := body_owns cfg

/-! ### Resets -/

/-- A `resetPassword` with the token changes the password hash. -/
def Redeems (token : ℕ) (e : Entry) : Prop :=
  match e.session.call, e.writes with
  | .resetPassword token' _, [.userSet _ (.passwordReset _)] => token' = token
  | _, _ => False

instance (token : ℕ) : DecidablePred (Redeems token) := fun e =>
  decidable_of_iff ((match e.session.call, e.writes with
    | .resetPassword token' _, [.userSet _ (.passwordReset _)] => decide (token' = token)
    | _, _ => false) = true) (by unfold Redeems; split <;> simp)

theorem redeems_iff {token : ℕ} {e : Entry} : Redeems token e ↔ ∃ newPassword id hash,
    e.session.call = .resetPassword token newPassword ∧
      e.writes = [.userSet id (.passwordReset hash)] := by
  unfold Redeems
  constructor
  · intro h
    split at h
    · subst h
      exact ⟨_, _, _, by assumption, by assumption⟩
    · exact h.elim
  · rintro ⟨newPassword, id, hash, hcall, hws⟩
    rw [hcall, hws]

/-- A lookup of the token that finds nobody, whenever it is made. -/
def Misses (token : ℕ) (e : Entry) : Prop :=
  ∀ now, e.writes = [.seen (.userByResetToken token now)] →
    Query.eval e.before.db (.userByResetToken token now) = none

/-- One `resetPassword` at most has changed a password with the token, and then every
later lookup of the token finds nobody and a call that presents it is rejected. -/
def RedeemedOnce (cfg : Config) (t : Sys) : Prop :=
  ∀ token, (t.world.history.filter (Redeems token)).length ≤ 1 ∧
    ∀ past e later, t.world.history = past ++ e :: later → Redeems token e →
      (∀ e' ∈ later, Misses token e') ∧
      ∀ newPassword, (service cfg).reply t (.resetPassword token newPassword) =
        .error (.badRequest "Invalid or expired reset token")

/-- If the step is the update of a `resetPassword`, the user still carries the token. -/
def RedeemsLive (cfg : Config) (t : Sys) (a : Act) : Prop :=
  ∀ cm ∈ (service cfg).committed t a, match cm.session.call, cm.writes with
    | .resetPassword token _, [.userSet id _] =>
      ∃ u ∈ t.world.db.user? id, u.passwordResetToken = some token
    | _, _ => True

instance (cfg : Config) (t : Sys) (a : Act) : Decidable (RedeemsLive cfg t a) :=
  decidable_of_iff (∀ cm ∈ (service cfg).committed t a, (match cm.session.call, cm.writes with
    | .resetPassword token _, [.userSet id _] =>
      decide (∃ u ∈ t.world.db.user? id, u.passwordResetToken = some token)
    | _, _ => true) = true) (forall₂_congr fun _ _ => by split <;> simp)

/-- Reset tokens that are out have been drawn before, each for one user. -/
structure Db.TokensDrawn (db : Db) (uuid : ℕ) : Prop where
  drawn : ∀ token, db.Carries token → token < uuid
  one : ∀ u ∈ db.users, ∀ u' ∈ db.users, ∀ token, u.passwordResetToken = some token →
    u'.passwordResetToken = some token → u.id = u'.id

/-- What holds between the steps: a redeemed token is carried by nobody. -/
structure Spent (cfg : Config) (t : Sys) : Prop where
  keeps : t.Keeps cfg
  fresh : resetTokens.Fresh World.uuid World.Issued t
  one : ∀ u ∈ t.world.db.users, ∀ u' ∈ t.world.db.users, ∀ token,
    u.passwordResetToken = some token → u'.passwordResetToken = some token → u.id = u'.id
  gone : ∀ token, ∀ e ∈ t.world.history, Redeems token e → ¬ t.world.db.Carries token
  count : ∀ token, (t.world.history.filter (Redeems token)).length ≤ 1
  misses : ∀ token past e later, t.world.history = past ++ e :: later → Redeems token e →
    ∀ e' ∈ later, Misses token e'

theorem misses_of_not_carries {e : Entry} {token : ℕ} (h : ¬ e.before.db.Carries token) :
    Misses token e := by
  intro now _
  refine List.find?_eq_none.mpr fun u hu => ?_
  have hne : u.passwordResetToken ≠ some token := fun htoken => h ⟨u, hu, htoken⟩
  simp [hne]

theorem rejected {cfg : Config} {t : Sys} {token : ℕ} (h : ¬ t.world.db.Carries token)
    (newPassword : String) : (service cfg).reply t (.resetPassword token newPassword) =
      .error (.badRequest "Invalid or expired reset token") := by
  have hnone : Query.eval t.world.db (.userByResetToken token t.world.now) = none :=
    misses_of_not_carries (e := ⟨⟨0, .cleanupExpiredTokens⟩, _, t.world.moment⟩) h t.world.now rfl
  show ((service cfg).solo _ ((query (.userByResetToken token t.world.now)).bind _) .idle _).1 = _
  rw [Engine.solo_bind]
  show ((service cfg).andThen _ (Except.ok (Query.eval t.world.db (.userByResetToken token
    t.world.now)), _, _) _).1 = _
  rw [hnone]
  rfl

theorem Acts.of_reset {cfg : Config} {past : List Entry} {e : Entry} {token : ℕ}
    {newPassword hash : String} {id : UserId} (h : Acts cfg past e)
    (hcall : e.session.call = .resetPassword token newPassword)
    (hws : e.writes = [.userSet id (.passwordReset hash)]) :
    ∃ e₀, own e.session.id past = [e₀] ∧
      ∃ u ∈ e₀.before.db.users, u.passwordResetToken = some token := by
  cases h with
  | passwordReset hown hcall' hfound =>
    rw [hcall] at hcall'
    cases hcall'
    exact ⟨_, hown, _, hfound⟩
  | managed hown managing =>
    have hmanages := managing.manages
    simp only at hcall
    rw [hcall] at hmanages
    cases hmanages
  | _ => cases hws

theorem Acts.single {cfg : Config} {past : List Entry} {e : Entry} (h : Acts cfg past e) :
    ∃ x, e.writes = [x] := by
  cases h <;> exact ⟨_, rfl⟩

/-- A redeemed token had been issued: the call had found it. -/
theorem Redeems.issued {cfg : Config} {t : Sys} (ht : t.Keeps cfg) {token : ℕ} {e : Entry}
    (he : e ∈ t.world.history) (h : Redeems token e) : t.world.Issued token := by
  obtain ⟨past, later, hsplit⟩ := List.append_of_mem he
  have hact := ht.inv.2.post hsplit
  obtain ⟨newPassword, id, hash, hcall, hws⟩ := redeems_iff.mp h
  obtain ⟨e₀, hown, user, hmem, htoken⟩ := hact.of_reset hcall hws
  have he₀ : e₀ ∈ past := (mem_own.mp (hown ▸ List.mem_singleton.mpr rfl)).1
  exact .inr ⟨e₀, by simp [hsplit, he₀], user, hmem, htoken⟩

/-- The update of a reset takes the token from the user who carries it. -/
theorem not_carries_reset {db : Db} {id : UserId} {token : ℕ} {hash : String} {u : User}
    (hu : db.user? id = some u) (htoken : u.passwordResetToken = some token)
    (one : ∀ u ∈ db.users, ∀ u' ∈ db.users, ∀ token, u.passwordResetToken = some token →
      u'.passwordResetToken = some token → u.id = u'.id) :
    ¬ (db.apply (.userSet id (.passwordReset hash))).Carries token := by
  rintro ⟨v, hv, hvtoken⟩
  obtain ⟨v', hv', rfl⟩ := Rows.mem_update.mp hv
  obtain ⟨hmem, hid⟩ := Rows.lookup_some hu
  split_ifs at hvtoken with hsame
  · cases hvtoken
  · refine hsame (List.mem_singleton.mpr ?_)
    rw [← hid]
    exact one v' hv' u hmem token hvtoken htoken

/-- A write that brings no token that is carried already leaves each token to one user. -/
theorem one_apply {db : Db} {x : Write} (one : ∀ u ∈ db.users, ∀ u' ∈ db.users, ∀ token,
      u.passwordResetToken = some token → u'.passwordResetToken = some token → u.id = u'.id)
    (hx : ∀ id token expires, x = .userSet id (.resetRequested token expires) → ¬ db.Carries token) :
    ∀ u ∈ (db.apply x).users, ∀ u' ∈ (db.apply x).users, ∀ token,
      u.passwordResetToken = some token → u'.passwordResetToken = some token → u.id = u'.id := by
  cases x with
  | userSet id change =>
    -- a token that the change brings is carried by no other row
    have hbrought : ∀ token, ∀ v ∈ db.users, v.id ∈ [id] → ∀ v' ∈ db.users,
        (change.set v).passwordResetToken = some token → v'.passwordResetToken = some token →
        v.id = v'.id := by
      intro token v hv _ v' hv' htoken htoken'
      rcases UserChange.set_token htoken with hold | ⟨expires, he⟩
      · exact one v hv v' hv' token hold htoken'
      · exact absurd ⟨v', hv', htoken'⟩ (hx id token expires (by rw [he]))
    intro u hu u' hu' token htoken htoken'
    obtain ⟨v, hv, rfl⟩ := Rows.mem_update.mp hu
    obtain ⟨v', hv', rfl⟩ := Rows.mem_update.mp hu'
    split_ifs at htoken htoken' ⊢ with hid hid' hid'
    · simp only [UserChange.set_id]
      rw [List.mem_singleton.mp hid, List.mem_singleton.mp hid']
    · rw [UserChange.set_id]
      exact hbrought token v hv hid v' hv' htoken htoken'
    · rw [UserChange.set_id]
      exact (hbrought token v' hv' hid' v hv htoken' htoken).symm
    · exact one v hv v' hv' token htoken htoken'
  | _ => exact one

theorem Spent.step {cfg : Config} {t : Sys} (h : Spent cfg t) {a : Act}
    (hlive : RedeemsLive cfg t a) : Spent cfg ((service cfg).step t a) := by
  have hkeeps := h.keeps.step a
  have hdrawn := h.fresh.step (resetTokens_lawful cfg) a
  rcases h.keeps.step_cases a with ⟨-, hhistory, hdb⟩ | ⟨cm, e, hc, hsession, hwrites, hbefore, -,
    -, hact, hhistory, hdb, -⟩
  · exact {
      keeps := hkeeps
      fresh := hdrawn
      one := by rw [hdb]; exact h.one
      gone := by rw [hhistory, hdb]; exact h.gone
      count := by rw [hhistory]; exact h.count
      misses := by rw [hhistory]; exact h.misses }
  obtain ⟨x, hx⟩ := hact.single
  rw [hx, List.foldl_cons, List.foldl_nil] at hdb
  -- a token that is written now has not been issued before
  have hfresh : ∀ id token expires, x = .userSet id (.resetRequested token expires) →
      ¬ t.world.Issued token := by
    rintro id token expires rfl
    refine h.fresh.spend (resetTokens_lawful cfg) hc fun st w hws => ?_
    rw [← hwrites, hx] at hws
    rcases act_writes cfg st w w with hnil | ⟨y, hy, hissues⟩
    · cases hnil.symm.trans hws
    · obtain rfl := List.singleton_inj.mp (hy.symm.trans hws)
      exact hissues.spends
  have hredeems : ∀ token, Redeems token e →
      t.world.db.Carries token ∧ ¬ (t.world.db.apply x).Carries token := by
    intro token hr
    obtain ⟨newPassword, id, hash, hcall, hws⟩ := redeems_iff.mp hr
    have hcm := hlive cm hc
    rw [← hsession, hcall, ← hwrites, hws] at hcm
    obtain ⟨u, hu, htoken⟩ := hcm
    obtain rfl := List.singleton_inj.mp (hx.symm.trans hws)
    exact ⟨⟨u, (Rows.lookup_some hu).1, htoken⟩, not_carries_reset hu htoken h.one⟩
  exact {
    keeps := hkeeps
    fresh := hdrawn
    one := by
      rw [hdb]
      exact one_apply h.one fun id token expires he hcarries =>
        hfresh id token expires he (.inl hcarries)
    gone := by
      intro token e' he' hr hcarries
      rw [hhistory] at he'
      rw [hdb] at hcarries
      rcases List.mem_append.mp he' with he' | he'
      · rcases hcarries.of_apply with hold | ⟨id, expires, hbrought⟩
        · exact h.gone token e' he' hr hold
        · exact hfresh id token expires hbrought (hr.issued h.keeps he')
      · obtain rfl := List.mem_singleton.mp he'
        exact (hredeems token hr).2 hcarries
    count := by
      intro token
      rw [hhistory, List.filter_append, List.length_append]
      by_cases hr : Redeems token e
      · have hnil : t.world.history.filter (Redeems token) = [] := by
          refine List.filter_eq_nil_iff.mpr fun e' he' hr' => ?_
          exact h.gone token e' he' (of_decide_eq_true hr') (hredeems token hr).1
        rw [hnil]
        simpa using List.length_filter_le (fun e => decide (Redeems token e)) [e]
      · simpa [hr] using h.count token
    misses := by
      intro token past e' later hsplit hr e'' he''
      rw [hhistory] at hsplit
      rcases List.eq_nil_or_concat later with rfl | ⟨later', y, rfl⟩
      · cases he''
      · rw [List.concat_eq_append, ← List.cons_append, ← List.append_assoc] at hsplit
        obtain ⟨hfront, hlast⟩ := List.append_inj' hsplit rfl
        obtain rfl := List.singleton_inj.mp hlast
        rcases List.mem_append.mp (List.concat_eq_append ▸ he'') with he'' | he''
        · exact h.misses token past e' later' hfront hr e'' he''
        · obtain rfl := List.mem_singleton.mp he''
          refine misses_of_not_carries ?_
          rw [hbefore]
          exact h.gone token e' (by rw [hfront]; simp) hr }

theorem Spent.redeemedOnce {cfg : Config} {t : Sys} (h : Spent cfg t) : RedeemedOnce cfg t := by
  refine fun token => ⟨h.count token, fun past e later hsplit hr => ⟨?_, ?_⟩⟩
  · exact h.misses token past e later hsplit hr
  · exact rejected (h.gone token e (by rw [hsplit]; simp) hr)

/-- In every run in which every reset finds its token still with the user when it changes
the password, a token works once. -/
theorem redeemedOnce_always {cfg : Config} {s : Sys} {as : List Act} (hs : s.Initial)
    (htokens : s.world.db.TokensDrawn s.world.uuid)
    (hlive : (service cfg).Each (RedeemsLive cfg) s as) :
    (service cfg).Always (RedeemedOnce cfg) s as := by
  have hissued : ∀ token, s.world.Issued token → token < s.world.uuid := by
    rintro token (h | ⟨e, he, -⟩)
    · exact htokens.drawn token h
    · simp [hs.history] at he
  have hstart : Spent cfg s := {
    keeps := hs.keeps
    fresh := .initial hs.threads hissued
    one := htokens.one
    gone := by simp [hs.history]
    count := by simp [hs.history]
    misses := fun token past e later h => by simp [hs.history] at h }
  exact (Service.always_of_step (fun t a h => h.step) hstart hlive).mono fun t ht => ht.redeemedOnce

theorem Office.no_tokens : ∀ u ∈ Office.sys.world.db.users, u.passwordResetToken = none := by
  decide

theorem Office.tokens : Office.sys.world.db.TokensDrawn Office.sys.world.uuid where
  drawn token := by
    rintro ⟨u, hu, htoken⟩
    rw [Office.no_tokens u hu] at htoken
    cases htoken
  one u hu _ _ token htoken := by
    rw [Office.no_tokens u hu] at htoken
    cases htoken

/-- Eve asks for a token, uses it, and tries it again. -/
theorem redeemedOnce_office : (service Office.cfg).Always (RedeemedOnce Office.cfg) Office.sys
    (Office.first 0 (.forgotPassword Office.eve.email) 5 ++
      Office.first 1 (.resetPassword 100 "Garden12") 5 ++
      Office.first 2 (.resetPassword 100 "Harbour3") 2) :=
  redeemedOnce_always Office.initial Office.tokens (by decide +kernel)

/-- Two resets have found Eve's token when the first of them changes the password. -/
theorem redeemedOnce_fails :
    let first : Call := .resetPassword 100 "Garden12"
    let second : Call := .resetPassword 100 "Harbour3"
    let t := (service Office.cfg).run Office.sys
      (Office.first 0 (.forgotPassword Office.eve.email) 5 ++ Office.first 1 first 3 ++
        Office.first 2 second 5 ++ List.replicate 2 (.run 1))
    t.Ended 1 first (.ok (.message "Password reset successfully")) ∧
      t.Ended 2 second (.ok (.message "Password reset successfully")) ∧
      ¬ RedeemedOnce Office.cfg t := by
  intro first second t
  have hcount : (t.world.history.filter (Redeems 100)).length = 2 := by decide +kernel
  refine ⟨by decide +kernel, by decide +kernel, fun h => ?_⟩
  have hle := (h 100).1
  omega

end TurfSync.Accounts
