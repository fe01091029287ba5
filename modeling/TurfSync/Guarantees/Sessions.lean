import Mathlib.Data.List.Dedup
import TurfSync.Guarantees.Revocation
import TurfSync.Protocol.Sessions

/-! The sessions of a user, that is, the refresh tokens that are stored for him. A refresh
gives one for one, so only logins add to their number; and a session ends by its own token, by
its user, or by its date, and by nobody else. -/

namespace TurfSync.Accounts

open Txn Journal

variable {cfg : Config} {userId : UserId}

def Db.sessions (db : Db) (userId : UserId) : List RefreshToken :=
  db.refreshTokens.filter (·.userId = userId)

/-- A login that has found the password of the user right. -/
def LetsIn (cfg : Config) (userId : UserId) (e : Entry) : Prop :=
  match e.session.call, e.writes with
  | .login dto, [.seen (.userByEmail _)] => PassesLogin cfg userId dto e
  | _, _ => False

instance : DecidablePred (LetsIn cfg userId) := fun e =>
  decidable_of_iff ((match e.session.call, e.writes with
    | .login dto, [.seen (.userByEmail _)] => decide (PassesLogin cfg userId dto e)
    | _, _ => false) = true) (by unfold LetsIn; split <;> simp)

/-- The calls that have done so. -/
def logins (cfg : Config) (userId : UserId) (es : List Entry) : List ℕ :=
  ((es.filter (LetsIn cfg userId ·)).map (·.session.id)).dedup

/-! ### One for one -/

/-- The entry of an insertion of a token of the user. -/
def Opens (userId : UserId) (e : Entry) : Prop := match e.writes with
  | [.tokenInsert row] => row.userId = userId
  | _ => False

instance : DecidablePred (Opens userId) := fun e =>
  decidable_of_iff ((match e.writes with
    | [.tokenInsert row] => decide (row.userId = userId)
    | _ => false) = true) (by unfold Opens; split <;> simp)

/-- The entry of a deletion of a token of the user by its id. -/
def Spends (userId : UserId) (e : Entry) : Prop := match e.writes with
  | [.tokenDelete (.row id)] => ∃ r ∈ e.before.db.refreshTokens, r.id = id ∧ r.userId = userId
  | _ => False

instance : DecidablePred (Spends userId) := fun e =>
  decidable_of_iff ((match e.writes with
    | [.tokenDelete (.row id)] =>
      decide (∃ r ∈ e.before.db.refreshTokens, r.id = id ∧ r.userId = userId)
    | _ => false) = true) (by unfold Spends; split <;> simp)

theorem Opens.writes {e : Entry} (h : Opens userId e) :
    ∃ row, e.writes = [.tokenInsert row] ∧ row.userId = userId := by
  unfold Opens at h
  split at h
  · exact ⟨_, by assumption, h⟩
  · exact h.elim

theorem sessions_tokenDelete (db : Db) (scope : Scope) :
    ((db.apply (.tokenDelete scope)).sessions userId).length ≤ (db.sessions userId).length :=
  (List.filter_sublist.filter _).length_le

/-- A deletion by its id takes a session away. -/
theorem sessions_spend {db : Db} {id : ℕ}
    (h : ∃ r ∈ db.refreshTokens, r.id = id ∧ r.userId = userId) :
    ((db.apply (.tokenDelete (.row id))).sessions userId).length < (db.sessions userId).length := by
  obtain ⟨r, hr, hid, huser⟩ := h
  have hcomm : (db.apply (.tokenDelete (.row id))).sessions userId =
      (db.sessions userId).filter fun r => ¬ (Scope.row id).Covers r := by
    simp only [Db.sessions, Db.apply, List.filter_filter, Bool.and_comm]
  rw [hcomm]
  refine List.length_filter_lt_length_iff_exists.mpr ⟨r, ?_, ?_⟩
  · exact List.mem_filter.mpr ⟨hr, by simpa using huser⟩
  · simp [Scope.Covers, hid]

section

variable {p : Entry → Prop} [DecidablePred p] {e : Entry}

theorem count_one (h : p e) : ([e].filter (p ·)).length = 1 := by simp [h]

theorem count_none (h : ¬ p e) : ([e].filter (p ·)).length = 0 := by simp [h]

end

/-- What a statement does to the number of sessions. -/
theorem Acts.sessions {past : List Entry} {e : Entry} (h : Acts cfg past e) :
    (Db.sessions (e.writes.foldl Db.apply e.before.db) userId).length +
        ([e].filter (Spends userId ·)).length ≤
      (e.before.db.sessions userId).length + ([e].filter (Opens userId ·)).length := by
  -- a deletion by an id, and another
  have hrow : ∀ {c : Session Call} {m : Moment} {id : ℕ},
      ((m.db.apply (.tokenDelete (.row id))).sessions userId).length +
          ([⟨c, [.tokenDelete (.row id)], m⟩].filter (Spends userId ·)).length ≤
        (m.db.sessions userId).length := by
    intro c m id
    by_cases hspends : Spends userId ⟨c, [.tokenDelete (.row id)], m⟩
    · have hlt := sessions_spend hspends
      rw [count_one hspends]
      exact hlt
    · rw [count_none hspends]
      exact sessions_tokenDelete m.db _
  have hbulk : ∀ {c : Session Call} {m : Moment} {scope : Scope}, (∀ id, scope ≠ .row id) →
      ((m.db.apply (.tokenDelete scope)).sessions userId).length +
          ([⟨c, [.tokenDelete scope], m⟩].filter (Spends userId ·)).length ≤
        (m.db.sessions userId).length := by
    intro c m scope hscope
    rw [count_none]
    · exact sessions_tokenDelete m.db scope
    · cases scope with
      | row id => exact absurd rfl (hscope id)
      | _ => exact fun h => h
  cases h with
  | @issued c m row =>
    rw [count_none (fun h => h)]
    show ((m.db.refreshTokens ++ [row]).filter _).length ≤ _
    rw [List.filter_append, List.length_append]
    by_cases huser : row.userId = userId
    · have hopens : Opens userId ⟨c, [.tokenInsert row], m⟩ := huser
      rw [count_one hopens]
      exact Nat.add_le_add_left (List.length_filter_le _ _) _
    · simp [huser, Db.sessions]
  | rotated => exact Nat.le_add_right_of_le hrow
  | expired => exact Nat.le_add_right_of_le hrow
  | reused => exact Nat.le_add_right_of_le (hbulk (by simp))
  | loggedOut => exact Nat.le_add_right_of_le (hbulk (by simp))
  | loggedOutAll => exact Nat.le_add_right_of_le (hbulk (by simp))
  | cleaned => exact Nat.le_add_right_of_le (hbulk (by simp))
  | revoked => exact Nat.le_add_right_of_le (hbulk (by simp))
  | _ =>
    refine Nat.add_le_add (Nat.le_refl _) ?_
    exact Nat.le_trans (Nat.le_of_eq (count_none fun h => h)) (Nat.zero_le _)

/-- Behind an insertion stands a login that was let in, or a token that was spent. -/
theorem inserted_for {w : World} (hw : w.Recorded) (hf : Follows (Acts cfg) w.history) {e : Entry}
    (hact : Acts cfg w.history e) (hopens : Opens userId e) :
    ∃ k ∈ w.history, (LetsIn cfg userId k ∨ Spends userId k) ∧ k.session.id = e.session.id := by
  obtain ⟨row, hwrites, rfl⟩ := hopens.writes
  obtain ⟨hcred, -⟩ := hact.of_insert hwrites
  generalize hown : own e.session.id w.history = es, row.userId = user at hcred
  have hmem : ∀ k ∈ es, k ∈ w.history ∧ k.session.id = e.session.id := fun k hk =>
    mem_own.mp (hown ▸ hk)
  cases hcred with
  | @password dto user k rest login =>
    obtain ⟨hk, hid⟩ := hmem k (by simp)
    refine ⟨k, hk, .inl ?_, hid⟩
    have hcall : k.session.call = .login dto := by rw [login.session, login.call]
    unfold LetsIn
    rw [hcall, login.looked]
    exact ⟨user, login.found, rfl, login.verified⟩
  | @token token stored v f d s presented deleted session =>
    obtain ⟨hd, hid⟩ := hmem d (by simp)
    refine ⟨d, hd, .inr ?_, hid⟩
    obtain ⟨-, -, -, -, hstored⟩ := deletes_presented hw hf hown presented deleted
    unfold Spends
    rw [deleted]
    exact ⟨stored, hstored, rfl, rfl⟩

/-- An insertion of a user's token is the first one of its session. -/
theorem opens_first {past : List Entry} {e : Entry} (hact : Acts cfg past e)
    (horderly : Orderly past e) (hopens : Opens userId e) :
    ∀ k ∈ past, Opens userId k → k.session.id ≠ e.session.id := by
  obtain ⟨row, hwrites, -⟩ := hopens.writes
  have honce : Once past e := by
    obtain ⟨hcred, -⟩ := hact.of_insert hwrites
    generalize own e.session.id past = es, row.userId = user at hcred
    cases hcred with
    | password login =>
      simp only [Orderly, login.call] at horderly
      exact horderly
    | token presented =>
      simp only [Orderly, presented.call] at horderly
      exact horderly.1
  intro k hk hkopens hid
  obtain ⟨row', hwrites', -⟩ := hkopens.writes
  exact honce row hwrites k (mem_own.mpr ⟨hk, hid⟩) row' hwrites'

/-- What is kept of the sessions of a user by every step. -/
structure Balanced (cfg : Config) (userId : UserId) (start : Db) (t : Sys) : Prop where
  keeps : t.Keeps cfg
  orderly : Follows Orderly t.world.history
  balance : (t.world.db.sessions userId).length +
      (t.world.history.filter (Spends userId ·)).length ≤
    (start.sessions userId).length + (t.world.history.filter (Opens userId ·)).length
  once : ((t.world.history.filter (Opens userId ·)).map (·.session.id)).Nodup
  causes : ∀ e ∈ t.world.history, Opens userId e → ∃ k ∈ t.world.history,
    (LetsIn cfg userId k ∨ Spends userId k) ∧ k.session.id = e.session.id

theorem Balanced.step {start : Db} {t : Sys} (h : Balanced cfg userId start t) {a : Act}
    (ha : Follows Orderly ((service cfg).step t a).world.history) :
    Balanced cfg userId start ((service cfg).step t a) := by
  have hkeeps := h.keeps.step a
  rcases h.keeps.step_cases a with ⟨-, hhistory, hdb⟩ |
    ⟨-, e, -, -, -, hbefore, -, -, hact, hhistory, hdb, -⟩
  · refine ⟨hkeeps, ha, ?_, ?_, ?_⟩
    · rw [hdb, hhistory]
      exact h.balance
    · rw [hhistory]
      exact h.once
    · rw [hhistory]
      exact h.causes
  · obtain ⟨hw, hf⟩ := h.keeps.inv
    have horderly : Orderly t.world.history e := ha.post hhistory
    refine ⟨hkeeps, ha, ?_, ?_, fun k hk hopens => ?_⟩
    · have hstep := @Acts.sessions cfg userId _ _ hact
      have hbalance := h.balance
      rw [hdb, ← hbefore, hhistory, List.filter_append, List.filter_append, List.length_append,
        List.length_append]
      rw [← hbefore] at hbalance
      omega
    · rw [hhistory, List.filter_append, List.map_append]
      by_cases hopens : Opens userId e
      · have hfirst := opens_first hact horderly hopens
        simp only [List.filter_cons, hopens, decide_true, if_true, List.filter_nil, List.map_cons,
          List.map_nil]
        refine List.nodup_append.mpr ⟨h.once, List.nodup_singleton _, fun i hi j hj => ?_⟩
        obtain ⟨k, hk, rfl⟩ := List.mem_map.mp hi
        obtain ⟨hk, hkopens⟩ := List.mem_filter.mp hk
        rw [List.mem_singleton.mp hj]
        exact hfirst k hk (of_decide_eq_true hkopens)
      · simpa [hopens] using h.once
    · rw [hhistory] at hk ⊢
      rcases List.mem_append.mp hk with hk | hk
      · obtain ⟨k', hk', hcause⟩ := h.causes k hk hopens
        exact ⟨k', List.mem_append_left _ hk', hcause⟩
      · obtain rfl := List.mem_singleton.mp hk
        obtain ⟨k', hk', hcause⟩ := inserted_for hw hf hact hopens
        exact ⟨k', List.mem_append_left _ hk', hcause⟩

/-- A token is inserted for each that is spent, but for one for each login. -/
theorem Balanced.bound {start : Db} {t : Sys} (h : Balanced cfg userId start t) :
    (t.world.db.sessions userId).length ≤
      (start.sessions userId).length + (logins cfg userId t.world.history).length := by
  have hle : (t.world.history.filter (Opens userId ·)).length ≤
      (logins cfg userId t.world.history ++
        (t.world.history.filter (Spends userId ·)).map (·.session.id)).length := by
    refine Rows.length_le id h.once fun e he => ?_
    obtain ⟨he, hopens⟩ := List.mem_filter.mp he
    obtain ⟨k, hk, hcause, hid⟩ := h.causes e he (of_decide_eq_true hopens)
    refine ⟨k.session.id, List.mem_append.mpr ?_, hid⟩
    rcases hcause with hlets | hspends
    · refine .inl (List.mem_dedup.mpr (List.mem_map.mpr ⟨k, ?_, rfl⟩))
      exact List.mem_filter.mpr ⟨hk, decide_eq_true hlets⟩
    · refine .inr (List.mem_map.mpr ⟨k, ?_, rfl⟩)
      exact List.mem_filter.mpr ⟨hk, decide_eq_true hspends⟩
  have hbalance := h.balance
  rw [List.length_append, List.length_map] at hle
  omega

/-- In every state of every run a user has at most as many sessions as at the start and one
for each login call that has found his password right. -/
theorem sessions_bounded {s : Sys} {as : List Act} (hs : s.Initial) :
    (service cfg).Always (fun t => ∀ userId, (t.world.db.sessions userId).length ≤
      (s.world.db.sessions userId).length + (logins cfg userId t.world.history).length) s as := by
  have hbalanced : ∀ userId, (service cfg).Always (Balanced cfg userId s.world.db) s as := by
    intro userId
    have hstart : Balanced cfg userId s.world.db s :=
      ⟨hs.keeps, by rw [hs.history]; exact .nil, by simp [hs.history], by simp [hs.history],
        by simp [hs.history]⟩
    exact Service.always_of_step (fun t a ht ha => ht.step ha) hstart
      ((@Sys.Initial.orderly cfg s as hs).steps.mono fun t a h => h.2)
  rw [Service.always_iff]
  exact fun pre suf he userId => (Service.always_iff.mp (hbalanced userId) pre suf he).bound

/-- Eve logs in, exchanges the token of her first session, and logs in again. -/
theorem sessions_bounded_office :
    let login : Call := .login ⟨Office.eve.email, "eve-secret"⟩
    let refresh : Call := .refresh (Office.jwt Office.eve 51)
    let as := Office.first 0 login 4 ++ Office.first 1 refresh 8 ++ Office.first 2 login 4
    (((service Office.cfg).run Office.sys as).world.db.sessions 7).length = 3 ∧
      (service Office.cfg).Always (fun t => ∀ userId, (t.world.db.sessions userId).length ≤
        (Office.sys.world.db.sessions userId).length +
          (logins Office.cfg userId t.world.history).length) Office.sys as :=
  ⟨by decide +kernel, sessions_bounded Office.initial⟩

/-! ### Whoever ends a session -/

/-- The calls that are made to end the session of `r`, or with its token, or with another
token in the name of its user. -/
def Call.Ends (r : RefreshToken) : Call → Prop
  | .refresh token => token.sub = r.userId ∨ r.token = ⟨token⟩
  | .logout accessToken token => accessToken.sub = r.userId ∧ ∃ t ∈ token, r.token = ⟨t⟩
  | .logoutAll accessToken => accessToken.sub = r.userId
  | _ => False

instance (r : RefreshToken) : DecidablePred (Call.Ends r)
  | .refresh token => inferInstanceAs (Decidable (token.sub = r.userId ∨ r.token = ⟨token⟩))
  | .logout accessToken token =>
    inferInstanceAs (Decidable (accessToken.sub = r.userId ∧ ∃ t ∈ token, r.token = ⟨t⟩))
  | .logoutAll accessToken => inferInstanceAs (Decidable (accessToken.sub = r.userId))
  | .login _ | .forgotPassword _ | .resetPassword _ _ | .cleanupExpiredTokens
  | .toggleUserStatus _ _ | .makeAdmin _ _ | .demoteAdmin _ _ => .isFalse fun h => h

/-- The reset token that a call presents. -/
def Call.resetToken? : Call → Option ℕ
  | .resetPassword token _ => some token
  | _ => none

/-- The reset token is not the one of the user. -/
def Db.NotReset (db : Db) (userId : UserId) (token : ℕ) : Prop :=
  ∀ u ∈ db.users, u.id = userId → u.passwordResetToken ≠ some token

instance (db : Db) (userId : UserId) : DecidablePred (db.NotReset userId) := fun token =>
  inferInstanceAs (Decidable (∀ u ∈ db.users, u.id = userId → u.passwordResetToken ≠ some token))

/-- The session has not expired, and no call has presented the reset token of its user. -/
def Undisturbed (r : RefreshToken) (t : Sys) : Prop :=
  t.world.now ≤ r.expiresAt ∧
    ∀ th ∈ t.threads, ∀ token ∈ th.session.call.resetToken?, t.world.db.NotReset r.userId token

instance (r : RefreshToken) (t : Sys) : Decidable (Undisturbed r t) :=
  inferInstanceAs (Decidable (t.world.now ≤ r.expiresAt ∧ ∀ th ∈ t.threads, _))

variable {r : RefreshToken}

theorem Acts.deletes {past : List Entry} {e : Entry} (h : Acts cfg past e)
    (hr : r ∈ e.before.db.refreshTokens)
    (hgone : r ∉ (e.writes.foldl Db.apply e.before.db).refreshTokens) :
    ∃ scope, e.writes = [.tokenDelete scope] ∧ scope.Covers r := by
  have hscope : ∀ (scope : Scope), r ∉ (e.before.db.apply (.tokenDelete scope)).refreshTokens →
      scope.Covers r := by
    intro scope h
    by_contra hcovers
    exact h (List.mem_filter.mpr ⟨hr, by simpa using hcovers⟩)
  cases h with
  | issued => exact absurd (List.mem_append_left _ hr) hgone
  | rotated => exact ⟨_, rfl, hscope _ hgone⟩
  | expired => exact ⟨_, rfl, hscope _ hgone⟩
  | reused => exact ⟨_, rfl, hscope _ hgone⟩
  | loggedOut => exact ⟨_, rfl, hscope _ hgone⟩
  | loggedOutAll => exact ⟨_, rfl, hscope _ hgone⟩
  | cleaned => exact ⟨_, rfl, hscope _ hgone⟩
  | revoked => exact ⟨_, rfl, hscope _ hgone⟩
  | _ => exact absurd hr hgone

/-- What every statement so far has found. -/
structure Found (r : RefreshToken) (e : Entry) : Prop where
  there : r ∈ e.before.db.refreshTokens
  ids : (e.before.db.refreshTokens.map (·.id)).Nodup
  unreset : ∀ token ∈ e.session.call.resetToken?, e.before.db.NotReset r.userId token

/-- A statement of another call leaves the session where it is. -/
theorem Acts.spares {past : List Entry} {e : Entry} (h : Acts cfg past e)
    (horderly : Orderly past e) (hpast : ∀ k ∈ past, Found r k)
    (hsame : ∀ k ∈ past, k.session.id = e.session.id → k.session = e.session)
    (hr : r ∈ e.before.db.refreshTokens) (hcall : ¬ e.session.call.Ends r)
    (hlive : e.before.now ≤ r.expiresAt) :
    r ∈ (e.writes.foldl Db.apply e.before.db).refreshTokens := by
  by_contra hgone
  obtain ⟨scope, hscope, hcovers⟩ := h.deletes hr hgone
  -- the row of the token that a refresh presents
  have hrow : ∀ {c : Session Call} {m : Moment} {token : Jwt} {id : ℕ},
      Orderly past ⟨c, [.tokenDelete (.row id)], m⟩ → c.call = .refresh token →
      ¬ c.call.Ends r → r.id ≠ id := by
    rintro c m token _ horderly call hcall rfl
    simp only [Orderly, call] at horderly
    obtain ⟨k, hk, stored, hstored, hid, htoken⟩ := horderly.2 r.id rfl
    have hfound := hpast k hk
    obtain rfl := Rows.eq_of_key hfound.ids hstored hfound.there hid
    rw [call] at hcall
    exact hcall (.inr htoken)
  cases h with
  | rotated _ presented =>
    obtain rfl := Write.tokenDelete.inj (List.head_eq_of_cons_eq hscope)
    exact hrow horderly presented.call hcall hcovers
  | expired _ call =>
    obtain rfl := Write.tokenDelete.inj (List.head_eq_of_cons_eq hscope)
    exact hrow horderly call hcall hcovers
  | reused _ call =>
    obtain rfl := Write.tokenDelete.inj (List.head_eq_of_cons_eq hscope)
    rw [call] at hcall
    exact hcall (.inl hcovers.symm)
  | loggedOut _ call =>
    obtain rfl := Write.tokenDelete.inj (List.head_eq_of_cons_eq hscope)
    rw [call] at hcall
    exact hcall ⟨hcovers.1.symm, _, rfl, hcovers.2⟩
  | loggedOutAll _ call =>
    obtain rfl := Write.tokenDelete.inj (List.head_eq_of_cons_eq hscope)
    rw [call] at hcall
    exact hcall hcovers.symm
  | @cleaned c m t call =>
    obtain rfl := Write.tokenDelete.inj (List.head_eq_of_cons_eq hscope)
    simp only [Orderly, call] at horderly
    have hle := horderly t rfl
    exact absurd (Int.lt_of_lt_of_le hcovers (Int.le_trans hle hlive)) (Int.lt_irrefl _)
  | @revoked c m token newPassword hash user k s hown call found =>
    obtain rfl := Write.tokenDelete.inj (List.head_eq_of_cons_eq hscope)
    obtain ⟨hk, hid⟩ := mem_own.mp (hown ▸ List.mem_cons_self : k ∈ own c.id past)
    have hcallk : k.session.call = .resetPassword token newPassword := by
      rw [hsame k hk hid]
      exact call
    exact (hpast k hk).unreset token (by rw [hcallk]; rfl) user found.1 hcovers.symm found.2
  | _ => cases hscope

/-- What every step keeps of a session that nobody ends. -/
structure Lasting (cfg : Config) (r : RefreshToken) (t : Sys) : Prop where
  keeps : t.Keeps cfg
  orderly : Follows Orderly t.world.history
  calls : ∀ th ∈ t.threads, ¬ th.session.call.Ends r
  sessions : ∀ e ∈ t.world.history, ∃ th, t.threads[e.session.id]? = some th ∧
    th.session = e.session
  found : ∀ e ∈ t.world.history, Found r e
  there : r ∈ t.world.db.refreshTokens

theorem Lasting.step {t : Sys} (h : Lasting cfg r t) {a : Act}
    (hcall : ∀ c, a = .spawn c → ¬ c.Ends r) (ht : Undisturbed r t)
    (ht' : Undisturbed r ((service cfg).step t a))
    (ha : Follows Orderly ((service cfg).step t a).world.history) :
    Lasting cfg r ((service cfg).step t a) := by
  have hkeeps := h.keeps.step a
  have hcalls : ∀ th ∈ ((service cfg).step t a).threads, ¬ th.session.call.Ends r :=
    Service.calls_step (P := fun c => ¬ Call.Ends r c) h.calls hcall
  have hstays : ∀ e : Entry, (∃ th, t.threads[e.session.id]? = some th ∧ th.session = e.session) →
      ∃ th, ((service cfg).step t a).threads[e.session.id]? = some th ∧
        th.session = e.session := by
    rintro e ⟨th, hth, hsession⟩
    obtain ⟨u, hu, hus⟩ : ∃ u, ((service cfg).step t a).threads[e.session.id]? = some u ∧
        u.session = th.session := Service.thread_stays hth a
    exact ⟨u, hu, hus.trans hsession⟩
  rcases h.keeps.step_cases a with ⟨-, hhistory, hdb⟩ |
    ⟨-, e, -, -, -, hbefore, -, -, hact, hhistory, hdb, th, hth, hsession, -⟩
  · refine ⟨hkeeps, ha, hcalls, ?_, ?_, ?_⟩
    · rw [hhistory]
      exact fun e he => hstays e (h.sessions e he)
    · rw [hhistory]
      exact h.found
    · rw [hdb]
      exact h.there
  · have hmem : th ∈ t.threads := List.mem_of_getElem? hth
    have hnow : e.before.now ≤ r.expiresAt := by
      obtain ⟨hw, -⟩ := hkeeps.inv
      exact Int.le_trans (hw.times e (by rw [hhistory]; simp)) ht'.1
    have hfound : Found r e := {
      there := hbefore ▸ h.there
      ids := hbefore ▸ h.keeps.inv.1.valid.tokenIds
      unreset := by
        rw [hbefore, ← hsession]
        exact ht.2 th hmem }
    have hsame : ∀ k ∈ t.world.history, k.session.id = e.session.id → k.session = e.session := by
      intro k hk hid
      obtain ⟨u, hu, hus⟩ := h.sessions k hk
      rw [hid, hth] at hu
      rw [← hus, ← Option.some.inj hu, hsession]
    refine ⟨hkeeps, ha, hcalls, fun k hk => ?_, fun k hk => ?_, ?_⟩
    · rw [hhistory] at hk
      rcases List.mem_append.mp hk with hk | hk
      · exact hstays k (h.sessions k hk)
      · rw [List.mem_singleton.mp hk]
        exact hstays e ⟨th, hth, hsession⟩
    · rw [hhistory] at hk
      rcases List.mem_append.mp hk with hk | hk
      · exact h.found k hk
      · rwa [List.mem_singleton.mp hk]
    · rw [hdb, ← hbefore]
      exact hact.spares (ha.post hhistory) h.found hsame hfound.there
        (hsession ▸ h.calls th hmem) hnow

/-- In every run in which no call is made to end a session, with its token or with another
one in the name of its user, and nobody presents the reset token of its user, the session is
there until it expires: whatever the other calls are. -/
theorem session_kept {s : Sys} {as : List Act} (hs : s.Initial)
    (hr : r ∈ s.world.db.refreshTokens) (hcalls : ∀ c, .spawn c ∈ as → ¬ c.Ends r)
    (hlive : (service cfg).Always (Undisturbed r) s as) :
    (service cfg).Always (fun t => r ∈ t.world.db.refreshTokens) s as := by
  have hstart : Lasting cfg r s :=
    ⟨hs.keeps, by rw [hs.history]; exact .nil, by simp [hs.threads], by simp [hs.history],
      by simp [hs.history], hr⟩
  have hM := Service.each_and (Service.each_spawn hcalls) (hlive.and (@Sys.Initial.orderly cfg s as hs)).steps
  refine (Service.always_of_step (fun t a ht ha => ?_) hstart hM).mono fun t ht => ht.there
  exact ht.step ha.1 ha.2.1.1 ha.2.2.1 ha.2.2.2

/-- Ben logs in and out again, the clean-up runs, and Ana toggles Eve's status. -/
theorem session_kept_office :
    let as := Office.first 0 (.login ⟨Office.ben.email, "ben-secret"⟩) 4 ++
      Office.first 1 (.logoutAll (Office.jwt Office.ben 60)) 2 ++
      Office.first 2 .cleanupExpiredTokens 2 ++
      Office.first 3 (.toggleUserStatus (Office.jwt Office.ana 61) 7) 4
    (service Office.cfg).Always
      (fun t => ⟨50, ⟨Office.jwt Office.eve 51⟩, 7, 604800000⟩ ∈ t.world.db.refreshTokens)
      Office.sys as := by
  refine session_kept Office.initial (by decide) (fun c hc => ?_) (by decide +kernel)
  simp only [Office.first, List.mem_append, List.mem_cons, List.mem_replicate, Action.spawn.injEq,
    reduceCtorEq, and_false, or_false] at hc
  rcases hc with ((rfl | rfl) | rfl) | rfl
  · decide
  · decide
  · decide
  · decide

end TurfSync.Accounts
