import TurfSync.Protocol.Auth
import TurfSync.Protocol.Requests

/-! What the requests on refresh tokens do beside `Acts`: a request inserts one token, a refresh
deletes by its id only the row of the token that it presents, and the clean-up deletes only
what has expired. -/

namespace TurfSync.Accounts

open Txn Journal

/-- No token has been inserted. -/
def Unopened (es : List Entry) : Prop := ∀ k ∈ es, ∀ row, k.writes ≠ [.tokenInsert row]

/-- One of the entries has found the row with this id, and it is the row of the token. -/
def Seen (token : Jwt) (id : ℕ) (es : List Entry) : Prop :=
  ∃ k ∈ es, ∃ stored ∈ k.before.db.refreshTokens, stored.id = id ∧ stored.token = ⟨token⟩

/-- An insertion is the first one of its session. -/
def Once (past : List Entry) (e : Entry) : Prop :=
  ∀ row, e.writes = [.tokenInsert row] → Unopened (own e.session.id past)

/-- What a login, a refresh and a clean-up keep to. -/
def Orderly (past : List Entry) (e : Entry) : Prop :=
  match e.session.call with
  | .login _ => Once past e
  | .refresh token => Once past e ∧ ∀ id, e.writes = [.tokenDelete (.row id)] → Seen token id past
  | .cleanupExpiredTokens => ∀ t, e.writes = [.tokenDelete (.expired t)] → t ≤ e.before.now
  | _ => True

/-- A statement that inserts no token, and deletes none by its id or because it has expired. -/
def Stmt.lenient : Stmt → Bool
  | .update (.tokenCreate _ _) => false
  | .update (.tokenDelete _) => false
  | .update (.tokenDeleteMany (.row _)) => false
  | .update (.tokenDeleteMany (.expired _)) => false
  | _ => true

abbrev orderlyRules : Rules Stmt Empty Write World Call :=
  Journal.rules World.history World.moment (fun w w' => w.now ≤ w'.now) (fun _ => True) Orderly

/-- A program that keeps to it; of its outcome nothing is said. -/
abbrev Tidy {α : Type} (cfg : Config) (c : Session Call) (es : List Entry) (p : Op α) : Prop :=
  Journal.Holds (engine cfg) World.history orderlyRules c es p fun _ _ _ => True

theorem orderly_lawful (cfg : Config) : orderlyRules.Lawful (engine cfg) :=
  Journal.rules_lawful (kept cfg) (fun _ _ _ _ => trivial) fun _ _ _ _ _ _ => trivial

section

variable {cfg : Config} {c : Session Call} {es : List Entry} {α β : Type}

theorem tidy_ret {a : α} : Tidy cfg c es (.ret a) := holds_ret fun _ _ _ => trivial

theorem tidy_throw {e : Err} : Tidy cfg c es (.throw e : Op α) := holds_throw fun _ _ _ => trivial

theorem Unopened.snoc (h : Unopened es) {x : Write} (hx : ∀ row, x ≠ .tokenInsert row)
    (m : Moment) : Unopened (es ++ [⟨c, [x], m⟩]) := by
  intro k hk row hws
  rcases List.mem_append.mp hk with hk | hk
  · exact h k hk row hws
  · rw [List.mem_singleton.mp hk] at hws
    exact hx row (List.head_eq_of_cons_eq hws)

theorem Seen.append {token : Jwt} {id : ℕ} (h : Seen token id es) (es' : List Entry) :
    Seen token id (es ++ es') := by
  obtain ⟨k, hk, hstored⟩ := h
  exact ⟨k, List.mem_append_left _ hk, hstored⟩

theorem Stmt.Issues.lenient {s : Stmt} (hs : s.lenient = true) {x : Write} (hx : s.Issues x) :
    (∀ row, x ≠ .tokenInsert row) ∧ (∀ id, x ≠ .tokenDelete (.row id)) ∧
      ∀ t, x ≠ .tokenDelete (.expired t) := by
  cases s with
  | query q =>
    obtain rfl := hx
    simp
  | external y => exact hx.elim
  | update u =>
    cases u with
    | tokenCreate payload expiresAt => cases hs
    | tokenDelete id => cases hs
    | tokenDeleteMany scope =>
      obtain rfl := hx
      cases scope with
      | row id => cases hs
      | expired t => cases hs
      | _ => simp
    | _ =>
      obtain rfl := hx
      simp

/-- Whoever makes it, such an entry is in order. -/
theorem orderly_of_lenient {past : List Entry} {x : Write} {m : Moment}
    (hinsert : ∀ row, x ≠ .tokenInsert row) (hrow : ∀ id, x ≠ .tokenDelete (.row id))
    (hexpired : ∀ t, x ≠ .tokenDelete (.expired t)) : Orderly past ⟨c, [x], m⟩ := by
  have honce : Once past ⟨c, [x], m⟩ := fun row hws =>
    absurd (List.head_eq_of_cons_eq hws) (hinsert row)
  unfold Orderly
  split
  · exact honce
  · exact ⟨honce, fun id hws => absurd (List.head_eq_of_cons_eq hws) (hrow id)⟩
  · exact fun t hws => absurd (List.head_eq_of_cons_eq hws) (hexpired t)
  · trivial

/-- Lenient statements come at any time. -/
theorem tidy_lenient {J : List Entry → Prop} {p : Op α} {f : α → Op β}
    (hp : Only Stmt.lenient p)
    (hJ : ∀ es x m, J es → (∀ row, x ≠ .tokenInsert row) → J (es ++ [⟨c, [x], m⟩])) (hes : J es)
    (h : ∀ es a, J es → Tidy cfg c es (f a)) : Tidy cfg c es (p.bind f) := by
  refine holds_uses_bind (kept cfg) (orderly_lawful cfg) hp ?_ h (fun _ _ _ => tidy_throw) hes
  intro s w hs _ hown hws
  rcases act_writes cfg s w w with hnil | ⟨x, hx, hissues⟩
  · exact absurd hnil hws
  · obtain ⟨hinsert, hrow, hexpired⟩ := hissues.lenient hs
    rw [hx]
    exact ⟨orderly_of_lenient hinsert hrow hexpired, hJ _ _ _ hown hinsert⟩

/-- Where nothing has been inserted, lenient statements insert nothing. -/
theorem tidy_unopened {p : Op α} {f : α → Op β} (hp : Only Stmt.lenient p) (hes : Unopened es)
    (h : ∀ es a, Unopened es → Tidy cfg c es (f a)) : Tidy cfg c es (p.bind f) :=
  tidy_lenient hp (fun _ _ m h hx => h.snoc hx m) hes h

/-- The end of a login or a refresh: its insertion. -/
theorem generateTokens_tidy {payload : JwtPayload} {f : TokenPair → Reply}
    (call : (∃ dto, c.call = .login dto) ∨ ∃ token, c.call = .refresh token)
    (hes : Unopened es) :
    Tidy cfg c es ((AuthService.generateTokens cfg payload).bind fun tokens => .ret (f tokens)) := by
  rw [AuthService.generateTokens, Prog.bind_eq, Prog.bind_assoc]
  refine tidy_unopened (only_perform rfl) hes fun es now hes => ?_
  have horderly : ∀ past row m, own c.id past = es → Orderly past ⟨c, [.tokenInsert row], m⟩ := by
    intro past row m hown
    have honce : Once past ⟨c, [.tokenInsert row], m⟩ := fun _ _ => hown ▸ hes
    rcases call with ⟨dto, call⟩ | ⟨token, call⟩
    · simp only [Orderly, call]
      exact honce
    · simp only [Orderly, call]
      exact ⟨honce, by simp⟩
  refine holds_stmt (kept cfg) (orderly_lawful cfg) (fun w _ hown => ?_) tidy_throw
  simp only [engine, Stmt.act, Update.plan]
  split_ifs
  · exact ⟨fun _ => tidy_throw, fun hw => absurd rfl hw⟩
  · exact ⟨fun _ => tidy_throw, fun hw => absurd rfl hw⟩
  · exact ⟨fun hw => hw.elim, fun _ => ⟨horderly _ _ _ hown, tidy_ret⟩⟩

theorem checkLockout_lenient (user : User) : Only Stmt.lenient (AuthService.checkLockout user) := by
  rw [AuthService.checkLockout]
  cases user.lockoutUntil with
  | none => trivial
  | some t =>
    refine only_stmt rfl fun now => ?_
    split_ifs
    · exact only_stmt rfl fun _ => trivial
    · trivial

theorem login_tidy {dto : LoginDto} (call : c.call = .login dto) :
    Tidy cfg c [] (AuthService.login cfg dto) := by
  have hnone : Unopened [] := fun k hk => by cases hk
  rw [AuthService.login, Prog.bind_eq]
  refine tidy_unopened (only_perform rfl) hnone fun es found hes => ?_
  cases found with
  | none => exact tidy_throw
  | some user =>
    refine tidy_unopened (checkLockout_lenient user) hes fun es _ hes => ?_
    split_ifs
    · rw [AuthService.failLogin]
      split_ifs
      · refine tidy_unopened (only_perform rfl) hes fun es now hes => ?_
        exact tidy_unopened (only_perform rfl) hes fun es _ _ => tidy_throw
      · exact tidy_unopened (only_perform rfl) hes fun es _ _ => tidy_throw
    · rw [AuthService.passLogin]
      split_ifs
      · refine tidy_unopened (only_perform rfl) hes fun es _ hes => ?_
        exact generateTokens_tidy (.inl ⟨dto, call⟩) hes
      · exact generateTokens_tidy (.inl ⟨dto, call⟩) hes

/-- The deletion of the row that has been found for the token. -/
theorem tokenDelete_tidy {token : Jwt} {id : ℕ} {f : Unit → Op α}
    (call : c.call = .refresh token) (hseen : Seen token id es) (hes : Unopened es)
    (h : ∀ es, Unopened es → Tidy cfg c es (f ())) :
    Tidy cfg c es ((update (.tokenDelete id)).bind f) := by
  refine holds_stmt (kept cfg) (orderly_lawful cfg) (fun w _ hown => ?_) tidy_throw
  simp only [engine, Stmt.act, Update.plan]
  split_ifs
  · refine ⟨fun hw => hw.elim, fun _ => ⟨?_, h _ (hes.snoc (by simp) _)⟩⟩
    obtain ⟨k, hk, hstored⟩ := hseen
    rw [← hown] at hk
    simp only [Orderly, call]
    refine ⟨fun row hws => by simp at hws, fun id' hws => ?_⟩
    obtain rfl : id = id' := by simpa using hws
    exact ⟨k, (mem_own.mp hk).1, hstored⟩
  · exact ⟨fun _ => tidy_throw, fun hw => absurd rfl hw⟩

theorem tidy_query {q : Query} {f : q.Reply → Op α}
    (h : ∀ m, Tidy cfg c (es ++ [⟨c, [.seen q], m⟩]) (f (q.eval m.db))) :
    Tidy cfg c es ((query q).bind f) :=
  holds_stmt (kept cfg) (orderly_lawful cfg)
    (fun w _ _ => ⟨fun hw => (List.cons_ne_nil _ _ hw).elim, fun _ =>
      ⟨orderly_of_lenient (by simp) (by simp) (by simp), h w.moment⟩⟩) tidy_throw

theorem seen_snoc {token : Jwt} {stored : RefreshToken} {m : Moment} {ws : List Write}
    (hmem : stored ∈ m.db.refreshTokens) (htoken : stored.token = ⟨token⟩) :
    Seen token stored.id (es ++ [⟨c, ws, m⟩]) :=
  ⟨_, List.mem_append_right _ (List.mem_singleton.mpr rfl), stored, hmem, rfl, htoken⟩

theorem refreshTokens_tidy {token : Jwt} {userId : UserId} (call : c.call = .refresh token)
    (hes : Unopened es) : Tidy cfg c es (AuthService.refreshTokens cfg userId token) := by
  rw [AuthService.refreshTokens, Prog.bind_eq]
  refine tidy_query fun m => ?_
  simp only [Query.eval]
  cases hstored : m.db.refreshTokens.find? fun r => r.token = ⟨token⟩ ∧ r.userId = userId with
  | none => exact tidy_throw
  | some stored =>
    have hboth : stored.token = ⟨token⟩ ∧ stored.userId = userId := by
      simpa using List.find?_some hstored
    have hseen := @seen_snoc c es _ _ m [.seen (.tokenFindFirst ⟨token⟩ userId)]
      (List.mem_of_find?_eq_some hstored) hboth.1
    refine tokenDelete_tidy call hseen (hes.snoc (by simp) m) fun es hes => ?_
    refine tidy_unopened (only_perform rfl) hes fun es found hes => ?_
    cases found with
    | none => exact tidy_throw
    | some user => exact generateTokens_tidy (.inr ⟨token, call⟩) hes

theorem tokenFindUnique_some {db : Db} {token : TokenHash} {row : RefreshToken} {user : User}
    (h : Query.eval db (.tokenFindUnique token) = some (row, user)) :
    row ∈ db.refreshTokens ∧ row.token = token := by
  obtain ⟨stored, hstored, hrest⟩ := Option.bind_eq_some_iff.mp h
  obtain ⟨u, -, heq⟩ := Option.bind_eq_some_iff.mp hrest
  obtain ⟨rfl, rfl⟩ := Prod.mk.inj (Option.some.inj heq)
  exact Rows.lookup_some hstored

theorem refresh_tidy {token : Jwt} (call : c.call = .refresh token) :
    Tidy cfg c [] (AuthController.refresh cfg token) := by
  have hnone : Unopened [] := fun k hk => by cases hk
  rw [AuthController.refresh, JwtRefreshStrategy.validate, Prog.bind_eq, Prog.bind_eq,
    Prog.bind_assoc]
  refine tidy_query fun m => ?_
  have hes : Unopened ([] ++ [⟨c, [.seen (.tokenFindUnique ⟨token⟩)], m⟩]) :=
    hnone.snoc (by simp) m
  cases hfound : Query.eval m.db (.tokenFindUnique ⟨token⟩) with
  | none =>
    simp only [Prog.bind_eq, Prog.bind_assoc]
    exact tidy_unopened (only_perform rfl) hes fun es _ _ => tidy_throw
  | some found =>
    obtain ⟨stored, user⟩ := found
    obtain ⟨hmem, htoken⟩ := tokenFindUnique_some hfound
    have hseen := @seen_snoc c [] _ _ m [.seen (.tokenFindUnique ⟨token⟩)] hmem htoken
    simp only [Prog.bind_eq, Prog.bind_assoc]
    -- the clock is read, then the row may have expired
    refine tidy_lenient (J := fun es => Unopened es ∧ Seen token stored.id es) (only_perform rfl)
      (fun es x m h hx => ⟨h.1.snoc hx m, h.2.append _⟩) ⟨hes, hseen⟩ fun es now h => ?_
    split_ifs
    · rw [Prog.bind_assoc]
      exact tokenDelete_tidy call h.2 h.1 fun es _ => tidy_throw
    · exact refreshTokens_tidy call h.1

/-- The limit of the clean-up is an instant that is past. -/
theorem cleanupExpiredTokens_tidy (call : c.call = .cleanupExpiredTokens) :
    Tidy cfg c es AuthService.cleanupExpiredTokens := by
  intro w _ _
  rw [AuthService.cleanupExpiredTokens, Prog.bind_eq]
  refine wp_stmt_auto (fun w₁ _ _ _ => ⟨fun _ => ?_, fun hw => absurd rfl hw⟩)
    fun w₁ _ _ _ => wp_throw fun _ _ => trivial
  refine wp_stmt_auto (fun w₂ hrely _ _ => ⟨fun hw => (List.cons_ne_nil _ _ hw).elim,
    fun _ => ⟨?_, fun _ _ _ => trivial⟩⟩) fun w₂ _ _ _ => wp_throw fun _ _ => trivial
  show Orderly _ ⟨c, [.tokenDelete (.expired w₁.now)], _⟩
  simp only [Orderly, call]
  intro t ht
  obtain rfl : w₁.now = t := by simpa using ht
  exact hrely.2

end

/-- The requests issue statements, and no transactions. -/
theorem Call.body_stmts (cfg : Config) (c : Call) : Only (fun _ => true) (c.body cfg) := by
  have hmono : ∀ {φ : Stmt → Bool}, Only φ (c.body cfg) → Only (fun _ => true) (c.body cfg) := by
    intro φ h
    refine Script.uses_mono h ?_
    rintro m ⟨s, rfl, -⟩
    exact ⟨s, rfl, rfl⟩
  by_cases hc : c.Managing
  · exact hmono (Call.body_tokenless cfg hc)
  · by_cases hforgot : ∃ email, c = .forgotPassword email
    · obtain ⟨email, rfl⟩ := hforgot
      exact hmono (forgotPassword_unaudited email)
    · exact hmono (Call.body_ordinary cfg hc fun email he => hforgot ⟨email, he⟩)

/-- Every request keeps to it. -/
theorem body_tidy {cfg : Config} (c : Session Call) : Tidy cfg c [] (c.call.body cfg) := by
  have hfree : (∀ past ws m, Orderly past ⟨c, ws, m⟩) → Tidy cfg c [] (c.call.body cfg) := by
    intro horderly
    rw [← Prog.bind_ret (c.call.body cfg)]
    exact holds_uses_bind (J := fun _ => True) (kept cfg) (orderly_lawful cfg)
      (c.call.body_stmts cfg) (fun s w _ _ _ _ => ⟨horderly _ _ _, trivial⟩)
      (fun _ _ _ => tidy_ret) (fun _ _ _ => tidy_throw) trivial
  cases hcall : c.call with
  | login dto => exact login_tidy hcall
  | refresh token => exact refresh_tidy hcall
  | cleanupExpiredTokens => exact cleanupExpiredTokens_tidy hcall
  | _ =>
    rw [← hcall]
    refine hfree fun past ws m => ?_
    simp only [Orderly, hcall]

theorem sessions_lawful (cfg : Config) : Lawful (service cfg) World.history World.moment
    (fun w w' => w.now ≤ w'.now) (fun _ => True) Orderly fun _ _ _ _ => True where
  kept := kept cfg
  act _ _ _ _ := trivial
  commit _ _ _ _ _ _ := trivial
  evolve _ _ _ := trivial
  moves _ _ := ⟨rfl, Int.le_add_of_nonneg_right (Int.natCast_nonneg _)⟩
  body := body_tidy

/-- Every run from an initial state is in order. -/
theorem Sys.Initial.orderly {cfg : Config} {s : Sys} {as : List Act} (h : s.Initial) :
    (service cfg).Always (fun t => Follows Orderly t.world.history) s as :=
  ((sessions_lawful cfg).always h.threads h.history trivial).mono fun _ ht => ht.inv.2

end TurfSync.Accounts
