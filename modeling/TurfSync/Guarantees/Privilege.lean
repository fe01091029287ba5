import TurfSync.Protocol.Auth

/-! Who can become an administrator. The guards read the role in the database and not the one
in the token, and only requests that have passed them write a role. So the administrators stay
within every set of users that they are in at the start and whose members promote members
only; the admin requests of everybody else do nothing but read. -/

namespace TurfSync.Accounts

open Txn Journal

/-- The user that an admin request comes from. -/
def Call.manager? : Call → Option UserId
  | .toggleUserStatus accessToken _ => some accessToken.sub
  | .makeAdmin accessToken _ => some accessToken.sub
  | .demoteAdmin accessToken _ => some accessToken.sub
  | _ => none

/-- If a member of `G` promotes a user, the user is one. -/
def Call.PromotesWithin (G : UserId → Prop) : Call → Prop
  | .makeAdmin accessToken userId => G accessToken.sub → G userId
  | _ => True

instance (G : UserId → Prop) [DecidablePred G] : DecidablePred (Call.PromotesWithin G)
  | .makeAdmin accessToken userId => inferInstanceAs (Decidable (G accessToken.sub → G userId))
  | .toggleUserStatus _ _ | .demoteAdmin _ _ | .login _ | .refresh _ | .logout _ _ | .logoutAll _
  | .forgotPassword _ | .resetPassword _ _ | .cleanupExpiredTokens => .isTrue trivial

/-- Every administrator is a member of `G`. -/
def Db.AdminsIn (G : UserId → Prop) (db : Db) : Prop := ∀ u ∈ db.users, u.role = .ADMIN → G u.id

/-- Administrators are members of `G`, the admin requests of others have only read, and the
audit log says of nobody else that he has changed a user since `start`. -/
structure Contained (G : UserId → Prop) (start : Db) (t : Sys) : Prop where
  admins : t.world.db.AdminsIn G
  reads : ∀ e ∈ t.world.history, ∀ id ∈ e.session.call.manager?, ¬ G id →
    ∃ q, e.writes = [.seen q]
  audited : ∀ row ∈ t.world.db.auditLogs, row ∈ start.auditLogs ∨ G row.adminId

variable {cfg : Config} {G : UserId → Prop} {db : Db}

/-! ### One statement -/

theorem Db.AdminsIn.of_user? (h : db.AdminsIn G) {id : UserId} {admin : User}
    (hadmin : db.user? id = some admin) (hrole : admin.role = .ADMIN) : G id := by
  obtain ⟨hmem, rfl⟩ := Rows.lookup_some hadmin
  exact h admin hmem hrole

/-- A change that makes no administrators, or one in `G`. -/
theorem adminsIn_userSet {id : UserId} {change : UserChange} (h : db.AdminsIn G)
    (hrole : ∀ u : User, (change.set u).role = .ADMIN → u.role = .ADMIN ∨ G id) :
    (db.apply (.userSet id change)).AdminsIn G := by
  intro u hu hadmin
  obtain ⟨v, hv, rfl⟩ := Rows.mem_update.mp hu
  split_ifs at hadmin ⊢ with hid
  · rw [UserChange.set_id]
    rcases hrole v hadmin with hold | hG
    · exact h v hv hold
    · rwa [List.mem_singleton.mp hid]
  · exact h v hv hadmin

theorem Manages.manager? {call : Call} {adminId : UserId} {user : User} {change : UserChange}
    {row : AuditLog} (h : Manages call adminId user change row) :
    call.manager? = some adminId ∧ row.adminId = adminId := by
  cases h <;> exact ⟨rfl, rfl⟩

theorem Managing.member {c : Session Call} {adminId : UserId} {user : User} {change : UserChange}
    {row : AuditLog} {g s : Entry} (h : Managing c adminId user change row g s)
    (hg : g.before.db.AdminsIn G) : G adminId := by
  obtain ⟨admin, hadmin, hrole⟩ := h.caller
  exact hg.of_user? hadmin hrole

/-- The administrators are the same after a statement, or one more that a member of `G` has
promoted. -/
theorem Acts.adminsIn {past : List Entry} {e : Entry} (h : Acts cfg past e)
    (hpast : ∀ g ∈ past, g.before.db.AdminsIn G) (hdb : e.before.db.AdminsIn G)
    (hcall : e.session.call.PromotesWithin G) :
    Db.AdminsIn G (e.writes.foldl Db.apply e.before.db) := by
  cases h with
  | failedLogin =>
    refine adminsIn_userSet hdb fun u hu => .inl ?_
    rw [← hu]
    unfold UserChange.set
    split <;> simp_all
  | unlocked => exact adminsIn_userSet hdb fun u hu => .inl hu
  | resetRequested => exact adminsIn_userSet hdb fun u hu => .inl hu
  | passwordReset => exact adminsIn_userSet hdb fun u hu => .inl hu
  | @managed c m adminId user change row g s hown managing =>
    have hg : g ∈ past := (mem_own.mp (hown ▸ List.mem_cons_self)).1
    have hmember := managing.member (hpast g hg)
    have hmanages := managing.manages
    have htarget := managing.target
    generalize hc : c.call = call at hmanages
    cases hmanages with
    | toggled => exact adminsIn_userSet hdb fun u hu => .inl hu
    | demoted => exact adminsIn_userSet hdb fun u hu => by cases hu
    | @promoted accessToken userId =>
      have hwithin : G accessToken.sub → G userId := by
        simpa only [hc, Call.PromotesWithin] using hcall
      exact adminsIn_userSet hdb fun u _ => .inr (htarget ▸ hwithin hmember)
  | _ => exact hdb

/-- A statement of an admin request that writes is one of a member of `G`, who is named in
the audit log. -/
theorem Acts.manager {past : List Entry} {e : Entry} (h : Acts cfg past e)
    (hpast : ∀ g ∈ past, g.before.db.AdminsIn G) {id : UserId}
    (hid : id ∈ e.session.call.manager?) : (∃ q, e.writes = [.seen q]) ∨ G id := by
  have hmanaging : ∀ {c : Session Call} {adminId user change row g s rest},
      own c.id past = g :: rest → Managing c adminId user change row g s →
      id ∈ c.call.manager? → G id := by
    intro c adminId user change row g s rest hown managing hmem
    have hg : g ∈ past := (mem_own.mp (hown ▸ List.mem_cons_self)).1
    rw [managing.manages.manager?.1] at hmem
    obtain rfl := Option.some.inj hmem
    exact managing.member (hpast g hg)
  cases h with
  | seen => exact .inl ⟨_, rfl⟩
  | managed hown managing => exact .inr (hmanaging hown managing hid)
  | audited hown managing => exact .inr (hmanaging hown managing hid)
  | failedLogin _ login => simp [login.call, Call.manager?] at hid
  | unlocked _ login => simp [login.call, Call.manager?] at hid
  | @issued _ _ row credential =>
    generalize own _ past = es, row.userId = user at credential
    cases credential with
    | password login => simp [login.call, Call.manager?] at hid
    | token presented => simp [presented.call, Call.manager?] at hid
  | rotated _ presented => simp [presented.call, Call.manager?] at hid
  | expired _ call => simp [call, Call.manager?] at hid
  | reused _ call => simp [call, Call.manager?] at hid
  | loggedOut _ call => simp [call, Call.manager?] at hid
  | loggedOutAll _ call => simp [call, Call.manager?] at hid
  | cleaned call => simp [call, Call.manager?] at hid
  | resetRequested _ call => simp [call, Call.manager?] at hid
  | passwordReset _ call => simp [call, Call.manager?] at hid
  | revoked _ call => simp [call, Call.manager?] at hid

theorem Acts.audits {past : List Entry} {e : Entry} (h : Acts cfg past e)
    (hpast : ∀ g ∈ past, g.before.db.AdminsIn G) {row : AuditLog}
    (hrow : row ∈ (e.writes.foldl Db.apply e.before.db).auditLogs) :
    row ∈ e.before.db.auditLogs ∨ G row.adminId := by
  cases h with
  | @audited c m adminId user change row' g s u hown managing =>
    rcases List.mem_append.mp hrow with hrow | hrow
    · exact .inl hrow
    · rw [List.mem_singleton.mp hrow, managing.manages.manager?.2]
      exact .inr (managing.member (hpast g (mem_own.mp (hown ▸ List.mem_cons_self)).1))
  | _ => exact .inl hrow

/-! ### Runs -/

/-- What is kept by every step: beside the promise, every statement so far has found the
administrators in `G`, and the calls under way keep to it. -/
structure Guarded (cfg : Config) (G : UserId → Prop) (start : Db) (t : Sys) : Prop where
  keeps : t.Keeps cfg
  calls : ∀ u ∈ t.threads, u.session.call.PromotesWithin G
  found : ∀ e ∈ t.world.history, e.before.db.AdminsIn G
  contained : Contained G start t

theorem Guarded.step {start : Db} {t : Sys} (h : Guarded cfg G start t) {a : Act}
    (ha : ∀ c, a = .spawn c → c.PromotesWithin G) :
    Guarded cfg G start ((service cfg).step t a) := by
  have hcalls : ∀ u ∈ ((service cfg).step t a).threads, u.session.call.PromotesWithin G :=
    Service.calls_step (P := Call.PromotesWithin G) h.calls ha
  have hkeeps := h.keeps.step a
  rcases h.keeps.step_cases a with ⟨-, hhistory, hdb⟩ |
    ⟨-, e, -, -, -, hbefore, -, -, hact, hhistory, hdb, th, hth, hsession, -⟩
  · refine ⟨hkeeps, hcalls, by rw [hhistory]; exact h.found, ?_, ?_, ?_⟩
    · rw [hdb]
      exact h.contained.admins
    · rw [hhistory]
      exact h.contained.reads
    · rw [hdb]
      exact h.contained.audited
  · have hcall : e.session.call.PromotesWithin G := by
      rw [← hsession]
      exact h.calls th (List.mem_of_getElem? hth)
    have hfound : e.before.db.AdminsIn G := hbefore ▸ h.contained.admins
    rw [← hbefore] at hdb
    refine ⟨hkeeps, hcalls, fun e' he' => ?_, ?_, fun e' he' id hid hout => ?_, fun row hrow => ?_⟩
    · rw [hhistory] at he'
      rcases List.mem_append.mp he' with he' | he'
      · exact h.found e' he'
      · rwa [List.mem_singleton.mp he']
    · rw [hdb]
      exact hact.adminsIn h.found hfound hcall
    · rw [hhistory] at he'
      rcases List.mem_append.mp he' with he' | he'
      · exact h.contained.reads e' he' id hid hout
      · rw [List.mem_singleton.mp he'] at hid ⊢
        exact (hact.manager h.found hid).resolve_right hout
    · rw [hdb] at hrow
      rcases hact.audits h.found hrow with hrow | hG
      · exact h.contained.audited row (hbefore ▸ hrow)
      · exact .inr hG

/-- In every run from a state whose administrators are in `G`, if the calls of members
promote members only, whatever the others call: in every state the administrators are in
`G`, and nobody else has done anything with an admin request but read. -/
theorem admins_within {s : Sys} {as : List Act} (hs : s.Initial)
    (hadmins : s.world.db.AdminsIn G) (hcalls : ∀ c, .spawn c ∈ as → c.PromotesWithin G) :
    (service cfg).Always (Contained G s.world.db) s as := by
  have hstart : Guarded cfg G s.world.db s := {
    keeps := hs.keeps
    calls := by simp [hs.threads]
    found := by simp [hs.history]
    contained := {
      admins := hadmins
      reads := by simp [hs.history]
      audited := fun row hrow => .inl hrow } }
  exact (Service.always_of_step (fun t a ht ha => ht.step ha) hstart
    (Service.each_spawn hcalls)).mono fun t ht => ht.contained

/-- Eve tries to promote herself and to demote Ana, with a token that calls her an
administrator, while Ana toggles her status. -/
theorem admins_within_office :
    let forged : Jwt := ⟨⟨7, "eve@turf.example", .ADMIN⟩, 99⟩
    (service Office.cfg).Always (Contained (fun id => id = 1 ∨ id = 2) Office.sys.world.db)
      Office.sys (Office.first 0 (.makeAdmin forged 7) 4 ++
        Office.first 1 (.demoteAdmin forged 1) 4 ++
        Office.first 2 (.toggleUserStatus (Office.jwt Office.ana 60) 7) 4) := by
  refine admins_within Office.initial (by unfold Db.AdminsIn; decide) fun c hc => ?_
  simp only [Office.first, List.mem_append, List.mem_cons, List.mem_replicate, Action.spawn.injEq,
    reduceCtorEq, and_false, or_false] at hc
  rcases hc with (rfl | rfl) | rfl
  · decide
  · decide
  · decide

end TurfSync.Accounts
