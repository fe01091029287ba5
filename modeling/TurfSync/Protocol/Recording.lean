import TurfSync.Protocol.Auth
import TurfSync.Protocol.Requests

/-! The audit log of the admin requests. A request changes one field of a user and then
owes an entry, which names the change and the value before it; the request owes it from the
update on until it is inserted. `unaudited` lists the changes of a history whose entry is
still missing. -/

namespace TurfSync.Accounts

open Txn Journal

/-- A field with two values that admin requests change: how a user, a change and an entry
of the audit log show it. -/
structure Field (T : Type) where
  read : User → T
  written : UserChange → Option T
  entry : AuditLog → Option (T × T)
  other : T → T
  set : ∀ change u, read (change.set u) = (written change).getD (read u)
  two : ∀ a b, a ≠ b → a = other b

/-- The value of `isVerified` behind a word of the audit log. -/
def ofVerifiedWord (word : String) : Option Bool :=
  if word = "VERIFIED" then some true else if word = "UNVERIFIED" then some false else none

def statusField : Field Bool where
  read u := u.isVerified
  written
    | .isVerified v => some v
    | _ => none
  entry row := match row.details with
    | .status previous new =>
      if row.action = "USER_STATUS_TOGGLED" then do
        let p ← ofVerifiedWord previous
        let n ← ofVerifiedWord new
        some (p, n)
      else none
    | .role _ _ => none
  other := not
  set change u := by
    cases change with
    | failedLogin n t => cases t <;> rfl
    | _ => rfl
  two := by decide

def roleField : Field Role where
  read u := u.role
  written
    | .role r => some r
    | _ => none
  entry row := match row.details with
    | .role previous new =>
      if row.action = "USER_PROMOTED_TO_ADMIN" ∨ row.action = "ADMIN_DEMOTED_TO_USER" then
        some (previous, new)
      else none
    | .status _ _ => none
  other
    | .USER => .ADMIN
    | .ADMIN => .USER
  set change u := by
    cases change with
    | failedLogin n t => cases t <;> rfl
    | _ => rfl
  two a b h := by cases a <;> cases b <;> first | rfl | exact absurd rfl h

/-- A change that the audit log shows. -/
def UserChange.audited : UserChange → Bool
  | .role _ => true
  | .isVerified _ => true
  | _ => false

/-- The change of an admin request. -/
def changes (e : Entry) : Option (UserId × UserChange) :=
  match e.writes with
  | [.userSet id change] => if change.audited then some (id, change) else none
  | _ => none

/-- The entry is an insertion into the audit log. -/
def Audits (e : Entry) : Prop :=
  match e.writes with
  | [.auditInsert _] => True
  | _ => False

instance : DecidablePred Audits := fun e =>
  decidable_of_iff ((match e.writes with
    | [.auditInsert _] => true
    | _ => false) = true) (by unfold Audits; split <;> simp)

/-- The changes that are not in the audit log, in the order they were made. -/
def unaudited (es : List Entry) : List Entry :=
  es.filter fun e => (changes e).isSome ∧ ∀ k ∈ es, k.session.id = e.session.id → ¬ Audits k

namespace Field

variable {T : Type} [DecidableEq T] (f : Field T)

/-- The entries that show the field, one after the other: each has to start where the one
before it has led. -/
def replay : T → List AuditLog → Option T
  | v, [] => some v
  | v, row :: rows => match f.entry row with
    | some (previous, new) => if previous = v then replay new rows else none
    | none => replay v rows

/-- What an entry of the history writes to the field of a user. -/
def change? (id : UserId) (e : Entry) : Option T := do
  let (id', change) ← changes e
  if id' = id then f.written change else none

/-- The changes of the field of a user that are not in the audit log. -/
def pending (id : UserId) (es : List Entry) : List Entry :=
  (unaudited es).filter fun e => (f.change? id e).isSome

end Field

/-! ### What is not in the audit log yet -/

theorem changes_of_audits {e : Entry} (h : Audits e) : changes e = none := by
  unfold Audits at h
  unfold changes
  split at h
  · rename_i hws
    rw [hws]
  · exact h.elim

theorem unaudited_snoc {es : List Entry} {e : Entry} (hchanges : changes e = none)
    (haudits : ¬ Audits e) : unaudited (es ++ [e]) = unaudited es := by
  have hlast : [e].filter (fun e' => decide ((changes e').isSome ∧
      ∀ k ∈ es ++ [e], k.session.id = e'.session.id → ¬ Audits k)) = [] := by simp [hchanges]
  rw [unaudited, List.filter_append, hlast, List.append_nil]
  refine List.filter_congr fun e' _ => decide_eq_decide.mpr (and_congr_right fun _ => ?_)
  simp only [List.mem_append, List.mem_singleton]
  constructor
  · exact fun h k hk => h k (.inl hk)
  · rintro h k (hk | rfl)
    · exact h k hk
    · exact fun _ => haudits

/-- A change by a session that has put nothing into the audit log. -/
theorem unaudited_change {es : List Entry} {e : Entry} (hchanges : (changes e).isSome)
    (hfirst : ∀ k ∈ es, k.session.id = e.session.id → ¬ Audits k) :
    unaudited (es ++ [e]) = unaudited es ++ [e] := by
  have haudits : ¬ Audits e := fun h => by simp [changes_of_audits h] at hchanges
  have hall : ∀ n, (∀ k ∈ es ++ [e], k.session.id = n → ¬ Audits k) ↔
      ∀ k ∈ es, k.session.id = n → ¬ Audits k := by
    intro n
    simp only [List.mem_append, List.mem_singleton]
    constructor
    · exact fun h k hk => h k (.inl hk)
    · rintro h k (hk | rfl)
      · exact h k hk
      · exact fun _ => haudits
  simp only [unaudited, hall, List.filter_append]
  congr 1
  simpa [hchanges] using hfirst

/-- An entry in the audit log. -/
theorem unaudited_audit {es : List Entry} {e : Entry} (haudits : Audits e) :
    unaudited (es ++ [e]) = (unaudited es).filter fun e' => e'.session.id ≠ e.session.id := by
  have hlast : [e].filter (fun e' => decide ((changes e').isSome ∧
      ∀ k ∈ es ++ [e], k.session.id = e'.session.id → ¬ Audits k)) = [] := by
    simp [changes_of_audits haudits]
  rw [unaudited, List.filter_append, hlast, List.append_nil, unaudited, List.filter_filter]
  refine List.filter_congr fun e' _ => ?_
  rw [← Bool.decide_and]
  refine decide_eq_decide.mpr ?_
  simp only [List.mem_append, List.mem_singleton]
  constructor
  · rintro ⟨hsome, h⟩
    exact ⟨fun hid => h e (.inr rfl) hid.symm haudits, hsome, fun k hk => h k (.inl hk)⟩
  · rintro ⟨hid, hsome, h⟩
    refine ⟨hsome, ?_⟩
    rintro k (hk | rfl)
    · exact h k hk
    · exact fun he => absurd he.symm hid

/-! ### Requests owe their entry -/

/-- Where a request is: it has made no change, it owes the entry of the change it has made,
or it is over. -/
inductive Stage where
  | fresh
  | due (id : UserId) (change : UserChange)
  | over

/-- The users that a request has found, and where it is. -/
structure Duty where
  seen : List UserId
  stage : Stage

/-- The row is the entry of the change of a user. -/
structure Records (id : UserId) (change : UserChange) (row : AuditLog) : Prop where
  target : row.targetId = id
  status : statusField.entry row = (statusField.written change).map fun n => (statusField.other n, n)
  role : roleField.entry row = (roleField.written change).map fun n => (roleField.other n, n)

/-- A change that the audit log shows is followed by its entry, made in the name of a user
that the request has found. -/
def recording : Automaton Stmt Stmt.Reply Err Duty where
  init := ⟨[], .fresh⟩
  may g
    | .stmt (.update (.auditLogCreate row)) =>
      ∃ id change, g.stage = .due id change ∧ Records id change row ∧ row.adminId ∈ g.seen
    | .stmt _ => g.stage = .fresh
    | _ => False
  answers
    | .stmt (.update (.userUpdate _ change)), .ok updated => ∃ u, updated = change.set u
    | _, _ => True
  next g
    | .stmt (.query (.userById _)), .ok (some u) => { g with seen := u.id :: g.seen }
    | .stmt (.update (.userUpdate id change)), .ok _ =>
      if change.audited then { g with stage := .due id change } else g
    | .stmt (.update (.auditLogCreate _)), _ => { g with stage := .over }
    | _, _ => g

/-- No entry is owed in the end. -/
abbrev Records.Keeps (g : Duty) (p : Op Reply) : Prop :=
  p.Obeys recording g fun g _ => ∀ id change, g.stage ≠ .due id change

theorem recording_plain : recording.Plain := by
  intro g m hm
  cases m with
  | stmt s => exact ⟨s, rfl⟩
  | _ => exact hm.elim

theorem recording_answered (cfg : Config) : recording.Answered (engine cfg) where
  fault m := by
    cases m with
    | stmt s =>
      cases s with
      | update u => cases u <;> trivial
      | _ => trivial
    | _ => trivial
  exec l w m := by
    have hupdate : ∀ (v : World) id change updated, ((Update.userUpdate id change).plan v.db w.uuid).1 =
        .ok updated → ∃ u, updated = change.set u := by
      intro v id change updated h
      simp only [Update.plan] at h
      split at h
      · exact ⟨_, (Except.ok.inj h).symm⟩
      · cases h
    cases m with
    | stmt s =>
      refine Engine.exec_reply (fun view => ?_) l
      cases s with
      | update u =>
        cases u with
        | userUpdate id change =>
          cases hr : ((engine cfg).act (.update (.userUpdate id change)) view w).reply with
          | error e => trivial
          | ok updated => exact hupdate view id change updated hr
        | _ => trivial
      | _ => trivial
    | _ => trivial

theorem keeps_unaudited {p : Op Reply} {g : Duty} (hp : Only Stmt.unaudited p)
    (hg : g.stage = .fresh) : Records.Keeps g p := by
  refine Script.obeys_mono (Script.obeys_of_uses (J := fun g => g.stage = .fresh) ?_ hp hg) ?_
  · rintro g _ ⟨s, rfl, hs⟩ hg
    cases s with
    | query q =>
      refine ⟨hg, fun r => ?_⟩
      cases q with
      | userById id =>
        cases r with
        | ok found => cases found <;> exact hg
        | error e => exact hg
      | _ => cases r <;> exact hg
    | external x => exact ⟨hg, fun r => by cases r <;> exact hg⟩
    | update u =>
      cases u with
      | userUpdate id change =>
        refine ⟨hg, fun r => ?_⟩
        have hchange : change.audited = false := by
          cases change with
          | role r => cases hs
          | isVerified v => cases hs
          | _ => rfl
        cases r with
        | ok u => simp only [recording, hchange, Bool.false_eq_true, if_false, hg]
        | error e => exact hg
      | auditLogCreate row => cases hs
      | _ => exact ⟨hg, fun r => by cases r <;> exact hg⟩
  · rintro g r ⟨hg, -⟩ id change hdue
    rw [hg] at hdue
    cases hdue

/-- The body of an admin request. -/
theorem manage_keeps {g : Duty} {userId : UserId} {change : UserChange} {f : User → AuditLog}
    {r : User → Reply} (hg : g.stage = .fresh) (hchange : change.audited = true)
    (hrow : ∀ u, Records userId change (f (change.set u)))
    (hadmin : ∀ u, (f u).adminId ∈ g.seen) :
    Records.Keeps g ((update (.userUpdate userId change)).bind fun updated =>
      (AdminService.createAuditLog (f updated)).bind fun _ => .ret (r updated)) := by
  have hnext : ∀ updated, recording.next g (.stmt (.update (.userUpdate userId change)))
      (.ok updated) = { g with stage := .due userId change } := by
    intro updated
    simp only [recording, hchange, if_true]
  refine Script.obeys_stmt hg (fun updated hu => ?_) fun e id change' hdue => ?_
  · obtain ⟨u, rfl⟩ := hu
    rw [hnext]
    exact Script.obeys_stmt ⟨userId, change, rfl, hrow u, hadmin _⟩
      (fun _ _ _ _ h => (nomatch h)) fun _ _ _ h => (nomatch h)
  · rw [show recording.next g _ (.error e) = g from rfl, hg] at hdue
    cases hdue

theorem Duty.undue {g : Duty} (hg : g.stage = .fresh) : ∀ id change, g.stage ≠ .due id change := by
  intro id change hdue
  rw [hg] at hdue
  cases hdue

/-- The guards of an admin route, and the check that callers do not manage themselves. -/
theorem adminRoute_keeps {accessToken : Jwt} {service : UserId → Op Reply}
    (h : ∀ adminId, Records.Keeps ⟨[adminId], .fresh⟩ (service adminId)) :
    Records.Keeps ⟨[], .fresh⟩ (adminRoute accessToken service) := by
  rw [adminRoute, Prog.bind_eq, JwtStrategy.validate, Prog.bind_eq, Prog.bind_assoc]
  refine Script.obeys_stmt rfl (fun found _ => ?_) fun _ => Duty.undue rfl
  cases found with
  | none => exact Duty.undue rfl
  | some user =>
    show Records.Keeps ⟨[user.id], .fresh⟩
      ((RolesGuard.canActivate user).bind fun _ => service user.id)
    rw [RolesGuard.canActivate]
    split_ifs
    · exact h user.id
    · exact Duty.undue rfl

/-- The user an admin request is about. -/
theorem userById_keeps {g : Duty} {userId : UserId} {f : User → Op Reply} (hg : g.stage = .fresh)
    (h : ∀ user, Records.Keeps { g with seen := user.id :: g.seen } (f user)) :
    Records.Keeps g ((query (.userById userId)).bind fun found : Option User => match found with
      | none => .throw (AdminService.userNotFound userId)
      | some user => f user) := by
  refine Script.obeys_stmt hg (fun found _ => ?_) fun _ => Duty.undue hg
  cases found with
  | none => exact Duty.undue hg
  | some user => exact h user

theorem toggleUserStatus_keeps (userId adminId : UserId) :
    Records.Keeps ⟨[adminId], .fresh⟩ (AdminService.toggleUserStatus userId adminId) := by
  rw [AdminService.toggleUserStatus]
  split_ifs
  · exact Duty.undue rfl
  refine userById_keeps rfl fun user => ?_
  refine manage_keeps rfl rfl (fun u => ⟨rfl, ?_, rfl⟩) fun _ => by simp
  show statusField.entry ⟨_, _, _, _, .status (AdminService.verifiedWord user.isVerified)
    (AdminService.verifiedWord (!user.isVerified))⟩ = some (!(!user.isVerified), !user.isVerified)
  cases user.isVerified <;> rfl

theorem makeAdmin_keeps (userId adminId : UserId) :
    Records.Keeps ⟨[adminId], .fresh⟩ (AdminService.makeAdmin userId adminId) := by
  rw [AdminService.makeAdmin]
  split_ifs
  · exact Duty.undue rfl
  refine userById_keeps rfl fun user => ?_
  split_ifs with hrole
  · exact Duty.undue rfl
  refine manage_keeps rfl rfl (fun u => ⟨rfl, rfl, ?_⟩) fun _ => by simp
  show some (user.role, Role.ADMIN) = some (roleField.other .ADMIN, Role.ADMIN)
  rw [roleField.two _ _ hrole]

theorem demoteAdmin_keeps (userId adminId : UserId) :
    Records.Keeps ⟨[adminId], .fresh⟩ (AdminService.demoteAdmin userId adminId) := by
  rw [AdminService.demoteAdmin]
  split_ifs
  · exact Duty.undue rfl
  refine userById_keeps rfl fun user => ?_
  split_ifs
  · exact Duty.undue rfl
  · exact manage_keeps rfl rfl (fun u => ⟨rfl, rfl, rfl⟩) fun _ => by simp

theorem body_keeps (cfg : Config) (c : Call) : Records.Keeps recording.init (c.body cfg) := by
  by_cases hc : c.Managing
  · cases c with
    | toggleUserStatus accessToken userId =>
      exact adminRoute_keeps fun adminId => toggleUserStatus_keeps userId adminId
    | makeAdmin accessToken userId =>
      exact adminRoute_keeps fun adminId => makeAdmin_keeps userId adminId
    | demoteAdmin accessToken userId =>
      exact adminRoute_keeps fun adminId => demoteAdmin_keeps userId adminId
    | _ => exact hc.elim
  · by_cases hforgot : ∃ email, c = .forgotPassword email
    · obtain ⟨email, rfl⟩ := hforgot
      exact keeps_unaudited (forgotPassword_unaudited email) rfl
    · have hordinary := Call.body_ordinary cfg hc fun email he => hforgot ⟨email, he⟩
      refine keeps_unaudited (Script.uses_mono hordinary ?_) rfl
      rintro _ ⟨s, rfl, hs⟩
      exact ⟨s, rfl, (Bool.and_eq_true_iff.mp hs).2⟩

/-- A request that owes no entry stays where it is with every other statement. -/
theorem next_unaudited {s : Stmt} (hs : s.unaudited = true) (d : Duty)
    (r : Except Err s.Reply) : (recording.next d (.stmt s) r).stage = d.stage := by
  cases s with
  | query q =>
    cases q with
    | userById id =>
      cases r with
      | ok found => cases found <;> rfl
      | error e => rfl
    | _ => cases r <;> rfl
  | external x => cases r <;> rfl
  | update u =>
    cases u with
    | userUpdate id change =>
      have hchange : change.audited = false := by
        cases change with
        | role r => cases hs
        | isVerified v => cases hs
        | _ => rfl
      cases r with
      | ok u => simp only [recording, hchange, Bool.false_eq_true, if_false]
      | error e => rfl
    | auditLogCreate row => cases hs
    | _ => cases r <;> rfl

/-- The users that a request has found are in the table. -/
theorem next_seen {cfg : Config} {w : World} {s : Stmt} {d : Duty} {l : Local Empty Write}
    (hl : l.tx = none) (hd : ∀ id ∈ d.seen, (w.db.user? id).isSome) :
    ∀ id ∈ (recording.next d (.stmt s) ((engine cfg).exec l w (.stmt s)).reply).seen,
      (w.db.user? id).isSome := by
  rw [Engine.exec_auto hl]
  cases s with
  | query q =>
    cases q with
    | userById id =>
      show ∀ id' ∈ (recording.next d (.stmt (.query (.userById id))) (.ok (w.db.user? id))).seen, _
      cases hu : w.db.user? id with
      | none => exact hd
      | some u =>
        intro id' hid'
        rcases List.mem_cons.mp hid' with rfl | hid'
        · rw [(Rows.lookup_some hu).2, hu]
          rfl
        · exact hd id' hid'
    | _ => exact hd
  | external x => exact hd
  | update u =>
    cases u with
    | userUpdate id change =>
      cases ((engine cfg).act (.update (.userUpdate id change)) w w).reply with
      | ok u =>
        simp only [recording]
        split_ifs <;> exact hd
      | error e => exact hd
    | auditLogCreate row =>
      cases ((engine cfg).act (.update (.auditLogCreate row)) w w).reply <;> exact hd
    | _ =>
      generalize ((engine cfg).act _ w w).reply = r
      cases r <;> exact hd

/-- What an unaudited statement writes is no change and no entry of the audit log. -/
theorem Stmt.Issues.unaudited {s : Stmt} (hs : s.unaudited = true) {x : Write} (hx : s.Issues x)
    (c : Session Call) (m : Moment) (db : Db) :
    changes ⟨c, [x], m⟩ = none ∧ ¬ Audits ⟨c, [x], m⟩ ∧ (db.apply x).auditLogs = db.auditLogs ∧
      ∀ id, ∀ u' ∈ (db.apply x).user? id, ∃ u ∈ db.user? id,
        u.isVerified = u'.isVerified ∧ u.role = u'.role := by
  have hsame : ∀ {db' : Db}, db'.users = db.users → ∀ id, ∀ u' ∈ db'.user? id,
      ∃ u ∈ db.user? id, u.isVerified = u'.isVerified ∧ u.role = u'.role := by
    intro db' hdb id u' hu'
    refine ⟨u', ?_, rfl, rfl⟩
    rwa [Db.user?, hdb] at hu'
  cases s with
  | query q =>
    obtain rfl := hx
    exact ⟨rfl, fun h => h, rfl, hsame rfl⟩
  | external y => exact hx.elim
  | update u =>
    cases u with
    | userUpdate id change =>
      obtain rfl := hx
      have hchange : change.audited = false := by
        cases change with
        | role r => cases hs
        | isVerified v => cases hs
        | _ => rfl
      refine ⟨?_, fun h => h, rfl, fun id' u' hu' => ?_⟩
      · simp [changes, hchange]
      · rw [user?_userSet] at hu'
        split_ifs at hu'
        · obtain ⟨u, hu, rfl⟩ := Option.map_eq_some_iff.mp hu'
          refine ⟨u, hu, ?_⟩
          cases change with
          | failedLogin n t => cases t <;> exact ⟨rfl, rfl⟩
          | role r => cases hchange
          | isVerified v => cases hchange
          | _ => exact ⟨rfl, rfl⟩
        · exact ⟨u', hu', rfl, rfl⟩
    | tokenCreate payload expiresAt =>
      obtain ⟨row, rfl⟩ := hx
      exact ⟨rfl, fun h => h, rfl, hsame rfl⟩
    | auditLogCreate row => cases hs
    | _ =>
      obtain rfl := hx
      exact ⟨rfl, fun h => h, rfl, hsame rfl⟩

end TurfSync.Accounts
