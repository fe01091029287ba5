import TurfSync.Services.Profile

/-! Whether a phone number belongs to one account. A phone is unique as it is written, and
a number has three spellings; `formatNumber` makes one of them. Two users share a number
exactly if one has stored a second spelling while the other had the first. -/

namespace TurfSync.Profiles

open Txn Accounts

/-! ### Spellings -/

/-- The three spellings of the number of a subscriber. -/
def spellings (digits : List Char) : List String :=
  [.ofList ('+' :: '8' :: '8' :: '0' :: '1' :: digits), .ofList ('8' :: '8' :: '0' :: '1' :: digits),
    .ofList ('0' :: '1' :: digits)]

theorem Subscriber.isDigit {digits : List Char} (h : Subscriber digits) :
    ∀ c ∈ digits, c.isDigit := by
  cases digits with
  | nil => exact h.elim
  | cons d ds =>
    obtain ⟨hle, hge, -, hds⟩ := h
    intro c hc
    rcases List.mem_cons.mp hc with rfl | hc
    · have hzero : '0' ≤ c := Char.le_trans (show '0' ≤ '3' by decide) hle
      simp only [Char.isDigit, Bool.and_eq_true, decide_eq_true_eq]
      exact ⟨hzero, hge⟩
    · exact hds c hc

/-- An accepted phone is one of the three spellings of a subscriber. -/
theorem accepted_iff {phone : String} :
    Accepted phone ↔ ∃ digits, Subscriber digits ∧ phone ∈ spellings digits := by
  constructor
  · intro h
    refine ⟨subscriber phone.toList, h, ?_⟩
    have hphone : phone = String.ofList phone.toList := String.ofList_toList.symm
    rw [hphone]
    unfold Accepted at h
    simp only [String.toList_ofList] at h ⊢
    generalize phone.toList = chars at h ⊢
    unfold subscriber at h ⊢
    split at h <;> simp_all [spellings, Subscriber]
  · rintro ⟨digits, hdigits, hphone⟩
    simp only [spellings, List.mem_cons, List.not_mem_nil, or_false] at hphone
    rcases hphone with rfl | rfl | rfl <;>
      simpa only [Accepted, String.toList_ofList, subscriber] using hdigits

/-- The three spellings are formatted as one. -/
theorem formatNumber_spelling {digits : List Char} (h : Subscriber digits) {phone : String}
    (hphone : phone ∈ spellings digits) :
    formatNumber phone = .ofList ('+' :: '8' :: '8' :: '0' :: '1' :: digits) := by
  have hfilter : digits.filter Char.isDigit = digits := List.filter_eq_self.mpr h.isDigit
  simp only [spellings, List.mem_cons, List.not_mem_nil, or_false] at hphone
  rcases hphone with rfl | rfl | rfl <;>
    simp [formatNumber, hfilter, Char.isDigit]

/-! ### Accounts -/

/-- No two different users have phones that are formatted as one number. -/
def OnePhone (db : Accounts.Db) : Prop :=
  ∀ u ∈ db.users, ∀ u' ∈ db.users, formatNumber u.phone = formatNumber u'.phone → u.id = u'.id

instance : DecidablePred OnePhone := fun db => inferInstanceAs (Decidable (∀ u ∈ db.users,
  ∀ u' ∈ db.users, formatNumber u.phone = formatNumber u'.phone → u.id = u'.id))

/-- Two spellings of one number. -/
def Respells (phone phone' : String) : Prop :=
  phone ≠ phone' ∧ subscriber phone.toList = subscriber phone'.toList

instance (phone phone' : String) : Decidable (Respells phone phone') :=
  inferInstanceAs (Decidable (phone ≠ phone' ∧
    subscriber phone.toList = subscriber phone'.toList))

/-- The user a write is about and the phone it stores. -/
def Write.stores? : Write → Option (UserId × Phone)
  | .userInsert id data => some (id, data.phone)
  | .profileSet id _ phone => some (id, phone)
  | .tokenInsert _ => none

/-- If the step stores a phone for a user, no other user has another spelling of it. -/
def SpellsNew (cfg : Accounts.Config) (t : Sys) (a : Act) : Prop :=
  ∀ cm ∈ (service cfg).committed t a, ∀ x ∈ cm.writes, ∀ p ∈ x.stores?,
    ∀ u ∈ t.world.db.users, u.id ≠ p.1 → ¬ Respells u.phone p.2.text

instance (cfg : Accounts.Config) (t : Sys) (a : Act) : Decidable (SpellsNew cfg t a) :=
  inferInstanceAs (Decidable (∀ cm ∈ (service cfg).committed t a, ∀ x ∈ cm.writes,
    ∀ p ∈ x.stores?, ∀ u ∈ t.world.db.users, u.id ≠ p.1 → ¬ Respells u.phone p.2.text))

theorem subscriber_spelling {digits : List Char} {phone : String}
    (hphone : phone ∈ spellings digits) : subscriber phone.toList = digits := by
  simp only [spellings, List.mem_cons, List.not_mem_nil, or_false] at hphone
  rcases hphone with rfl | rfl | rfl <;> simp [subscriber]

/-- Accepted phones are formatted as one exactly if they are spellings of one number. -/
theorem formatNumber_eq_iff {phone phone' : String} (h : Accepted phone) (h' : Accepted phone') :
    formatNumber phone = formatNumber phone' ↔
      subscriber phone.toList = subscriber phone'.toList := by
  obtain ⟨digits, hdigits, hphone⟩ := accepted_iff.mp h
  obtain ⟨digits', hdigits', hphone'⟩ := accepted_iff.mp h'
  rw [formatNumber_spelling hdigits hphone, formatNumber_spelling hdigits' hphone',
    subscriber_spelling hphone, subscriber_spelling hphone', String.ofList_inj]
  simp

/-- What a write that stores a phone does: the user has it then and nobody else had it,
and the others keep theirs. -/
structure Stored (db db' : Accounts.Db) (id : UserId) (phone : Phone) : Prop where
  self : ∃ u ∈ db'.users, u.id = id ∧ u.phone = phone.text
  others : ∀ u ∈ db.users, u.id ≠ id → u ∈ db'.users
  free : ∀ u ∈ db.users, u.id ≠ id → u.phone ≠ phone.text
  users : ∀ u ∈ db'.users, u.id = id ∧ u.phone = phone.text ∨ u ∈ db.users

theorem Stored.insert {db : Accounts.Db} {id : UserId} {data : NewUser}
    (hfree : ∀ u ∈ db.users, u.phone ≠ data.phone.text) :
    Stored db (apply db (.userInsert id data)) id data.phone where
  self := ⟨data.row id, by simp [apply], rfl, rfl⟩
  others u hu _ := List.mem_append_left _ hu
  free u hu _ := hfree u hu
  users u hu := by
    rcases List.mem_append.mp hu with hu | hu
    · exact .inr hu
    · obtain rfl := List.mem_singleton.mp hu
      exact .inl ⟨rfl, rfl⟩

theorem Stored.profile {db : Accounts.Db} {id : UserId} {name : String} {phone : Phone} {u : User}
    (hu : db.user? id = some u) (hfree : ∀ u ∈ db.users, u.id ≠ id → u.phone ≠ phone.text) :
    Stored db (apply db (.profileSet id name phone)) id phone where
  self := by
    obtain ⟨hmem, hid⟩ := Rows.lookup_some hu
    refine ⟨_, Rows.mem_update.mpr ⟨u, hmem, rfl⟩, ?_⟩
    rw [if_pos (List.mem_singleton.mpr hid)]
    exact ⟨hid, rfl⟩
  others v hv hne := Rows.mem_update.mpr
    ⟨v, hv, (if_neg (fun h => hne (List.mem_singleton.mp h))).symm⟩
  free := hfree
  users v hv := by
    obtain ⟨v', hv', rfl⟩ := Rows.mem_update.mp hv
    split_ifs with hid
    · exact .inl ⟨List.mem_singleton.mp hid, rfl⟩
    · exact .inr hv'

/-- A statement stores a phone, or leaves the users as they are. -/
theorem act_stores (cfg : Accounts.Config) (s : Stmt) (w : World) :
    ((engine cfg).act s w w).world.db = w.db ∧
    ((∃ x p, ((engine cfg).act s w w).writes = [x] ∧ x.stores? = some p ∧
      Stored w.db (apply w.db x) p.1 p.2) ∨
    (∀ x ∈ ((engine cfg).act s w w).writes, x.stores? = none) ∧
      (((engine cfg).act s w w).writes.foldl apply w.db).users = w.db.users) := by
  simp only [engine]
  cases s with
  | userCreate d =>
    simp only [Stmt.act]
    split_ifs with hemail hphone
    · exact ⟨rfl, .inr ⟨by simp, rfl⟩⟩
    · exact ⟨rfl, .inr ⟨by simp, rfl⟩⟩
    · exact ⟨rfl, .inl ⟨_, _, rfl, rfl, .insert fun u hu he => hphone ⟨u, hu, he⟩⟩⟩
  | userUpdate id name phone =>
    simp only [Stmt.act]
    split
    · exact ⟨rfl, .inr ⟨by simp, rfl⟩⟩
    · rename_i u hu
      split_ifs with hphone
      · exact ⟨rfl, .inr ⟨by simp, rfl⟩⟩
      · exact ⟨rfl, .inl ⟨_, _, rfl, rfl, .profile hu fun v hv hne he => hphone ⟨v, hv, hne, he⟩⟩⟩
  | tokenCreate payload expiresAt =>
    simp only [Stmt.act]
    split_ifs
    · exact ⟨rfl, .inr ⟨by simp, rfl⟩⟩
    · exact ⟨rfl, .inr ⟨by simp, rfl⟩⟩
    · exact ⟨rfl, .inr ⟨by simp [Write.stores?], rfl⟩⟩
  | _ => exact ⟨rfl, .inr ⟨by simp [Stmt.act], rfl⟩⟩

/-- The phones in the database have been in valid requests. -/
def AllAccepted (db : Accounts.Db) : Prop := ∀ u ∈ db.users, Accepted u.phone

instance : DecidablePred AllAccepted := fun db =>
  inferInstanceAs (Decidable (∀ u ∈ db.users, Accepted u.phone))

theorem Stored.allAccepted {db db' : Accounts.Db} {id : UserId} {phone : Phone}
    (h : Stored db db' id phone) (hdb : AllAccepted db) : AllAccepted db' := by
  intro u hu
  rcases h.users u hu with ⟨-, he⟩ | hu
  · rw [he]
    exact phone.accepted
  · exact hdb u hu

/-- Numbers stay apart exactly if the phone respells nobody else's. -/
theorem Stored.onePhone_iff {db db' : Accounts.Db} {id : UserId} {phone : Phone}
    (h : Stored db db' id phone) (hdb : AllAccepted db) (hone : OnePhone db) :
    OnePhone db' ↔ ∀ u ∈ db.users, u.id ≠ id → ¬ Respells u.phone phone.text := by
  constructor
  · rintro hone' u hu hne ⟨-, hsame⟩
    obtain ⟨v, hv, rfl, hphone⟩ := h.self
    refine hne (hone' u (h.others u hu hne) v hv ?_)
    rw [hphone]
    exact (formatNumber_eq_iff (hdb u hu) phone.accepted).mpr hsame
  · intro hnew
    -- the new phone and one of before
    have hold : ∀ u ∈ db.users, formatNumber u.phone = formatNumber phone.text → u.id = id := by
      intro u hu he
      by_contra hne
      exact hnew u hu hne ⟨h.free u hu hne, (formatNumber_eq_iff (hdb u hu) phone.accepted).mp he⟩
    intro u hu u' hu' he
    rcases h.users u hu with ⟨hid, hphone⟩ | hu
    · rcases h.users u' hu' with ⟨hid', -⟩ | hu'
      · rw [hid, hid']
      · rw [hphone] at he
        rw [hid, hold u' hu' he.symm]
    · rcases h.users u' hu' with ⟨hid', hphone'⟩ | hu'
      · rw [hphone'] at he
        rw [hid', hold u hu he]
      · exact hone u hu u' hu' he

/-! ### Runs -/

/-- The calls are outside any transaction, and the phones in the database are accepted. -/
def Steady (t : Sys) : Prop :=
  (∃ g, Obeying (Automaton.statements Stmt Stmt.Reply Fault) (fun _ _ => True) g t) ∧
    AllAccepted t.world.db

theorem body_obeys (cfg : Accounts.Config) (c : Call) : ((service cfg).body c).Obeys
    (Automaton.statements Stmt Stmt.Reply Fault) () fun _ _ => True := by
  refine Script.obeys_statements (P := fun _ => True) ?_ ()
  have hstmt : ∀ s : Stmt, ∃ s', Cmd.stmt s = Cmd.stmt s' := fun s => ⟨s, rfl⟩
  cases c with
  | register dto =>
    show Script.Uses _ _ (AuthService.register cfg dto)
    refine Script.uses_perform_bind (hstmt _) fun existingUser => ?_
    cases existingUser with
    | some u => trivial
    | none =>
      refine Script.uses_perform_bind (hstmt _) fun passwordHash => ?_
      refine Script.uses_tryCatch ?_ fun error => ?_
      · refine Script.uses_perform_bind (hstmt _) fun user => ?_
        refine Script.uses_bind (P := fun _ => True) ?_ fun tokens _ => trivial
        refine Script.uses_perform_bind (hstmt _) fun now => ⟨hstmt _, fun r => ?_⟩
        cases r <;> trivial
      · unfold AuthService.conflicts
        split
        · split_ifs <;> trivial
        · trivial
  | updateProfile userId dto =>
    show Script.Uses _ _ (AuthService.updateProfile userId dto)
    refine Script.uses_perform_bind (hstmt _) fun existingPhone => ?_
    cases existingPhone with
    | some u => trivial
    | none => exact Script.uses_perform_bind (hstmt _) fun u => trivial

/-- A step stores a phone, or leaves the users as they are. -/
theorem step_stores {cfg : Accounts.Config} {t : Sys} (h : Steady t) (a : Act) :
    (∃ id phone, Stored t.world.db ((service cfg).step t a).world.db id phone ∧
      (SpellsNew cfg t a ↔ ∀ u ∈ t.world.db.users, u.id ≠ id → ¬ Respells u.phone phone.text)) ∨
    ((service cfg).step t a).world.db.users = t.world.db.users ∧ SpellsNew cfg t a := by
  obtain ⟨⟨g, hg⟩, -⟩ := h
  have hstep := (hg.step (Automaton.statements_answered _) (body_obeys cfg) a).plain hg
    Automaton.statements_plain
  rcases hstep with ⟨hc, hworld⟩ | ⟨th, -, s, hc, hsome, hworld⟩
  · refine .inr ⟨?_, fun cm hcm => by rw [hc] at hcm; cases hcm⟩
    rcases hworld with hworld | ⟨v, hworld⟩ <;> rw [hworld]
    rfl
  · obtain ⟨hdb, hact⟩ := act_stores cfg s t.world
    rcases hact with ⟨x, p, hws, hstores, hstored⟩ | ⟨hnone, husers⟩
    · refine .inl ⟨p.1, p.2, ?_, ?_⟩
      · rw [hworld, show ((service cfg).act s t.world t.world).writes = [x] from hws, if_neg (by simp)]
        show Stored _ (apply ((service cfg).act s t.world t.world).world.db x) _ _
        rw [show ((service cfg).act s t.world t.world).world.db = t.world.db from hdb]
        exact hstored
      · obtain ⟨cm, hcm⟩ := Option.isSome_iff_exists.mp (hsome (hws ▸ List.cons_ne_nil x []))
        have hcmws : cm.writes = [x] := (hc cm hcm).2.trans hws
        simp only [SpellsNew, hcm, Option.mem_def, Option.some.injEq, forall_eq', hcmws,
          List.mem_singleton, forall_eq, hstores]
    · refine .inr ⟨?_, ?_⟩
      · rw [hworld]
        split_ifs
        · exact congrArg Accounts.Db.users hdb
        · show (((service cfg).act s t.world t.world).writes.foldl apply
            ((service cfg).act s t.world t.world).world.db).users = _
          rw [show ((service cfg).act s t.world t.world).world.db = t.world.db from hdb]
          exact husers
      · intro cm hcm x hx p hp
        rw [(hc cm hcm).2] at hx
        rw [hnone x hx] at hp
        cases hp

theorem Steady.step {cfg : Accounts.Config} {t : Sys} (h : Steady t) (a : Act) :
    Steady ((service cfg).step t a) := by
  obtain ⟨g, hg⟩ := h.1
  refine ⟨(hg.step (Automaton.statements_answered _) (body_obeys cfg) a).obeying, ?_⟩
  rcases step_stores h a with ⟨id, phone, hstored, -⟩ | ⟨husers, -⟩
  · exact hstored.allAccepted h.2
  · intro u hu
    exact h.2 u (husers ▸ hu)

/-- Each number belongs to one user throughout a run exactly if no step stores a phone of
which another user has another spelling. The three spellings are formatted as one. -/
theorem onePhone_always_iff (cfg : Accounts.Config) {s : Sys} (hthreads : s.threads = [])
    (haccepted : AllAccepted s.world.db) (hone : OnePhone s.world.db) (as : List Act) :
    ((service cfg).Always (fun s => OnePhone s.world.db) s as ↔
      (service cfg).Each (SpellsNew cfg) s as) ∧
    ∀ digits, Subscriber digits → ∀ phone ∈ spellings digits, ∀ phone' ∈ spellings digits,
      Accepted phone ∧ formatNumber phone = formatNumber phone' := by
  refine ⟨?_, fun digits hdigits phone hphone phone' hphone' => ⟨?_, ?_⟩⟩
  · have hsound : (service cfg).Always Steady s as :=
      Service.always_of_step (M := fun _ _ => True) (fun s a h _ => h.step a)
        ⟨⟨_, .nil hthreads⟩, haccepted⟩ (Service.each_of_forall (fun _ _ => trivial) s as)
    refine Service.always_iff_each hsound hone (fun t a ht hone hm => ?_) fun t a ht hone hone' => ?_
    · rcases step_stores ht a with ⟨id, phone, hstored, hiff⟩ | ⟨husers, -⟩
      · exact (hstored.onePhone_iff ht.2 hone).mpr (hiff.mp hm)
      · rw [OnePhone, husers]
        exact hone
    · rcases step_stores ht a with ⟨id, phone, hstored, hiff⟩ | ⟨-, hm⟩
      · exact hiff.mpr ((hstored.onePhone_iff ht.2 hone).mp hone')
      · exact hm
  · exact accepted_iff.mpr ⟨digits, hdigits, hphone⟩
  · rw [formatNumber_spelling hdigits hphone, formatNumber_spelling hdigits hphone']

namespace Desk

def cfg : Accounts.Config where
  argon2Hash password salt := password ++ toString salt
  argon2Verify hash password := hash.startsWith password
  refreshExpiresIn := "7d"

def sys : Sys := ⟨⟨⟨[], [], []⟩, 0, 100⟩, []⟩

def ana (phone : Phone) : Call := .register ⟨"Ana", "ana@mail.com", phone, "Secret12"⟩

def ben (phone : Phone) : Call := .register ⟨"Ben", "ben@mail.com", phone, "Secret34"⟩

def local₁ : Phone := ⟨"01712345678", by decide +kernel⟩

def international₁ : Phone := ⟨"+8801712345678", by decide +kernel⟩

def local₂ : Phone := ⟨"01812345678", by decide +kernel⟩

end Desk

/-- Two users register at once, and one changes to another spelling of the own phone. -/
theorem onePhone_desk : (service Desk.cfg).Always (fun s => OnePhone s.world.db) Desk.sys
    (.spawn (Desk.ana Desk.local₁) :: .spawn (Desk.ben Desk.local₂) ::
      (List.replicate 5 [.run 0, .run 1]).flatten ++
      .spawn (.updateProfile 102 ⟨"Ana", Desk.international₁⟩) :: List.replicate 2 (.run 2)) :=
  (onePhone_always_iff Desk.cfg rfl (by decide) (by decide) _).1.mpr (by decide +kernel)

/-- Ben registers with the phone of Ana, written in another way. -/
theorem onePhone_fails : Desk.sys.threads = [] ∧ OnePhone Desk.sys.world.db ∧
    ¬ (service Desk.cfg).Always (fun s => OnePhone s.world.db) Desk.sys
      (.spawn (Desk.ana Desk.local₁) :: List.replicate 5 (.run 0) ++
        .spawn (Desk.ben Desk.international₁) :: List.replicate 5 (.run 1)) :=
  ⟨rfl, by decide, by decide +kernel⟩

end TurfSync.Profiles
