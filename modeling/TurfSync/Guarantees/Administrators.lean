import TurfSync.Protocol.Auth

/-! Whether an administrator is left. `demoteAdmin` refuses that callers demote
themselves, but the guard, the check of the target and the update are separate
statements: two admins can demote each other. -/

namespace TurfSync.Accounts

open Txn Journal

/-- Some user has the role ADMIN. -/
def Db.HasAdmin (db : Db) : Prop := ∃ u ∈ db.users, u.role = .ADMIN

instance (db : Db) : Decidable db.HasAdmin := inferInstanceAs (Decidable (∃ u ∈ db.users, _))

/-- If the step is the update of a `demoteAdmin`, its caller still is an ADMIN. -/
def DemotesAsAdmin (cfg : Config) (t : Sys) (a : Act) : Prop :=
  ∀ cm ∈ (service cfg).committed t a, match cm.session.call, cm.writes with
    | .demoteAdmin accessToken _, [.userSet _ _] =>
      ∃ u ∈ t.world.db.user? accessToken.sub, u.role = .ADMIN
    | _, _ => True

instance (cfg : Config) (t : Sys) (a : Act) : Decidable (DemotesAsAdmin cfg t a) :=
  decidable_of_iff (∀ cm ∈ (service cfg).committed t a, (match cm.session.call, cm.writes with
    | .demoteAdmin accessToken _, [.userSet _ _] =>
      decide (∃ u ∈ t.world.db.user? accessToken.sub, u.role = .ADMIN)
    | _, _ => true) = true) (forall₂_congr fun _ _ => by split <;> simp)

theorem hasAdmin_userSet {db : Db} {id : UserId} {change : UserChange} (h : db.HasAdmin)
    (hrole : ∀ u ∈ db.users, u.role = .ADMIN → (change.set u).role = .ADMIN) :
    (db.apply (.userSet id change)).HasAdmin := by
  obtain ⟨u, hu, hadmin⟩ := h
  refine ⟨_, Rows.mem_update.mpr ⟨u, hu, rfl⟩, ?_⟩
  split_ifs
  · exact hrole u hu hadmin
  · exact hadmin

/-- A change to one user leaves another admin alone. -/
theorem hasAdmin_other {db : Db} {id : UserId} {change : UserChange} {admin : User}
    (hu : admin ∈ db.users) (hadmin : admin.role = .ADMIN) (hne : admin.id ≠ id) :
    (db.apply (.userSet id change)).HasAdmin := by
  refine ⟨admin, Rows.mem_update.mpr ⟨admin, hu, ?_⟩, hadmin⟩
  rw [if_neg (by simpa using hne)]

/-- One statement keeps an ADMIN, unless it is a demotion whose caller is none. -/
theorem Acts.hasAdmin {cfg : Config} {past : List Entry} {e : Entry} (h : Acts cfg past e)
    (hdb : e.before.db.HasAdmin)
    (hdemotes : ∀ (accessToken : Jwt) userId id change,
      e.session.call = .demoteAdmin accessToken userId → e.writes = [.userSet id change] →
      ∃ u ∈ e.before.db.user? accessToken.sub, u.role = .ADMIN) :
    Db.HasAdmin (e.writes.foldl Db.apply e.before.db) := by
  cases h with
  | failedLogin =>
    refine hasAdmin_userSet hdb fun u _ hu => ?_
    rw [← hu]
    unfold UserChange.set
    split <;> simp_all
  | unlocked => exact hasAdmin_userSet hdb fun u _ hu => hu
  | resetRequested => exact hasAdmin_userSet hdb fun u _ hu => hu
  | passwordReset => exact hasAdmin_userSet hdb fun u _ hu => hu
  | @managed c m adminId user change row g s hown managing =>
    have hmanages := managing.manages
    have hother := managing.other
    generalize hcall : c.call = call at hmanages
    cases hmanages with
    | toggled => exact hasAdmin_userSet hdb fun u _ hu => hu
    | promoted => exact hasAdmin_userSet hdb fun u _ _ => rfl
    | @demoted accessToken =>
      obtain ⟨u, hu, hadmin⟩ := hdemotes accessToken _ _ _ hcall rfl
      obtain ⟨hmem, hid⟩ := Rows.lookup_some hu
      exact hasAdmin_other hmem hadmin (by rw [hid]; exact hother.symm)
  | _ => exact hdb

/-- In every run from a state with an ADMIN, if every demotion is written while its
caller still is an ADMIN, every state has an ADMIN. -/
theorem hasAdmin_always {cfg : Config} {s : Sys} {as : List Act} (hs : s.Initial)
    (hadmin : s.world.db.HasAdmin) (hdemotes : (service cfg).Each (DemotesAsAdmin cfg) s as) :
    (service cfg).Always (fun t => t.world.db.HasAdmin) s as := by
  have hstep : ∀ (t : Sys) (a : Act), t.Keeps cfg ∧ t.world.db.HasAdmin → DemotesAsAdmin cfg t a →
      Sys.Keeps cfg ((service cfg).step t a) ∧ ((service cfg).step t a).world.db.HasAdmin := by
    rintro t a ⟨ht, hdb⟩ hd
    refine ⟨ht.step a, ?_⟩
    rcases ht.step_cases a with ⟨-, -, hsame⟩ | ⟨cm, e, hc, hsession, hwrites, hbefore, -, -, hact,
      -, hafter, -⟩
    · rw [hsame]
      exact hdb
    · rw [hafter, ← hbefore]
      refine hact.hasAdmin (hbefore ▸ hdb) fun accessToken userId id change hcall hws => ?_
      have hcm := hd cm hc
      rw [← hsession, hcall, ← hwrites, hws] at hcm
      rw [hbefore]
      exact hcm
  have hkeeps : s.Keeps cfg ∧ s.world.db.HasAdmin := ⟨hs.keeps, hadmin⟩
  exact (Service.always_of_step hstep hkeeps hdemotes).mono fun t ht => ht.2

/-- Ana demotes Ben and promotes Eve. -/
theorem hasAdmin_always_office : (service Office.cfg).Always (fun t => t.world.db.HasAdmin)
    Office.sys (Office.first 0 (.demoteAdmin (Office.jwt Office.ana 60) 2) 4 ++
      Office.first 1 (.makeAdmin (Office.jwt Office.ana 60) 7) 4) :=
  hasAdmin_always Office.initial (by decide) (by decide +kernel)

/-- Ana and Ben demote each other: both have passed the guard and read the other as an
ADMIN before the first update. -/
theorem hasAdmin_fails :
    let as := Office.first 0 (.demoteAdmin (Office.jwt Office.ana 60) 2) 2 ++
      Office.first 1 (.demoteAdmin (Office.jwt Office.ben 61) 1) 4 ++ List.replicate 2 (.run 0)
    Office.sys.world.db.HasAdmin ∧ ((service Office.cfg).run Office.sys as).Quiet ∧
      ¬ ((service Office.cfg).run Office.sys as).world.db.HasAdmin := by
  decide +kernel

end TurfSync.Accounts
