import TurfSync.Services.RedisLock
import TurfSync.Txn.Atomic
import TurfSync.Txn.Runs

/-! The slot lock is owned. The history of successful calls is read as a log of leases:
an acquisition grants a lease until its time to live is over, an extension sets the time
anew, a release ends it. Redis holds a lock key under a value exactly as long as that
lease runs. So no acquisition succeeds while a lease runs, and a release or an extension
goes through exactly while the lease of its own value runs, whoever acquired the key
since. -/

namespace TurfSync.Redis

open Txn

/-- The lease that a successful call grants, renews or ends. -/
def Entry.lease (e : Entry) : Option (Lease String ℕ Time) :=
  match e.session.call, e.writes with
  | .acquireLock key ttlSeconds, [.set _ value _] =>
    some (.grant key value (e.time + 1000 * ttlSeconds))
  | .releaseLock key lockValue, _ => some (.drop key lockValue)
  | .extendLock key lockValue ttlSeconds, _ =>
    some (.renew key lockValue (e.time + 1000 * ttlSeconds))
  | _, _ => none

namespace World

variable (w : World)

/-- The keys `lock:<key>`. -/
def locks (key : String) : Option (ℕ × Time) := w.keys (lockKey key)

def leases : List (Lease String ℕ Time) := w.history.filterMap Entry.lease

/-- The lock is owned under `v`: it was acquired with `v`, it was not released with `v`
since, and the time to live last set by the acquisition or an extension is not over. -/
def Owned (key : String) (v : ℕ) : Prop := Lease.Held w.leases key v w.now

instance (key : String) (v : ℕ) : Decidable (w.Owned key v) :=
  inferInstanceAs (Decidable (Lease.Held _ _ _ _))

/-- The lock was acquired with `v` at some time. -/
def Acquired (key : String) (v : ℕ) : Prop := ∃ till, Lease.grant key v till ∈ w.leases

/-- Neither a lock key nor a lease changes. -/
def Same (w' : World) : Prop := w'.locks = w.locks ∧ w'.leases = w.leases

end World

/-- What an outcome of a call says of the lock, between the world that its command found
and the world it left. -/
def Honest (w w' : World) : Call → Except Err Reply → Prop
  | .acquireLock key ttlSeconds, .ok (.value (some v)) =>
    (∀ v', ¬ w.Owned key v') ∧ (∀ key', ¬ w.Acquired key' v) ∧
      w'.leases = w.leases ++ [.grant key v (w.now + 1000 * ttlSeconds)] ∧
      ∀ key' ≠ key, w'.locks key' = w.locks key'
  | .releaseLock key v, .ok (.done true) =>
    w.Owned key v ∧ w'.leases = w.leases ++ [.drop key v] ∧
      ∀ key' ≠ key, w'.locks key' = w.locks key'
  | .extendLock key v ttlSeconds, .ok (.done true) =>
    w.Owned key v ∧ w'.leases = w.leases ++ [.renew key v (w.now + 1000 * ttlSeconds)] ∧
      ∀ key' ≠ key, w'.locks key' = w.locks key'
  | .releaseLock key v, .ok (.done false) => ¬ w.Owned key v ∧ w.Same w'
  | .extendLock key v _, .ok (.done false) => ¬ w.Owned key v ∧ w.Same w'
  | _, _ => w.Same w'

/-! ### One command -/

/-- Redis holds the leases that run, and no value has been given out that is still to
come. -/
structure World.Good (w : World) : Prop where
  agrees : Lease.Agrees w.locks w.leases w.now
  values : ∀ key v till, Lease.grant key v till ∈ w.leases → v < w.uuid

theorem lockKey_inj {key key' : String} : lockKey key = lockKey key' ↔ key = key' := by
  unfold lockKey
  exact String.append_right_inj "lock:"

theorem locks_update (w : World) (key : String) (x : Option (ℕ × Time)) :
    (fun key' => Function.update w.keys (lockKey key) x (lockKey key')) =
      Function.update w.locks key x := by
  funext key'
  by_cases h : key' = key
  · subst h
    simp
  · have hne : lockKey key' ≠ lockKey key := fun he => h (lockKey_inj.mp he)
    simp only [Function.update_of_ne h, Function.update_of_ne hne]
    rfl

theorem leases_append (w : World) (e : Entry) :
    ({ w with history := w.history ++ [e] } : World).leases = w.leases ++ e.lease.toList := by
  simp only [World.leases, List.filterMap_append]
  cases h : e.lease <;> simp [h]

theorem get_lockKey (w : World) (key : String) (v : ℕ) (h : w.Good) :
    w.get (lockKey key) = some v ↔ w.Owned key v := h.agrees.holder_iff

variable {c : Session Call} {w : World} {key : String} {v : ℕ} {ttlSeconds : ℤ}

/-- A call keeps the agreement and tells the truth about the lock. -/
structure Keeps (c : Session Call) (w : World) : Prop where
  good : (service.outcome c w).2.2.Good
  honest : Honest w (service.outcome c w).2.2 c.call (service.outcome c w).1

theorem World.Good.drawn (h : w.Good) : ({ w with uuid := w.uuid + 1 } : World).Good :=
  ⟨h.agrees, fun key v till hm => Nat.lt_succ_of_lt (h.values key v till hm)⟩

/-- A command that changed the lock under `key`, and its lease. -/
theorem World.Good.commit (h : w.Good) (c : Session Call) (key : String) (uuid : ℕ) {x : Write}
    {e : Lease String ℕ Time} {lock : Option (ℕ × Time)} (he : (⟨c, [x], w.now⟩ : Entry).lease = some e)
    (hx : (w.apply x).keys = Function.update w.keys (lockKey key) lock)
    (hagrees : Lease.Agrees (Function.update w.locks key lock) (w.leases ++ [e]) w.now)
    (hle : w.uuid ≤ uuid) (hvalue : ∀ key v till, e = .grant key v till → v < uuid) :
    let w' : World := ⟨w.now, uuid, (w.apply x).keys, w.history ++ [⟨c, [x], w.now⟩]⟩
    w'.Good ∧ w'.leases = w.leases ++ [e] ∧ w'.locks = Function.update w.locks key lock := by
  intro w'
  have hleases : w'.leases = w.leases ++ [e] := by
    have h' := leases_append w ⟨c, [x], w.now⟩
    rw [he] at h'
    exact h'
  have hlocks : w'.locks = Function.update w.locks key lock := by
    rw [← locks_update, ← hx]
    rfl
  refine ⟨⟨?_, fun key v till hm => ?_⟩, hleases, hlocks⟩
  · rw [hlocks, hleases]
    exact hagrees
  · rw [hleases] at hm
    rcases List.mem_append.mp hm with hm | hm
    · exact Nat.lt_of_lt_of_le (h.values key v till hm) hle
    · exact hvalue key v till (List.mem_singleton.mp hm).symm

/-- A call is one command. -/
theorem outcome_eq {m : Command} {f : m.Reply → Reply}
    (hbody : c.call.body = (command m).bind fun a => .ret (f a)) : service.outcome c w =
      ((m.act w w).reply.map f, .idle, if (m.act w w).writes.isEmpty then (m.act w w).world
        else engine.commit c (m.act w w).writes (m.act w w).world) := by
  have hsolo := Engine.solo_bind engine c (command m) (fun a => .ret (f a)) .idle w
  rw [← hbody, command, Engine.solo_perform_auto] at hsolo
  rw [Service.outcome]
  refine hsolo.trans ?_
  cases hr : (m.act w w).reply with
  | ok a => simp [engine, hr, Except.map]
  | error e => simp [engine, hr, Except.map]

theorem acquireLock_keeps (h : w.Good) (call : c.call = .acquireLock key ttlSeconds) :
    Keeps c w := by
  have hrun := @outcome_eq c w (.setNx (lockKey key) ttlSeconds) .value (by rw [call]; rfl)
  by_cases httl : ttlSeconds ≤ 0
  · have hact : (Command.setNx (lockKey key) ttlSeconds).act w w =
        ⟨.error .infrastructure, [], [], { w with uuid := w.uuid + 1 }⟩ := by
      simp only [Command.act, if_pos httl]
    rw [hact] at hrun
    exact ⟨by rw [hrun]; exact h.drawn, by rw [hrun, call]; exact ⟨rfl, rfl⟩⟩
  by_cases hfree : w.get (lockKey key) = none
  · have hact : (Command.setNx (lockKey key) ttlSeconds).act w w = ⟨.ok (some w.uuid), [],
        [.set (lockKey key) w.uuid (w.now + 1000 * ttlSeconds)],
        { w with uuid := w.uuid + 1 }⟩ := by
      simp only [Command.act, if_neg httl, if_pos hfree]
    rw [hact] at hrun
    obtain ⟨hgood, hleases, hlocks⟩ := h.commit c key (w.uuid + 1)
      (x := .set (lockKey key) w.uuid (w.now + 1000 * ttlSeconds))
      (by simp only [Entry.lease, call]) rfl
      (h.agrees.grant hfree w.uuid (w.now + 1000 * ttlSeconds)) (Nat.le_succ _)
      (by rintro key v till ⟨⟩; exact Nat.lt_succ_self _)
    refine ⟨by rw [hrun]; exact hgood, ?_⟩
    rw [hrun, call]
    refine ⟨h.agrees.holder_none.mp hfree, ?_, hleases, fun key' hne => ?_⟩
    · rintro key' ⟨till, hm⟩
      exact absurd (h.values key' w.uuid till hm) (Nat.lt_irrefl _)
    · exact (congrFun hlocks key').trans (Function.update_of_ne hne _ _)
  · have hact : (Command.setNx (lockKey key) ttlSeconds).act w w =
        ⟨.ok none, [], [], { w with uuid := w.uuid + 1 }⟩ := by
      simp only [Command.act, if_neg httl, if_neg hfree]
    rw [hact] at hrun
    exact ⟨by rw [hrun]; exact h.drawn, by rw [hrun, call]; exact ⟨rfl, rfl⟩⟩

/-- A script that writes only while the lock has the value it is called with. -/
theorem script_cases (h : w.Good) {m : Command} {f : m.Reply → Reply} {a a' : m.Reply} {x : Write}
    {e : Lease String ℕ Time} {lock : Option (ℕ × Time)}
    (hbody : c.call.body = (command m).bind fun a => .ret (f a))
    (hwrites : w.get (lockKey key) = some v → m.act w w = ⟨.ok a, [], [x], w⟩)
    (hskips : w.get (lockKey key) ≠ some v → m.act w w = ⟨.ok a', [], [], w⟩)
    (he : (⟨c, [x], w.now⟩ : Entry).lease = some e) (hvalue : ∀ key v till, e ≠ .grant key v till)
    (hx : w.get (lockKey key) = some v →
      (w.apply x).keys = Function.update w.keys (lockKey key) lock ∧
        Lease.Agrees (Function.update w.locks key lock) (w.leases ++ [e]) w.now) :
    (w.Owned key v ∧ (service.outcome c w).1 = .ok (f a) ∧ (service.outcome c w).2.2.Good ∧
      (service.outcome c w).2.2.leases = w.leases ++ [e] ∧
      ∀ key' ≠ key, (service.outcome c w).2.2.locks key' = w.locks key') ∨
    (¬ w.Owned key v ∧ (service.outcome c w).1 = .ok (f a') ∧ (service.outcome c w).2.2 = w) := by
  have hrun := outcome_eq (w := w) hbody
  by_cases hheld : w.get (lockKey key) = some v
  · left
    obtain ⟨hkeys, hagrees⟩ := hx hheld
    obtain ⟨hgood, hleases, hlocks⟩ := h.commit c key w.uuid he hkeys hagrees (Nat.le_refl _)
      fun key v till hg => absurd hg (hvalue key v till)
    have hcommit : engine.commit c [x] w =
        ⟨w.now, w.uuid, (w.apply x).keys, w.history ++ [⟨c, [x], w.now⟩]⟩ := by
      cases x <;> rfl
    rw [hwrites hheld] at hrun
    simp only [List.isEmpty_cons, Bool.false_eq_true, if_false, hcommit] at hrun
    rw [hrun]
    refine ⟨(get_lockKey w key v h).mp hheld, rfl, hgood, hleases, fun key' hne => ?_⟩
    exact (congrFun hlocks key').trans (Function.update_of_ne hne _ _)
  · right
    rw [hskips hheld] at hrun
    rw [hrun]
    exact ⟨fun ho => hheld ((get_lockKey w key v h).mpr ho), rfl, rfl⟩

theorem releaseLock_keeps (h : w.Good) (call : c.call = .releaseLock key v) : Keeps c w := by
  obtain ⟨howned, hreply, hgood, hleases, hlocks⟩ | ⟨hlost, hreply, hsame⟩ :=
    @script_cases c w key v h (.releaseScript (lockKey key) v) (fun n => .done (n = 1)) 1 0
      (.del (lockKey key)) (.drop key v) none (by rw [call]; rfl)
      (fun hheld => by simp only [Command.act, if_pos hheld])
      (fun hne => by simp only [Command.act, if_neg hne]) (by simp only [Entry.lease, call])
      (by rintro key v till ⟨⟩) fun hheld => ⟨rfl, h.agrees.drop hheld⟩
  · refine ⟨hgood, ?_⟩
    rw [hreply, call]
    exact ⟨howned, hleases, hlocks⟩
  · refine ⟨by rw [hsame]; exact h, ?_⟩
    rw [hreply, call, hsame]
    exact ⟨hlost, rfl, rfl⟩

theorem extendLock_keeps (h : w.Good) (call : c.call = .extendLock key v ttlSeconds) :
    Keeps c w := by
  have hkeys : w.get (lockKey key) = some v →
      (w.apply (.expire (lockKey key) (w.now + 1000 * ttlSeconds))).keys =
        Function.update w.keys (lockKey key) (some (v, w.now + 1000 * ttlSeconds)) := by
    intro hheld
    obtain ⟨till, hlock, -⟩ := Lease.holder_some.mp hheld
    simp only [World.apply, hlock, Option.map_some]
  obtain ⟨howned, hreply, hgood, hleases, hlocks⟩ | ⟨hlost, hreply, hsame⟩ :=
    @script_cases c w key v h (.extendScript (lockKey key) v ttlSeconds) (fun n => .done (n = 1)) 1 0
      (.expire (lockKey key) (w.now + 1000 * ttlSeconds))
      (.renew key v (w.now + 1000 * ttlSeconds)) (some (v, w.now + 1000 * ttlSeconds))
      (by rw [call]; rfl) (fun hheld => by simp only [Command.act, if_pos hheld])
      (fun hne => by simp only [Command.act, if_neg hne]) (by simp only [Entry.lease, call])
      (by rintro key v till ⟨⟩) fun hheld => ⟨hkeys hheld, h.agrees.renew hheld _⟩
  · refine ⟨hgood, ?_⟩
    rw [hreply, call]
    exact ⟨howned, hleases, hlocks⟩
  · refine ⟨by rw [hsame]; exact h, ?_⟩
    rw [hreply, call, hsame]
    exact ⟨hlost, rfl, rfl⟩

theorem World.Good.keeps (h : w.Good) (c : Session Call) : Keeps c w := by
  cases call : c.call with
  | acquireLock key ttlSeconds => exact acquireLock_keeps h call
  | releaseLock key lockValue => exact releaseLock_keeps h call
  | extendLock key lockValue ttlSeconds => exact extendLock_keeps h call

/-! ### Runs -/

theorem atomic : service.Atomic := by
  intro c
  cases c with
  | acquireLock key ttlSeconds => exact ⟨.setNx (lockKey key) ttlSeconds, .value, rfl⟩
  | releaseLock key lockValue =>
    exact ⟨.releaseScript (lockKey key) lockValue, fun n => .done (n = 1), rfl⟩
  | extendLock key lockValue ttlSeconds =>
    exact ⟨.extendScript (lockKey key) lockValue ttlSeconds, fun n => .done (n = 1), rfl⟩

theorem Sys.Initial.good {s : Sys} (h : s.Initial) : s.world.Good ∧ service.Waiting s := by
  have hleases : s.world.leases = [] := by simp [World.leases, h.history]
  refine ⟨⟨fun key v till _ => ?_, by simp [hleases]⟩, ⟨by simp [h.threads], by simp [h.threads]⟩⟩
  simp [World.locks, h.keys key, hleases, Lease.deadline]

theorem outcome_now (c : Session Call) (w : World) : (service.outcome c w).2.2.now = w.now := by
  have hfold : ∀ (ws : List Write) (w : World), (ws.foldl World.apply w).now = w.now := by
    intro ws
    induction ws with
    | nil => exact fun _ => rfl
    | cons x ws ih =>
      intro w
      rw [List.foldl_cons, ih]
      cases x <;> rfl
  have hact : ∀ m : Command, (m.act w w).world.now = w.now := by
    intro m
    cases m with
    | setNx key ttlSeconds => simp only [Command.act]; split_ifs <;> rfl
    | releaseScript key value => simp only [Command.act]; split_ifs <;> rfl
    | extendScript key value ttlSeconds => simp only [Command.act]; split_ifs <;> rfl
  obtain ⟨m, f, hbody⟩ := atomic c.call
  rw [outcome_eq hbody]
  simp only
  split_ifs
  · exact hact m
  · exact (hfold _ _).trans (hact m)

/-- A lease that is over stays over: its value is not granted again, and only the holder
can renew it. -/
theorem Honest.lapsed {w' : World} {call : Call} {r : Except Err Reply} (h : Honest w w' call r)
    (hnow : w'.now = w.now) (ha : w.Acquired key v) (hn : ¬ w.Owned key v) : ¬ w'.Owned key v := by
  have hsame : w.Same w' → ¬ w'.Owned key v := by
    rintro ⟨-, hl⟩
    rwa [World.Owned, hl, hnow]
  have happend : ∀ e, w'.leases = w.leases ++ [e] → e.subject ≠ (key, v) → ¬ w'.Owned key v := by
    intro e hl hne
    rwa [World.Owned, hl, hnow, Lease.Held, Lease.deadline_append_of_ne hne]
  unfold Honest at h
  split at h
  · rename_i key' ttl v'
    obtain ⟨-, hnew, hl, -⟩ := h
    refine happend _ hl fun he => ?_
    obtain ⟨rfl, rfl⟩ := Prod.mk.inj he
    exact hnew _ ha
  · rename_i key' v'
    obtain ⟨hown, hl, -⟩ := h
    refine happend _ hl fun he => ?_
    obtain ⟨rfl, rfl⟩ := Prod.mk.inj he
    exact hn hown
  · rename_i key' v' ttl
    obtain ⟨hown, hl, -⟩ := h
    refine happend _ hl fun he => ?_
    obtain ⟨rfl, rfl⟩ := Prod.mk.inj he
    exact hn hown
  · exact hsame h.2
  · exact hsame h.2
  · exact hsame h

/-- What a step may do to the locks: a call that ends tells the truth, a step in which
no call ends changes no lock, and a lease that is over stays over. -/
structure Faithful (t : Sys) (a : Act) : Prop where
  ends : ∀ i c r, service.Ends t a i c r → Honest t.world (service.step t a).world c r
  quiet : (∀ i c r, ¬ service.Ends t a i c r) → t.world.Same (service.step t a).world
  lapsed : ∀ key v, t.world.Acquired key v → ¬ t.world.Owned key v →
    ¬ (service.step t a).world.Owned key v

/-- One step. -/
theorem faithful_step {t : Sys} (hg : t.world.Good) (hw : service.Waiting t) (a : Act) :
    Faithful t a ∧ (service.step t a).world.Good ∧ service.Waiting (service.step t a) := by
  obtain ⟨hw', hturn⟩ := hw.step atomic a
  cases hturn with
  | quiet world ends =>
    have hnone : ∀ i c r, ¬ service.Ends t a i c r := fun i c r he => he.1 (ends i c r he.2)
    obtain ⟨hsame, hlater, huuid⟩ : t.world.Same (service.step t a).world ∧
        t.world.now ≤ (service.step t a).world.now ∧
        t.world.uuid = (service.step t a).world.uuid := by
      rcases world with hworld | ⟨v, hworld⟩
      · rw [hworld]
        exact ⟨⟨rfl, rfl⟩, Int.le_refl _, rfl⟩
      · rw [hworld]
        exact ⟨⟨rfl, rfl⟩, Int.le_add_of_nonneg_right (Int.natCast_nonneg _), rfl⟩
    refine ⟨⟨fun i c r he => absurd he (hnone i c r), fun _ => hsame, ?_⟩, ⟨?_, ?_⟩, hw'⟩
    · rintro key v - hn ⟨till, hd, ht⟩
      rw [hsame.2] at hd
      exact hn ⟨till, hd, Int.lt_of_le_of_lt hlater ht⟩
    · rw [hsame.1, hsame.2]
      exact hg.agrees.later hlater
    · rw [hsame.2, ← huuid]
      exact hg.values
  | served i c world new ended ends =>
    obtain ⟨hgood, hhonest⟩ := hg.keeps c
    rw [← world] at hgood hhonest
    have hnow : (service.step t a).world.now = t.world.now := by rw [world, outcome_now]
    refine ⟨⟨fun j c' r he => ?_, fun hnone => ?_, fun key v => hhonest.lapsed hnow⟩, hgood, hw'⟩
    · rcases ends j c' r he.2 with h' | ⟨rfl, rfl⟩
      · exact absurd h' he.1
      · exact hhonest
    · exact absurd ⟨new _ _, ended⟩ (hnone i _ _)
  | failed c world ends =>
    rw [world]
    refine ⟨⟨fun j c' r he => ?_, fun _ => ?_, fun key v _ hn => ?_⟩, hg, hw'⟩
    · rw [world]
      rcases ends j c' r he.2 with h' | ⟨rfl, rfl⟩
      · exact absurd h' he.1
      · cases c' <;> exact ⟨rfl, rfl⟩
    · rw [world]
      exact ⟨rfl, rfl⟩
    · rw [world]
      exact hn

/-- In every run, Redis holds a lock key under a value exactly as long as the lease of
that value runs, and every step is faithful to the leases. -/
theorem lock_owned {s : Sys} (hs : s.Initial) (as : List Act) :
    service.Always (fun t => ∀ key v, t.world.get (lockKey key) = some v ↔ t.world.Owned key v) s as ∧
      service.Each Faithful s as := by
  have hall : service.Always (fun t => t.world.Good ∧ service.Waiting t) s as :=
    Service.always_of_step (M := fun _ _ => True) (fun t a ht _ => (faithful_step ht.1 ht.2 a).2)
      hs.good (Service.each_of_forall (fun _ _ => trivial) s as)
  exact ⟨hall.mono fun t ht key v => get_lockKey t.world key v ht.1,
    hall.each fun t a ht => (faithful_step ht.1 ht.2 a).1⟩

/-- The lock of a slot expires, somebody else takes it, and the first client releases it
too late. -/
theorem lock_owned_late :
    let s : Sys := ⟨⟨0, 1, fun _ => none, []⟩, []⟩
    let as : List Act := [.spawn (.acquireLock "slot:1" 30), .run 0, .env ⟨31000⟩,
      .spawn (.acquireLock "slot:1" 30), .run 1, .spawn (.releaseLock "slot:1" 1), .run 2]
    (service.run s as).Ended 1 (.acquireLock "slot:1" 30) (.ok (.value (some 2))) ∧
      (service.run s as).Ended 2 (.releaseLock "slot:1" 1) (.ok (.done false)) ∧
      service.Each Faithful s as := by
  intro s as
  exact ⟨by decide +kernel, by decide +kernel, (lock_owned ⟨rfl, rfl, fun _ => rfl⟩ as).2⟩

/-! ### The locks as the booking services see them -/

section

variable {name : SlotId → String} {o : Outside} {id : SlotId} {n : ℕ}

/-- The values of the slot locks, deadlines forgotten. -/
def World.slotLocks (name : SlotId → String) (w : World) (id : SlotId) : Option ℕ :=
  w.get (lockKey (name id))

theorem slotLocks_update (hname : Function.Injective name) {keys : String → Option (ℕ × Time)}
    {x : Option (ℕ × Time)}
    (hkeys : keys = Function.update w.keys (lockKey (name id)) x) (uuid : ℕ) (h : List Entry) :
    World.slotLocks name ⟨w.now, uuid, keys, h⟩ = Function.update (w.slotLocks name) id
      ((x.filter fun y => w.now < y.2).map Prod.fst) := by
  funext id'
  simp only [World.slotLocks, World.get, Lease.holder, hkeys]
  by_cases hid : id' = id
  · subst hid
    simp
  · have hne : lockKey (name id') ≠ lockKey (name id) := fun he => hid (hname (lockKey_inj.mp he))
    simp [Function.update_of_ne hid, Function.update_of_ne hne, World.slotLocks, World.get,
      Lease.holder]

/-- `acquireLock` is the lock statement of the booking services. -/
theorem acquireLock_refines (hname : Function.Injective name) (hlocks : o.slotLocks = w.slotLocks name)
    (huuid : o.uuid = w.uuid) (httl : 0 < ttlSeconds) :
    let r := service.outcome ⟨n, .acquireLock (name id) ttlSeconds⟩ w
    let e := (External.acquireLock id).eval o
    r.1 = e.1.map .value ∧ e.2.slotLocks = r.2.2.slotLocks name ∧ e.2.uuid = r.2.2.uuid := by
  intro r e
  have hrun := @outcome_eq ⟨n, .acquireLock (name id) ttlSeconds⟩ w
    (.setNx (lockKey (name id)) ttlSeconds) .value rfl
  have hslot : o.slotLocks id = w.get (lockKey (name id)) := congrFun hlocks id
  simp only [r, e, hrun, External.eval, Command.act, if_neg (not_le.mpr httl), hslot]
  by_cases hfree : w.get (lockKey (name id)) = none
  · simp only [hfree, Option.isNone_none, if_true]
    refine ⟨by simp [Except.map, huuid], ?_, by simp [huuid, engine, World.apply]⟩
    refine Eq.trans ?_ (slotLocks_update (w := w) hname rfl _ _).symm
    simp [hlocks, huuid, Option.filter, httl]
  · simp only [if_neg hfree, Option.isNone_iff_eq_none]
    exact ⟨trivial, hlocks, by simp [huuid]⟩

/-- `releaseLock` is the release statement of the booking services. -/
theorem releaseLock_refines (hname : Function.Injective name) (hlocks : o.slotLocks = w.slotLocks name)
    (huuid : o.uuid = w.uuid) :
    let r := service.outcome ⟨n, .releaseLock (name id) v⟩ w
    let e := (External.releaseLock id v).eval o
    r.1 = e.1.map .done ∧ e.2.slotLocks = r.2.2.slotLocks name ∧ e.2.uuid = r.2.2.uuid := by
  intro r e
  have hrun := @outcome_eq ⟨n, .releaseLock (name id) v⟩ w (.releaseScript (lockKey (name id)) v)
    (fun k => .done (k = 1)) rfl
  have hslot : o.slotLocks id = w.get (lockKey (name id)) := congrFun hlocks id
  simp only [r, e, hrun, External.eval, Command.act, hslot]
  by_cases hheld : w.get (lockKey (name id)) = some v
  · simp only [if_pos hheld]
    refine ⟨rfl, ?_, huuid⟩
    refine Eq.trans ?_ (slotLocks_update (w := w) hname rfl _ _).symm
    simp [hlocks]
  · simp only [if_neg hheld]
    exact ⟨rfl, hlocks, huuid⟩

/-- When time passes, a slot lock stays or expires. -/
theorem tick_refines (ms : ℕ) : (service.evolve ⟨ms⟩ w).slotLocks name id = w.slotLocks name id ∨
    (service.evolve ⟨ms⟩ w).slotLocks name id = none := by
  cases h : (service.evolve ⟨ms⟩ w).slotLocks name id with
  | none => exact .inr rfl
  | some v =>
    obtain ⟨till, hlock, ht⟩ := Lease.holder_some.mp h
    have hle : w.now ≤ (service.evolve ⟨ms⟩ w).now :=
      Int.le_add_of_nonneg_right (Int.natCast_nonneg ms)
    have hlt : w.now < till := Int.lt_of_le_of_lt hle ht
    exact .inl (Lease.holder_some.mpr ⟨till, hlock, hlt⟩).symm

end

end TurfSync.Redis
