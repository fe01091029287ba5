import Mathlib.Logic.Function.Basic
import Mathlib.Order.Lattice

/-! Leases. A log records who was granted a key under which value and until when, which
leases were renewed and which were given up; a lease is held until its time is over or
it is given up. A store that keeps one value with a deadline for each key agrees with
the log if it holds exactly the leases that still run. Then a key is held under one
value at a time, and what the store answers is what the log says. -/

namespace TurfSync.Txn

/-- What happens to a lease. -/
inductive Lease (K V T : Type) where
  | grant (key : K) (value : V) (till : T)
  | renew (key : K) (value : V) (till : T)
  | drop (key : K) (value : V)
  deriving DecidableEq, Repr

namespace Lease

variable {K V T : Type} [DecidableEq K] [DecidableEq V]

/-- The deadline of the lease of `k` under `v` after one more event. -/
def advance (k : K) (v : V) (deadline : Option T) : Lease K V T → Option T
  | grant k' v' till => if k' = k ∧ v' = v then some till else deadline
  | renew k' v' till => if k' = k ∧ v' = v then some till else deadline
  | drop k' v' => if k' = k ∧ v' = v then none else deadline

/-- The deadline last set for the lease of `k` under `v`; none before it is granted and
after it was given up. -/
def deadline (k : K) (v : V) (log : List (Lease K V T)) : Option T :=
  log.foldl (advance k v) none

theorem deadline_append (k : K) (v : V) (log : List (Lease K V T)) (e : Lease K V T) :
    deadline k v (log ++ [e]) = advance k v (deadline k v log) e := by
  simp [deadline]

/-- Whose lease an event is about. -/
def subject : Lease K V T → K × V
  | grant k v _ => (k, v)
  | renew k v _ => (k, v)
  | drop k v => (k, v)

theorem deadline_append_of_ne {k : K} {v : V} {log : List (Lease K V T)} {e : Lease K V T}
    (h : e.subject ≠ (k, v)) : deadline k v (log ++ [e]) = deadline k v log := by
  rw [deadline_append]
  cases e <;> simp_all [advance, subject]

variable [LinearOrder T]

/-- At `now`, the lease of `k` under `v` runs. -/
def Held (log : List (Lease K V T)) (k : K) (v : V) (now : T) : Prop :=
  ∃ till ∈ deadline k v log, now < till

instance (log : List (Lease K V T)) (k : K) (v : V) (now : T) : Decidable (Held log k v now) :=
  inferInstanceAs (Decidable (∃ till ∈ deadline k v log, now < till))

/-- The value under which a store holds a key. -/
def holder (store : K → Option (V × T)) (k : K) (now : T) : Option V :=
  ((store k).filter fun x => now < x.2).map Prod.fst

omit [DecidableEq K] [DecidableEq V] in
theorem holder_some {store : K → Option (V × T)} {k : K} {v : V} {now : T} :
    holder store k now = some v ↔ ∃ till, store k = some (v, till) ∧ now < till := by
  simp only [holder, Option.map_eq_some_iff, Option.filter_eq_some_iff, decide_eq_true_eq]
  constructor
  · rintro ⟨⟨v', till⟩, ⟨hs, ht⟩, rfl⟩
    exact ⟨till, hs, ht⟩
  · rintro ⟨till, hs, ht⟩
    exact ⟨(v, till), ⟨hs, ht⟩, rfl⟩

/-- The store has exactly the leases that run at `now`. -/
def Agrees (store : K → Option (V × T)) (log : List (Lease K V T)) (now : T) : Prop :=
  ∀ k v till, now < till → (store k = some (v, till) ↔ deadline k v log = some till)

namespace Agrees

variable {store : K → Option (V × T)} {log : List (Lease K V T)} {now now' till : T} {k : K}
  {v v' : V}

theorem holder_iff (h : Agrees store log now) : holder store k now = some v ↔ Held log k v now := by
  rw [holder_some]
  constructor
  · rintro ⟨till, hs, ht⟩
    exact ⟨till, (h k v till ht).mp hs, ht⟩
  · rintro ⟨till, hd, ht⟩
    exact ⟨till, (h k v till ht).mpr hd, ht⟩

/-- A key is held under one value. -/
theorem eq_of_held (h : Agrees store log now) (hv : Held log k v now) (hv' : Held log k v' now) :
    v' = v := by
  rw [← h.holder_iff] at hv hv'
  exact Option.some.inj (hv'.symm.trans hv)

theorem holder_none (h : Agrees store log now) :
    holder store k now = none ↔ ∀ v, ¬ Held log k v now := by
  constructor
  · intro hn v hv
    rw [← h.holder_iff, hn] at hv
    cases hv
  · intro hn
    cases hh : holder store k now with
    | none => rfl
    | some v => exact absurd (h.holder_iff.mp hh) (hn v)

/-- Time runs out. -/
theorem later (h : Agrees store log now) (hle : now ≤ now') : Agrees store log now' :=
  fun k v till ht => h k v till (lt_of_le_of_lt hle ht)

/-- An event sets the deadline of a lease, while no other lease of the key runs. -/
theorem set (h : Agrees store log now) {e : Lease K V T} {d : Option T}
    (he : ∀ k' v' d', advance k' v' d' e = if k = k' ∧ v = v' then d else d')
    (hfree : ∀ v', v' ≠ v → ¬ Held log k v' now) :
    Agrees (Function.update store k (d.map (v, ·))) (log ++ [e]) now := by
  intro k' v' till ht
  rw [deadline_append, he]
  by_cases hk : k' = k
  · subst hk
    by_cases hv : v' = v
    · simp [hv]
    · have hnone : deadline k' v' log ≠ some till := fun hd => hfree v' hv ⟨till, hd, ht⟩
      simp [Ne.symm hv, hnone]
  · simp [Function.update_of_ne hk, Ne.symm hk, h k' v' till ht]

/-- A key that nobody holds is granted. -/
theorem grant (h : Agrees store log now) (hn : holder store k now = none) (v : V) (till : T) :
    Agrees (Function.update store k (some (v, till))) (log ++ [.grant k v till]) now :=
  h.set (d := some till) (fun _ _ _ => rfl) fun v' _ => h.holder_none.mp hn v'

/-- The holder renews. -/
theorem renew (h : Agrees store log now) (hh : holder store k now = some v) (till : T) :
    Agrees (Function.update store k (some (v, till))) (log ++ [.renew k v till]) now :=
  h.set (d := some till) (fun _ _ _ => rfl) fun _ hne hheld =>
    hne (h.eq_of_held (h.holder_iff.mp hh) hheld)

/-- The holder gives up. -/
theorem drop (h : Agrees store log now) (hh : holder store k now = some v) :
    Agrees (Function.update store k none) (log ++ [.drop k v]) now :=
  h.set (d := none) (fun _ _ _ => rfl) fun _ hne hheld =>
    hne (h.eq_of_held (h.holder_iff.mp hh) hheld)

end Agrees

end Lease

end TurfSync.Txn
