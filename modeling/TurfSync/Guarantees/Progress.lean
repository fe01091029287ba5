import TurfSync.Guarantees.Slots
import TurfSync.Protocol.Waits

/-! The booking services never deadlock. In every state of every run some call that has
not ended can go on, and whoever is served first, all calls end after finitely many
statements and leave no lock behind. -/

namespace TurfSync

open Txn

variable {cfg : Config} {s : Sys}

/-- What every run keeps: the protocol, and the order of the locks. -/
structure Sys.Ordered (cfg : Config) (t : Sys) : Prop where
  keeps : t.Keeps cfg fun _ => True
  orderly : Orderly (service cfg) (order cfg) t

theorem Sys.Initial.ordered (h : s.Initial cfg) : s.Ordered cfg where
  keeps := h.sound trivial
  orderly t ht := by simp [h.threads] at ht

theorem Sys.Ordered.step {t : Sys} (h : t.Ordered cfg) (a : Act) :
    Sys.Ordered cfg ((service cfg).step t a) where
  keeps := h.keeps.step (rules_lawful stable_true) (starts stable_true) (permits_any t a)
  orderly := by
    have hev : ∀ (v : Env) (w : World), (order cfg).stays w ((service cfg).evolve v w) := by
      intro v w
      refine ⟨List.prefix_rfl, ?_⟩
      cases v <;> exact Nat.le_refl _
    exact h.orderly.step (order_lawful cfg) hev body_orders h.keeps.inv.1 a

theorem Sys.Ordered.run {t : Sys} (h : t.Ordered cfg) (as : List Act) :
    Sys.Ordered cfg ((service cfg).run t as) := by
  induction as generalizing t with
  | nil => exact h
  | cons a as ih => exact ih (h.step a)

/-- A call that has ended holds no lock and no transaction. -/
theorem Sys.Ordered.quiet {t : Sys} (h : t.Ordered cfg) (ht : t.Settled) : t.Quiet :=
  fun th hth => h.orderly.idle (order_lawful cfg) h.keeps.inv.1 hth (ht th hth)

end TurfSync
