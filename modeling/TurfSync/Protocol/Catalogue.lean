import TurfSync.Services.Catalogue
import TurfSync.Txn.Automaton

/-! An automaton of the booking services, while turfs and coupons are edited: the calls of the
booking services obey it still, the edits leave it where it starts, and it is answered as
before. -/

namespace TurfSync.Catalogue

open Txn

section

variable {cfg : Config} {G : Type} {A : Automaton TurfSync.Stmt TurfSync.Stmt.Reply Err G}

/-- A statement of bookings and coupons, as an automaton of the booking services sees it. -/
theorem act_answers (hact : ∀ s view w, A.answers (.stmt s) (TurfSync.Stmt.act cfg s view w).reply)
    (s : Stmt) (view w : World) : A.lift.lift.answers (.stmt s) (act cfg s view w).reply := by
  rcases s with (s | s) | s
  · exact hact s _ _
  · trivial
  · trivial

theorem answered (hact : ∀ s view w, A.answers (.stmt s) (TurfSync.Stmt.act cfg s view w).reply)
    (hA : A.Answered (TurfSync.engine cfg)) : A.lift.lift.Answered (engine cfg) where
  exec l w m := by
    cases m with
    | stmt s => exact Engine.exec_reply (fun view => act_answers hact s view w) l
    | begin => exact hA.exec .idle ⟨w.db, w.out, []⟩ .begin
    | commit => exact hA.exec .idle ⟨w.db, w.out, []⟩ .commit
    | rollback => exact hA.exec .idle ⟨w.db, w.out, []⟩ .rollback
  fault m := by
    cases m with
    | stmt s =>
      rcases s with (s | s) | s
      · exact hA.fault (.stmt s)
      · trivial
      · trivial
    | begin => exact hA.fault .begin
    | commit => exact hA.fault .commit
    | rollback => exact hA.fault .rollback

/-- A coupon call issues statements on coupons only. -/
theorem coupon_obeys {p : CouponAdmin.Op CouponAdmin.Reply}
    (hp : Script.Uses (fun m => ∃ t, m = .stmt (.inr t)) (fun _ => True) p) :
    (coupon p).Obeys A.lift.lift A.init fun _ _ => True := by
  have hobeys : (Script.embed p : Op CouponAdmin.Reply).Obeys A.lift.lift A.init fun g _ => g = A.init :=
    Script.obeys_embed (Script.obeys_right hp)
  refine Script.obeys_bind (Script.obeys_mono hobeys fun g r _ => ?_)
  cases r <;> trivial

theorem turf_obeys {p : Op Reply}
    (hp : Script.Uses (fun m => ∃ t, m = .stmt (.inr t)) (fun _ => True) p) :
    p.Obeys A.lift.lift A.init fun _ _ => True :=
  Script.obeys_mono (Script.obeys_right hp) fun _ _ _ => trivial

theorem booking_obeys {c : TurfSync.Call} (hc : (c.body cfg).Obeys A A.init fun _ _ => True) :
    (booking (c.body cfg)).Obeys A.lift.lift A.init fun _ _ => True := by
  have hobeys : (Script.embed (Script.embed (c.body cfg)) : Op TurfSync.Reply).Obeys A.lift.lift
      A.init fun _ _ => True := Script.obeys_embed (Script.obeys_embed hc)
  refine Script.obeys_bind (Script.obeys_mono hobeys fun g r _ => ?_)
  cases r <;> trivial

end

theorem uses_find {β : Type} {q : CouponAdmin.Find} {f : q.Reply → CouponAdmin.Op β} {P : β → Prop}
    (hf : ∀ a, Script.Uses (fun m => ∃ t, m = .stmt (.inr t)) P (f a)) :
    Script.Uses (fun m => ∃ t, m = .stmt (.inr t)) P ((CouponAdmin.find q).bind f) :=
  Script.uses_perform_bind ⟨_, rfl⟩ hf

theorem uses_change {β : Type} {u : CouponAdmin.Change} {f : Coupon → CouponAdmin.Op β} {P : β → Prop}
    (hf : ∀ a, Script.Uses (fun m => ∃ t, m = .stmt (.inr t)) P (f a)) :
    Script.Uses (fun m => ∃ t, m = .stmt (.inr t)) P ((CouponAdmin.change u).bind f) :=
  Script.uses_perform_bind ⟨_, rfl⟩ hf

theorem body_obeys {cfg : Config} {G : Type} {A : Automaton TurfSync.Stmt TurfSync.Stmt.Reply Err G}
    (hbase : ∀ c : TurfSync.Call, (c.body cfg).Obeys A A.init fun _ _ => True) (c : Call) :
    (c.body cfg).Obeys A.lift.lift A.init fun _ _ => True := by
  cases c with
  | booking c => exact booking_obeys (hbase c)
  | createCoupon dto =>
    refine coupon_obeys (uses_find fun exists_ => ?_)
    split_ifs
    · trivial
    · exact uses_change fun _ => trivial
  | updateCoupon id dto =>
    have hsave : ∀ dto, Script.Uses (fun m => ∃ t, m = .stmt (.inr t)) (fun _ => True)
        (CouponAdmin.CouponService.save id dto) := fun dto => uses_change fun _ => trivial
    refine coupon_obeys (uses_find fun coupon => ?_)
    cases coupon with
    | none => trivial
    | some c =>
      simp only
      split
      · split_ifs
        · exact hsave _
        · refine uses_find fun exists_ => ?_
          split_ifs
          · trivial
          · exact hsave _
      · exact hsave _
  | toggleActive id =>
    refine coupon_obeys (uses_find fun coupon => ?_)
    cases coupon with
    | none => trivial
    | some c => exact uses_change fun _ => trivial
  | deleteCoupon id =>
    refine coupon_obeys (uses_find fun coupon => ?_)
    cases coupon with
    | none => trivial
    | some c =>
      simp only
      split_ifs
      · trivial
      · exact uses_change fun _ => trivial
  | updateTurf id dto =>
    refine turf_obeys (Script.uses_perform_bind ⟨_, rfl⟩ fun turf => ?_)
    cases turf with
    | none => trivial
    | some t => exact Script.uses_perform_bind ⟨_, rfl⟩ fun _ => trivial
  | removeTurf id =>
    refine turf_obeys (Script.uses_perform_bind ⟨_, rfl⟩ fun turf => ?_)
    cases turf with
    | none => trivial
    | some t => exact Script.uses_perform_bind ⟨_, rfl⟩ fun _ => trivial

end TurfSync.Catalogue
