import TurfSync.Guarantees.Coupons

/-! What a failed `create` leaves in the database. Its booking is committed before its coupon
is counted and before its Redis lock is released; if one of these fails, the call throws and
the booking stays. So a call that throws leaves no trace as long as nothing fails after its
booking that `create` does not catch. -/

namespace TurfSync

open Txn

variable {cfg : Config} {c : Session Call} {w : World} {s : Sys} {as : List Act}

/-- The writes that the other calls have committed. -/
def World.others (w : World) (i : ℕ) : List Write :=
  (w.history.filter (·.session.id ≠ i)).flatMap (·.writes)

/-- A call of `create` that has thrown is not to be seen in the database: it is what the
other calls have made of the database that they all started with. -/
def Traceless (db : Db) (t : Sys) : Prop :=
  ∀ i dto userId now e, t.Ended i (.create dto userId now) (.error e) →
    t.world.db = db.applyAll (t.world.others i)

/-- The commands whose failure `create` catches. -/
def caught : Cmd Stmt → Bool
  | .stmt (.external (.delByPattern _)) => true
  | .stmt (.external (.queueAdd _)) => true
  | _ => false

/-- Once the booking of a call is committed, none of its commands fails whose failure is not
caught; and a coupon row that is locked does not turn the user down. -/
def Intact (c : Session Call) (_ : Local Key Write) (w : World) (m : Cmd Stmt) : Bool → Prop
  | true => caught m = false → c.call.buyer.isSome → w.Unbooked c.id
  | false => ∀ id ∈ couponLock m, ∀ coupon ∈ w.db.coupon? id, ∀ userId ∈ c.call.buyer,
    ¬ coupon.Rejects userId w.db

instance (c : Session Call) (l : Local Key Write) (w : World) (m : Cmd Stmt) :
    (fails : Bool) → Decidable (Intact c l w m fails)
  | true => inferInstanceAs (Decidable (_ = false → _ = true → w.Unbooked c.id))
  | false => inferInstanceAs (Decidable (∀ id ∈ couponLock m, ∀ coupon ∈ w.db.coupon? id,
      ∀ userId ∈ c.call.buyer, ¬ coupon.Rejects userId w.db))

/-! ### The history -/

/-- The history accounts for the database. -/
def Replayed (db : Db) (w : World) : Prop := w.db = db.applyAll (w.history.flatMap (·.writes))

theorem stable_replayed (db : Db) : Stable cfg (Replayed db) where
  out _ _ h := h
  commit {c w ws} _ h _ := by
    have hhistory : (Commits.result c ws w).history = w.history ++ [⟨c, ws, w.db⟩] := rfl
    show w.db.applyAll ws = _
    rw [hhistory, List.flatMap_append, List.flatMap_singleton, Db.applyAll, h, Db.applyAll, Db.applyAll,
      List.foldl_append]

theorem Sys.Initial.replayed (h : s.Initial cfg) : Replayed s.world.db s.world := by
  rw [Replayed, h.history]
  rfl

theorem World.Unbooked.others {i : ℕ} (h : w.Unbooked i) :
    w.others i = w.history.flatMap (·.writes) := by
  rw [World.others, List.filter_eq_self.mpr fun e he => decide_eq_true (h e he)]

/-! ### The calls -/

/-- A call of `create` that ends with an error has committed nothing. -/
def Failing (c : Session Call) (r : Except Err Reply) (w : World) : Prop :=
  c.call.buyer.isSome → ∀ e, r = .error e → w.Unbooked c.id

theorem create_failing {J : World → Prop} (hJ : Stable cfg J) {n : ℕ} {dto : CreateBookingDto}
    {userId : UserId} {now : Time} (hu : w.Unbooked n) :
    wp (engine cfg) (rules cfg J Intact) ⟨n, .create dto userId now⟩
      (BookingService.create cfg dto userId now)
      (fun r _ w => Failing ⟨n, .create dto userId now⟩ r w) .idle w := by
  refine create_post hJ rfl (fun _ _ _ hf h hb e he => hf.unbooked (h hb e he))
    (fun _ _ hu _ _ _ => hu) (fun _ _ _ _ _ he => by cases he)
    (fun quote id w' hw hj hquote hsold => ?_) (fun _ w' _ _ ha _ _ _ => ha rfl rfl) hu
  refine applyCoupon_wp hJ rfl hw hquote hsold ?_ ?_ ?_
  · -- the booking is committed, so that no command of the coupon transaction fails
    intro l w₁ m hext hf ha
    obtain ⟨e, he, hn, -⟩ := (hsold.found hf).booked
    have hcaught : caught m = false := by
      unfold caught
      split
      · exact absurd rfl (hext _)
      · exact absurd rfl (hext _)
      · rfl
    exact absurd hn (ha hcaught rfl e he)
  · intro l w₁ coupon _ ha hcoupon hrejects
    exact absurd hrejects (ha _ rfl coupon hcoupon userId rfl)
  · exact fun u w₁ w₂ _ _ _ _ _ => ⟨rfl, fun _ _ _ he => by cases he⟩

theorem body_failing {J : World → Prop} (hJ : Stable cfg J) {n : ℕ} {call : Call}
    (hu : w.Unbooked n) :
    wp (engine cfg) (rules cfg J Intact) ⟨n, call⟩ (call.body cfg)
      (fun r _ w => Failing ⟨n, call⟩ r w) .idle w := by
  cases call with
  | create dto userId now => exact create_failing hJ hu
  | _ => exact wp_mono (body_keeps hJ hu) fun _ _ _ _ _ hb => by cases hb

/-- In every run in which nothing fails after a booking, other than what is caught, a call
of `create` that throws leaves no trace. -/
theorem traceless_of_intact (hs : s.Initial cfg)
    (hM : (service cfg).Each (Permits (service cfg) Intact) s as) :
    (service cfg).Always (Traceless s.world.db) s as := by
  have hJ : Stable cfg (Replayed s.world.db) := stable_replayed _
  have hstarts : Starts (service cfg) (rules cfg (Replayed s.world.db) Intact)
      (fun c r _ w => Failing c r w) :=
    starts_of_body hJ fun _ _ _ _ _ hu => body_failing hJ hu
  have hsound := Service.always_sound (rules_lawful hJ) hstarts (hs.sound hs.replayed) hM
  refine hsound.mono fun t ht i dto userId now e he => ?_
  obtain ⟨-, hfailing⟩ := ht.post (rules_lawful hJ) he
  have hunbooked : t.world.Unbooked i := hfailing rfl e rfl
  have hreplayed : Replayed s.world.db t.world := ht.inv.2
  rw [hunbooked.others]
  exact hreplayed

/-- Users 7 and 8 ask for slot 1; the call of user 8 throws. -/
theorem traceless_second : (service (Arena.cfg true)).Always (Traceless Arena.sys.world.db)
    Arena.sys (Arena.first 0 (.create (Arena.dto 1 (some "TEN")) 7 0) 25 ++
      Arena.first 1 (.create (Arena.dto 1 none) 8 0) 25) :=
  traceless_of_intact Arena.fresh.initial (by decide +kernel)

/-- User 8 uses up the coupon between the quote and the booking of user 7, whose call throws,
and whose booking stays. -/
theorem traceless_fails :
    let t := (service (Arena.cfg true)).run Arena.sys
      (Arena.first 0 (.create (Arena.dto 1 (some "TEN")) 7 0) 3 ++
        Arena.first 1 (.create (Arena.dto 2 (some "TEN")) 8 0) 25 ++ List.replicate 25 (.run 0))
    t.Ended 0 (.create (Arena.dto 1 (some "TEN")) 7 0)
        (.error (.badRequest "Coupon usage limit has been reached")) ∧
      t.world.db.bookings.map (·.userId) = [8, 7] ∧ ¬ Traceless Arena.sys.world.db t := by
  intro t
  have hended : t.Ended 0 (.create (Arena.dto 1 (some "TEN")) 7 0)
      (.error (.badRequest "Coupon usage limit has been reached")) := by decide +kernel
  refine ⟨hended, by decide +kernel, fun h => ?_⟩
  have hbookings := congrArg Db.bookings (h 0 _ _ _ _ hended)
  exact absurd hbookings (by decide +kernel)

end TurfSync
