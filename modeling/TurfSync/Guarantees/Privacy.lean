import TurfSync.Guarantees.Slots
import TurfSync.Protocol.Spares
import TurfSync.Services.Customer

/-! Users cannot touch each other's bookings: whatever one of them calls, the rows of the
others stay, Stripe is asked for nothing of theirs, and no reply shows them. -/

namespace TurfSync

open Txn

/-! ### Reviews -/

namespace Reviews

/-- A review is written for the user, of a booking found to be the user's. -/
def owning (u : UserId) : Automaton Stmt Stmt.Reply Err (List Booking) where
  init := []
  may g
    | .stmt (.reviewCreate d) => d.userId = u ∧ ∃ b ∈ g, b.id = d.bookingId
    | .stmt _ => True
    | _ => False
  answers
    | .stmt (.reviewCreate d), .ok r => r.userId = d.userId ∧ r.bookingId = d.bookingId
    | _, _ => True
  next g
    | .stmt (.query (.bookingFindUnique _)), .ok (some b) => if b.userId = u then b :: g else g
    | _, _ => g

/-- The review that is returned is the user's, of the user's booking. -/
def Ends (u : UserId) (g : List Booking) (r : Except Err Review) : Prop :=
  ∀ review, r = .ok review → review.userId = u ∧ ∃ b ∈ g, b.id = review.bookingId

theorem createReview_obeys (dto : CreateReviewDto) (u : UserId) :
    (ReviewService.createReview dto u).Obeys (owning u) [] (Ends u) := by
  refine Script.obeys_stmt trivial (fun found _ => ?_) fun _ => nofun
  cases found with
  | none => exact nofun
  | some booking =>
    dsimp only
    split_ifs with huser
    · exact nofun
    · exact nofun
    have hnext : (owning u).next [] (.stmt (.query (.bookingFindUnique dto.bookingId))) (.ok (some booking)) =
        [booking] := if_pos (not_not.mp huser)
    rw [hnext]
    refine Script.obeys_stmt trivial (fun existingReview _ => ?_) fun _ => nofun
    cases existingReview with
    | some _ => exact nofun
    | none =>
      refine Script.obeys_stmt ⟨rfl, booking, List.mem_cons_self, rfl⟩ (fun review hreview => ?_)
        fun _ => nofun
      refine Script.obeys_bind (Script.obeys_stmt trivial (fun avg _ => ⟨trivial, fun r _ => ?_⟩)
        fun _ => nofun)
      cases r with
      | error e => exact nofun
      | ok _ =>
        rintro _ ⟨⟩
        exact ⟨hreview.1, booking, List.mem_cons_self, hreview.2.symm⟩

/-- A call of `u` that found the world `w₀`. -/
structure Under (u : UserId) (w₀ : World) (g : List Booking) (l : Local Empty Write) (w : World) : Prop where
  idle : l.tx = none
  held : ∀ b ∈ g, b ∈ w.db.bookings ∧ b.userId = u
  bookings : w.db.bookings = w₀.db.bookings
  reviews : ∀ v, v ≠ u → w.db.reviews.filter (·.userId = v) = w₀.db.reviews.filter (·.userId = v)
  uuid : w₀.uuid ≤ w.uuid

theorem Under.answers {u : UserId} {w₀ w : World} {g : List Booking} {l : Local Empty Write}
    (h : Under u w₀ g l w) (m : Cmd Stmt) : (owning u).answers m (engine.exec l w m).reply := by
  cases m with
  | stmt s =>
    rw [Engine.exec_auto h.idle]
    cases s with
    | reviewCreate d =>
      show (owning u).answers (.stmt (.reviewCreate d)) (Stmt.act (.reviewCreate d) w w).reply
      simp only [Stmt.act]
      split_ifs
      · trivial
      · trivial
      · exact ⟨rfl, rfl⟩
    | _ => trivial
  | _ => trivial

theorem Under.step {u : UserId} {w₀ w : World} {g : List Booking} {l : Local Empty Write}
    (h : Under u w₀ g l w) (c : Session Call) (m : Cmd Stmt) (hmay : (owning u).may g m) :
    Under u w₀ ((owning u).next g m (engine.exec l w m).reply) (engine.exec l w m).loc
      (engine.after c (engine.exec l w m)) := by
  cases m with
  | stmt s =>
    rw [Engine.after_auto h.idle, Engine.exec_auto h.idle]
    cases s with
    | query q =>
      cases q with
      | bookingFindUnique id =>
        show Under u w₀ ((owning u).next g (.stmt (.query (.bookingFindUnique id))) (.ok (w.db.booking? id))) l w
        cases hfound : w.db.booking? id with
        | none => exact { h with }
        | some b =>
          show Under u w₀ (if b.userId = u then b :: g else g) l w
          split_ifs with huser
          · exact { h with held := List.forall_mem_cons.mpr ⟨⟨(Rows.lookup_some hfound).1, huser⟩, h.held⟩ }
          · exact h
      | reviewFindUnique bookingId => exact { h with }
    | reviewCreate d =>
      have hkept : ∀ r w', w'.db.bookings = w.db.bookings → w.uuid ≤ w'.uuid →
          (w'.db.reviews = w.db.reviews ∨ ∃ row : Review, w'.db.reviews = w.db.reviews ++ [row] ∧ row.userId = u) →
          Under u w₀ ((owning u).next g (.stmt (.reviewCreate d)) r) l w' := by
        intro r w' hbookings huuid hreviews
        refine ⟨h.idle, hbookings ▸ h.held, hbookings.trans h.bookings, fun v hv => ?_, h.uuid.trans huuid⟩
        rcases hreviews with hreviews | ⟨row, hreviews, rfl⟩
        · rw [hreviews]
          exact h.reviews v hv
        · have hrow : ¬ row.userId = v := Ne.symm hv
          rw [hreviews, List.filter_append, h.reviews v hv]
          simp [hrow]
      by_cases hforeign : (w.db.booking? d.bookingId).isNone ∨ (w.db.turf? d.turfId).isNone
      · have hact : engine.act (.reviewCreate d) w w = ⟨.error .P2003, [], [], w⟩ := if_pos hforeign
        rw [hact]
        exact hkept _ w rfl (Nat.le_refl _) (.inl rfl)
      by_cases hunique : ∃ r ∈ w.db.reviews, r.bookingId = d.bookingId
      · have hact : engine.act (.reviewCreate d) w w = ⟨.error .P2002, [], [], w⟩ :=
          (if_neg hforeign).trans (if_pos hunique)
        rw [hact]
        exact hkept _ w rfl (Nat.le_refl _) (.inl rfl)
      · have hact : engine.act (.reviewCreate d) w w = ⟨.ok (d.row w.uuid w.now), [],
            [.reviewInsert (d.row w.uuid w.now)], { w with uuid := w.uuid + 1 }⟩ :=
          (if_neg hforeign).trans (if_neg hunique)
        rw [hact, if_neg (List.cons_ne_nil _ _)]
        exact hkept _ _ rfl (Nat.le_succ _) (.inr ⟨_, rfl, hmay.1⟩)
    | reviewAverage turfId => exact { h with }
    | turfUpdate id rating =>
      by_cases hturf : (w.db.turf? id).isNone
      · have hact : engine.act (.turfUpdate id rating) w w = ⟨.error .P2025, [], [], w⟩ := if_pos hturf
        rw [hact]
        exact { h with }
      · have hact : engine.act (.turfUpdate id rating) w w =
            ⟨.ok (), [], [.turfRating id rating w.now], w⟩ := if_neg hturf
        rw [hact, if_neg (List.cons_ne_nil _ _)]
        exact { h with }
  | _ => exact hmay.elim

/-- A call of `createReview` that runs alone. -/
theorem solo_under (c : Session Call) (dto : CreateReviewDto) (u : UserId) (w : World) :
    let r := engine.solo c (ReviewService.createReview dto u) .idle w
    ∃ g, Ends u g r.1 ∧ Under u w g r.2.1 r.2.2 :=
  Engine.solo_obeys (E := engine) (I := fun g l w' => Under u w g l w') (fun _ _ _ m h _ => h.answers m)
    (fun _ _ _ m h hmay _ => h.step c m hmay) (createReview_obeys dto u)
    ⟨rfl, nofun, rfl, fun _ _ => rfl, Nat.le_refl _⟩

end Reviews

/-! ### The calls of a user -/

namespace Customer

def World.reviewsBy (w : World) (v : UserId) : List Review := w.reviews.filter (·.userId = v)

/-- What a reply shows is the user's. -/
def Reply.Only (u : UserId) (db : Db) : Reply → Prop
  | .done r => r.Only u db
  | .status payment => ∃ p ∈ db.payments, db.Owns u p.bookingId ∧ payment = p.view
  | .review r => r.userId = u ∧ db.Owns u r.bookingId
  | .found b => b.booking ∈ db.bookings ∧ b.booking.userId = u ∧
    ∀ summary ∈ b.payment, ∃ p ∈ db.payments, p.bookingId = b.booking.id ∧ summary = p.summary

/-- Between `w` and `w'` the other users' rows are the same, and Stripe is asked for none of
their bookings. -/
structure World.Spares (u : UserId) (w w' : World) : Prop where
  base : w.base.Spares u w'.base
  reviews : ∀ v, v ≠ u → w'.reviewsBy v = w.reviewsBy v

variable {cfg : Config} {u : UserId} {w w' w'' : World}

theorem World.Spares.refl (u : UserId) (w : World) : w.Spares u w :=
  ⟨.refl u w.base, fun _ _ => rfl⟩

theorem World.Spares.trans (h : w.Spares u w') (h' : w'.Spares u w'') : w.Spares u w'' :=
  ⟨h.base.trans h'.base, fun v hv => (h'.reviews v hv).trans (h.reviews v hv)⟩

/-- A call keeps the rows of the others and shows the user's only. -/
structure Served (u : UserId) (w : World) (r : Except Err Reply × World) : Prop where
  spares : w.Spares u r.2
  sane : r.2.base.db.Sane r.2.base.out.uuid
  only : ∀ reply, r.1 = .ok reply → reply.Only u r.2.base.db

theorem ok_of_map {α β : Type} {f : α → β} {r : Except Err α} {b : β} (h : r.map f = .ok b) :
    ∃ a, r = .ok a ∧ f a = b := by
  cases r with
  | error e => cases h
  | ok a => exact ⟨a, rfl, Except.ok.inj h⟩

theorem serve_served {c : TurfSync.Call}
    (hc : (c.body cfg).Obeys (owning u) (owning u).init (Own.Ends Own.Replies))
    (hw : w.base.db.Sane w.base.out.uuid) : Served u w (serve cfg c w) := by
  obtain ⟨hspares, hsane, honly⟩ := @solo_spares cfg u ⟨w.base.history.length, c⟩ _ w.base hc hw
  refine ⟨⟨hspares, fun _ _ => rfl⟩, hsane, fun reply hreply => ?_⟩
  obtain ⟨r, hr, rfl⟩ := ok_of_map hreply
  exact honly r hr

theorem createReview_served (dto : CreateReviewDto) (hw : w.base.db.Sane w.base.out.uuid) :
    Served u w (Call.exec cfg u w (.createReview dto)) := by
  obtain ⟨g, hends, hunder⟩ := Reviews.solo_under ⟨w.base.history.length, ⟨dto, u⟩⟩ dto u w.reviewing
  have hbookings : (Call.exec cfg u w (.createReview dto)).2.base.db.bookings = w.base.db.bookings :=
    hunder.bookings
  have howns : ∀ v id, (Call.exec cfg u w (.createReview dto)).2.base.db.Owns v id ↔ w.base.db.Owns v id :=
    fun v id => by rw [Db.Owns, hbookings]; rfl
  refine ⟨⟨⟨⟨?_, ?_, fun _ _ => rfl, fun v id hid => (howns v id).mpr hid⟩,
    ⟨[], (List.append_nil _).symm, List.forall_mem_nil _⟩,
    ⟨[], (List.append_nil _).symm, List.forall_mem_nil _⟩⟩, hunder.reviews⟩, ?_, ?_⟩
  · intro v _
    rw [Db.bookingsOf, hbookings]
    rfl
  · intro v _
    exact List.filter_congr fun p _ => decide_eq_decide.mpr (howns v p.bookingId)
  · have hsane := hw.mono hunder.uuid
    exact { hsane with
      bookings := hbookings ▸ hsane.bookings
      bookingIds := hbookings ▸ hsane.bookingIds
      booked := hbookings ▸ hsane.booked }
  · intro reply hreply
    obtain ⟨review, hreview, rfl⟩ := ok_of_map hreply
    obtain ⟨huser, b, hb, hid⟩ := hends review hreview
    exact ⟨huser, b, (hunder.held b hb).1, hid, (hunder.held b hb).2⟩

theorem getPaymentStatus_served (bookingId : BookingId) (hw : w.base.db.Sane w.base.out.uuid) :
    Served u w (Call.exec cfg u w (.getPaymentStatus bookingId)) := by
  refine ⟨.refl u w, hw, fun reply hreply => ?_⟩
  obtain ⟨view, hview, rfl⟩ := ok_of_map hreply
  simp only [PaymentService.getPaymentStatus] at hview
  split at hview
  · cases hview
  rename_i payment hpayment
  split_ifs at hview with huser
  obtain rfl := Except.ok.inj hview
  obtain ⟨b, hb, hbu⟩ := Option.map_eq_some_iff.mp (not_not.mp huser)
  obtain ⟨hmem, hid⟩ := Db.mem_of_booking? hb
  exact ⟨payment, (Rows.lookup_some hpayment).1, ⟨b, hmem, hid, hbu⟩, rfl⟩

theorem findOne_served (id : BookingId) (hw : w.base.db.Sane w.base.out.uuid) :
    Served u w (Call.exec cfg u w (.findOne id)) := by
  refine ⟨.refl u w, hw, fun reply hreply => ?_⟩
  obtain ⟨view, hview, rfl⟩ := ok_of_map hreply
  simp only [BookingService.findOne] at hview
  split at hview
  · cases hview
  rename_i d hd
  split_ifs at hview with huser
  obtain rfl := Except.ok.inj hview
  simp only [Db.bookingDetail?, Option.bind_eq_bind, Option.bind_eq_some_iff] at hd
  obtain ⟨b, hb, turf, -, slot, -, hd⟩ := hd
  obtain rfl := Option.some.inj hd
  obtain ⟨hmem, rfl⟩ := Db.mem_of_booking? hb
  refine ⟨hmem, ?_, fun summary hsummary => ?_⟩
  · by_contra hne
    exact huser ⟨by decide, hne⟩
  · obtain ⟨p, hp, rfl⟩ := Option.map_eq_some_iff.mp hsummary
    obtain ⟨hmem', hid⟩ := Rows.lookup_some hp
    exact ⟨p, hmem', hid, rfl⟩

theorem Call.served (c : Call) (hw : w.base.db.Sane w.base.out.uuid) : Served u w (c.exec cfg u w) := by
  cases c with
  | create dto => exact serve_served (create_obeys cfg dto w.base.out.now) hw
  | cancel id => exact serve_served (cancel_obeys id) hw
  | createPaymentIntent bookingId => exact serve_served (payment_obeys cfg bookingId) hw
  | getPaymentStatus bookingId => exact getPaymentStatus_served bookingId hw
  | refund bookingId => exact serve_served (refund_obeys bookingId) hw
  | createReview dto => exact createReview_served dto hw
  | findOne id => exact findOne_served id hw

theorem Step.spares (step : Step) (cfg : Config) (u : UserId) (hw : w.base.db.Sane w.base.out.uuid) :
    w.Spares u (step.exec cfg u w) ∧
      (step.exec cfg u w).base.db.Sane (step.exec cfg u w).base.out.uuid := by
  cases step with
  | call c => exact ⟨(c.served hw).spares, (c.served hw).sane⟩
  | env v =>
    refine ⟨⟨.of_out rfl ?_ ?_, fun _ _ => rfl⟩, ?_⟩ <;> cases v
    · rfl
    · rfl
    · rfl
    · rfl
    · exact hw
    · exact hw

theorem run_spares (cfg : Config) (u : UserId) (steps : List Step) (hw : w.base.db.Sane w.base.out.uuid) :
    w.Spares u (run cfg u w steps) ∧
      (run cfg u w steps).base.db.Sane (run cfg u w steps).base.out.uuid := by
  induction steps generalizing w with
  | nil => exact ⟨.refl u w, hw⟩
  | cons step steps ih =>
    obtain ⟨hspares, hsane⟩ := step.spares cfg u hw
    obtain ⟨hspares', hsane'⟩ := ih hsane
    exact ⟨hspares.trans hspares', hsane'⟩

end Customer

/-- Reachable databases are sane. -/
theorem Sys.Fresh.sane {s : Sys} (hs : s.Fresh) (cfg : Config) (as : List Act) :
    ((service cfg).run s as).world.db.Sane ((service cfg).run s as).world.out.uuid := by
  have hkeeps : Sys.Keeps cfg (fun _ => True) ((service cfg).run s as) :=
    (hs.initial.always stable_true trivial).last
  have hw := hkeeps.inv.1
  exact ⟨hw.valid.bookings, hw.bookingIds, hw.valid.payments, hw.paymentIds, hw.valid.paymentBooking,
    hw.valid.intents⟩

/-- Whatever user `u` calls, from any reachable state on, the bookings, payments, coupon
usages and reviews of another user stay, Stripe is asked for nothing of them, and every reply
is about the user's own. -/
theorem users_apart {s : Sys} (hs : s.Fresh) (cfg : Config) (as : List Act) (reviews : List Review)
    {u v : UserId} (huv : v ≠ u) (steps : List Customer.Step) :
    let w : Customer.World := ⟨((service cfg).run s as).world, reviews⟩
    let w' := Customer.run cfg u w steps
    (w'.base.db.bookingsOf v = w.base.db.bookingsOf v ∧ w'.base.db.paymentsOf v = w.base.db.paymentsOf v ∧
      w'.base.db.usagesBy v = w.base.db.usagesBy v ∧ w'.reviewsBy v = w.reviewsBy v) ∧
    (∃ rs, w'.base.out.intentRequests = w.base.out.intentRequests ++ rs ∧
      ∀ r ∈ rs, ¬ w.base.db.Owns v r.bookingId) ∧
    (∃ is, w'.base.out.refunds = w.base.out.refunds ++ is ∧ ∀ i ∈ is, ¬ w.base.db.Owns v i.bookingId) ∧
    ∀ (c : Customer.Call) (reply : Customer.Reply), (c.exec cfg u w').1 = .ok reply →
      reply.Only u (c.exec cfg u w').2.base.db := by
  intro w w'
  have hw : w.base.db.Sane w.base.out.uuid := hs.sane cfg as
  obtain ⟨hspares, hsane⟩ := Customer.run_spares cfg u steps hw
  obtain ⟨rs, hrs, hrequests⟩ := hspares.base.requests
  obtain ⟨is, his, hrefunds⟩ := hspares.base.refunds
  refine ⟨⟨hspares.base.apart.bookings v huv, hspares.base.apart.payments v huv,
    hspares.base.apart.usages v huv, hspares.reviews v huv⟩, ⟨rs, hrs, fun r hr => hrequests r hr v huv⟩,
    ⟨is, his, fun i hi => hrefunds i hi v huv⟩, fun c reply hreply => ?_⟩
  exact (c.served hsane).only reply hreply

theorem users_apart_sold :
    let w : Customer.World := ⟨((service (Arena.cfg true)).run Arena.sys Arena.sold).world, []⟩
    let w' := Customer.run (Arena.cfg true) 2 w
      [.call (.cancel 101), .call (.refund 101), .call (.create (Arena.dto 2 (some "TEN")))]
    w'.base.db.bookingsOf 7 = w.base.db.bookingsOf 7 ∧ (w.base.db.bookingsOf 7).length = 1 ∧
      (w'.base.db.bookingsOf 2).length = 1 :=
  ⟨(users_apart Arena.fresh (Arena.cfg true) Arena.sold [] (u := 2) (v := 7) (by decide) _).1.1,
    by decide +kernel, by decide +kernel⟩

end TurfSync
