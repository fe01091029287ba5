import TurfSync.Protocol.CouponAdmin
import TurfSync.Protocol.Owning
import TurfSync.Protocol.Payment

/-! What a call of one user does to the rows of the others, when it runs alone: nothing. -/

namespace TurfSync

open Txn

/-! ### One statement -/

/-- The rows in hand are in the database and the user's. -/
structure Own.Held (u : UserId) (g : Own) (db : Db) : Prop where
  bookings : ∀ b ∈ g.bookings, b ∈ db.bookings ∧ b.userId = u
  payments : ∀ p ∈ g.payments, p ∈ db.payments ∧ db.Owns u p.bookingId

/-- What a statement does that may come next: it answers, makes at most one write, which is
the user's, and asks Stripe for the user's bookings only. -/
structure Acted (u : UserId) (g : Own) (s : Stmt) (db : Db) (w : World)
    (e : Effect Err Key Write World s.Reply) : Prop where
  answers : (owning u).answers (.stmt s) e.reply
  writes : e.writes = [] ∨ ∃ x, e.writes = [x] ∧ x.By u db e.world.out.uuid
  held : ((owning u).next g (.stmt s) e.reply).Held u (db.applyAll e.writes)
  inTx : ((owning u).next g (.stmt s) e.reply).inTx = g.inTx
  requests : ∃ rs, e.world.out.intentRequests = w.out.intentRequests ++ rs ∧
    ∀ r ∈ rs, db.Owns u r.bookingId
  refunds : ∃ is, e.world.out.refunds = w.out.refunds ++ is ∧ ∀ i ∈ is, db.Owns u i.bookingId

section

variable {cfg : Config} {u : UserId} {g : Own} {db : Db} {view w : World} {s : Stmt}

theorem Own.Held.none (u : UserId) (db : Db) (inTx : Bool) : Own.Held u ⟨[], [], inTx⟩ db :=
  ⟨by simp, by simp⟩

theorem Own.Held.of_tables (h : g.Held u db) {db' : Db} (hb : db'.bookings = db.bookings)
    (hp : db'.payments = db.payments) : g.Held u db' where
  bookings := hb ▸ h.bookings
  payments p hmem := by
    obtain ⟨hmem', b, hb', hid⟩ := h.payments p hmem
    exact ⟨hp ▸ hmem', b, hb ▸ hb', hid⟩

theorem Own.Held.owns (h : g.Held u db) {id : BookingId} (hid : ∃ b ∈ g.bookings, b.id = id) :
    db.Owns u id := by
  obtain ⟨b, hb, rfl⟩ := hid
  exact ⟨b, (h.bookings b hb).1, rfl, (h.bookings b hb).2⟩

/-- A statement that leaves the tables of bookings and payments and Stripe alone. -/
theorem acted_rest (hg : g.Held u view.db)
    (hanswers : (owning u).answers (.stmt s) (Stmt.act cfg s view w).reply)
    (hnext : (owning u).next g (.stmt s) (Stmt.act cfg s view w).reply = g)
    (hwrites : (Stmt.act cfg s view w).writes = [] ∨ ∃ x, (Stmt.act cfg s view w).writes = [x] ∧
      (∀ db uuid, x.By u db uuid) ∧ (view.db.apply x).bookings = view.db.bookings ∧
      (view.db.apply x).payments = view.db.payments)
    (hrequests : (Stmt.act cfg s view w).world.out.intentRequests = w.out.intentRequests)
    (hrefunds : (Stmt.act cfg s view w).world.out.refunds = w.out.refunds) :
    Acted u g s view.db w (Stmt.act cfg s view w) where
  answers := hanswers
  writes := hwrites.imp_right fun ⟨x, hx, hby, _⟩ => ⟨x, hx, hby _ _⟩
  held := by
    rw [hnext]
    rcases hwrites with hx | ⟨x, hx, -, hb, hp⟩
    · rw [hx]
      exact hg
    · rw [hx]
      exact hg.of_tables hb hp
  inTx := by rw [hnext]
  requests := ⟨[], by rw [hrequests, List.append_nil], nofun⟩
  refunds := ⟨[], by rw [hrefunds, List.append_nil], nofun⟩

/-- A read keeps what it finds to be the user's. -/
theorem acted_read {q : Query} (hanswers : (owning u).answers (.stmt (.query q)) (.ok (q.eval view.db)))
    (hheld : ((owning u).next g (.stmt (.query q)) (.ok (q.eval view.db))).Held u view.db)
    (hin : ((owning u).next g (.stmt (.query q)) (.ok (q.eval view.db))).inTx = g.inTx) :
    Acted u g (.query q) view.db w (Stmt.act cfg (.query q) view w) where
  answers := hanswers
  writes := .inl rfl
  held := hheld
  inTx := hin
  requests := ⟨[], (List.append_nil _).symm, nofun⟩
  refunds := ⟨[], (List.append_nil _).symm, nofun⟩

theorem Own.Held.add (hg : g.Held u db) {b : Booking} (ps : List Payment) (hb : b ∈ db.bookings)
    (hu : b.userId = u) (hps : ∀ p ∈ ps, p ∈ db.payments ∧ p.bookingId = b.id) :
    Own.Held u { g with bookings := b :: g.bookings, payments := ps ++ g.payments } db where
  bookings := List.forall_mem_cons.mpr ⟨⟨hb, hu⟩, hg.bookings⟩
  payments p hp := by
    rcases List.mem_append.mp hp with hp | hp
    · obtain ⟨hmem, hid⟩ := hps p hp
      exact ⟨hmem, b, hb, hid.symm, hu⟩
    · exact hg.payments p hp

theorem acted_query (q : Query) (hg : g.Held u view.db) (hs : view.db.Sane w.out.uuid) :
    Acted u g (.query q) view.db w (Stmt.act cfg (.query q) view w) := by
  cases q with
  | bookingFindUnique id =>
    cases hfound : view.db.booking? id with
    | none =>
      have heval : (Query.bookingFindUnique id).eval view.db = none := hfound
      refine acted_read ?_ ?_ ?_ <;> rw [heval]
      · trivial
      · exact hg
      · rfl
    | some b =>
      have heval : (Query.bookingFindUnique id).eval view.db = some b := hfound
      obtain ⟨hb, hid⟩ := Db.mem_of_booking? hfound
      refine acted_read ?_ ?_ ?_ <;> rw [heval]
      · exact hid
      · show Own.Held u (if b.userId = u then _ else g) _
        split_ifs with hu
        · exact hg.add [] hb hu (by simp)
        · exact hg
      · show Own.inTx (if b.userId = u then _ else g) = _
        split_ifs <;> rfl
  | bookingDetail id =>
    cases hfound : view.db.bookingDetail? id with
    | none =>
      have heval : (Query.bookingDetail id).eval view.db = none := hfound
      refine acted_read ?_ ?_ ?_ <;> rw [heval]
      · trivial
      · exact hg
      · rfl
    | some d =>
      have heval : (Query.bookingDetail id).eval view.db = some d := hfound
      simp only [Db.bookingDetail?, Option.bind_eq_bind, Option.bind_eq_some_iff] at hfound
      obtain ⟨b, hb, turf, -, slot, -, hd⟩ := hfound
      obtain rfl := Option.some.inj hd
      obtain ⟨hmem, rfl⟩ := Db.mem_of_booking? hb
      have hpayment : ∀ p ∈ view.db.paymentOf? b.id, p ∈ view.db.payments ∧ p.bookingId = b.id :=
        fun p hp => Rows.lookup_some hp
      refine acted_read ?_ ?_ ?_ <;> rw [heval]
      · exact ⟨rfl, fun p hp => (hpayment p hp).2⟩
      · show Own.Held u (if b.userId = u then _ else g) _
        split_ifs with hu
        · exact hg.add _ hmem hu fun p hp => hpayment p (Option.mem_toList.mp hp)
        · exact hg
      · show Own.inTx (if b.userId = u then _ else g) = _
        split_ifs <;> rfl
  | paymentDetail id =>
    cases hfound : view.db.paymentDetail? id with
    | none =>
      have heval : (Query.paymentDetail id).eval view.db = none := hfound
      refine acted_read ?_ ?_ ?_ <;> rw [heval]
      · trivial
      · exact hg
      · rfl
    | some d =>
      have heval : (Query.paymentDetail id).eval view.db = some d := hfound
      simp only [Db.paymentDetail?, Option.bind_eq_bind, Option.bind_eq_some_iff] at hfound
      obtain ⟨p, hp, b, hb, slot, -, hd⟩ := hfound
      obtain rfl := Option.some.inj hd
      obtain ⟨hmem, hid⟩ := Rows.lookup_some hp
      obtain ⟨hmem', hid'⟩ := Db.mem_of_booking? hb
      refine acted_read ?_ ?_ ?_ <;> rw [heval]
      · exact ⟨hid'.trans hid, hid, by rw [hs.intents p hmem, hid]⟩
      · show Own.Held u (if b.userId = u then _ else g) _
        split_ifs with hu
        · refine hg.add [p] hmem' hu fun p' hp' => ?_
          rw [List.mem_singleton.mp hp']
          exact ⟨hmem, hid'.symm⟩
        · exact hg
      · show Own.inTx (if b.userId = u then _ else g) = _
        split_ifs <;> rfl
  | _ => exact acted_rest hg trivial rfl (.inl rfl) rfl rfl

theorem acted_external (x : External) (hmay : (owning u).may g (.stmt (.external x)))
    (hg : g.Held u view.db) :
    Acted u g (.external x) view.db w (Stmt.act cfg (.external x) view w) := by
  cases x with
  | createIntent r =>
    refine ⟨?_, .inl rfl, hg, rfl, ⟨[r], rfl, ?_⟩,
      ⟨[], (List.append_nil _).symm, List.forall_mem_nil _⟩⟩
    · simp only [Stmt.act, External.eval]
      split_ifs
      · rfl
      · trivial
    · intro r' hr'
      rw [List.mem_singleton.mp hr']
      exact hg.owns hmay
  | createRefund i =>
    by_cases hi : i ∈ w.out.refunds
    · have heval : (External.createRefund i).eval w.out = (.error .stripe, w.out) := if_pos hi
      refine acted_rest hg trivial rfl (.inl rfl) ?_ ?_ <;> simp only [Stmt.act, heval]
    · have heval : (External.createRefund i).eval w.out = (.ok w.out.uuid,
          { w.out with refunds := w.out.refunds ++ [i], uuid := w.out.uuid + 1 }) := if_neg hi
      refine ⟨trivial, .inl rfl, hg, rfl, ⟨[], ?_, List.forall_mem_nil _⟩, ⟨[i], ?_, ?_⟩⟩
      · simp only [Stmt.act, heval, List.append_nil]
      · simp only [Stmt.act, heval]
      · intro i' hi'
        rw [List.mem_singleton.mp hi']
        exact hg.owns hmay
  | acquireLock slotId =>
    refine acted_rest hg trivial rfl (.inl rfl) ?_ ?_ <;>
    · simp only [Stmt.act, External.eval]
      split_ifs <;> rfl
  | releaseLock slotId value =>
    refine acted_rest hg trivial rfl (.inl rfl) ?_ ?_ <;>
    · simp only [Stmt.act, External.eval]
      split_ifs <;> rfl
  | _ => exact acted_rest hg trivial rfl (.inl rfl) rfl rfl

theorem acted_of_plan {v : Update} {p : Planned v.Reply}
    (hplan : v.plan cfg view.db w.out.uuid w.out.now = p)
    (hanswers : (owning u).answers (.stmt (.update v)) p.reply)
    (hwrites : p.writes = [] ∨ ∃ x, p.writes = [x] ∧ x.By u view.db (w.out.uuid + p.used))
    (hheld : ((owning u).next g (.stmt (.update v)) p.reply).Held u (view.db.applyAll p.writes))
    (hin : ((owning u).next g (.stmt (.update v)) p.reply).inTx = g.inTx) :
    Acted u g (.update v) view.db w (Stmt.act cfg (.update v) view w) := by
  subst hplan
  exact ⟨hanswers, hwrites, hheld, hin, ⟨[], (List.append_nil _).symm, nofun⟩,
    ⟨[], (List.append_nil _).symm, nofun⟩⟩

theorem acted_fail {v : Update} {e : Err} {ks : List Key} (hg : g.Held u view.db)
    (hplan : v.plan cfg view.db w.out.uuid w.out.now = .fail e ks) :
    Acted u g (.update v) view.db w (Stmt.act cfg (.update v) view w) := by
  have hnext : (owning u).next g (.stmt (.update v)) (.error e) = g := by cases v <;> rfl
  refine acted_of_plan hplan ?_ (.inl rfl) ?_ ?_
  · cases v <;> trivial
  · show ((owning u).next g (.stmt (.update v)) (.error e)).Held u _
    rw [hnext]
    exact hg
  · show ((owning u).next g (.stmt (.update v)) (.error e)).inTx = _
    rw [hnext]

/-- A write of rows that are the user's, or nobody's. -/
theorem acted_update {v : Update} (hmay : (owning u).may g (.stmt (.update v)))
    (hg : g.Held u view.db) (hs : view.db.Sane w.out.uuid) :
    Acted u g (.update v) view.db w (Stmt.act cfg (.update v) view w) := by
  cases v with
  | slotUpdate id v =>
    rcases plan_slotUpdate cfg id v view.db w.out.uuid w.out.now with hplan | hplan
    · exact acted_fail hg hplan
    · exact acted_of_plan hplan trivial (.inr ⟨_, rfl, trivial⟩) (hg.of_tables rfl rfl) rfl
  | slotUpdateMany ids v =>
    exact acted_of_plan rfl trivial (.inr ⟨_, rfl, trivial⟩) (hg.of_tables rfl rfl) rfl
  | bookingCreate d =>
    rcases plan_bookingCreate cfg view.db w.out.uuid w.out.now d with ⟨e, ks, hplan⟩ | ⟨amount, -, hplan⟩
    · exact acted_fail hg hplan
    · refine acted_of_plan hplan rfl (.inr ⟨_, rfl, hmay, fun b hb => Nat.ne_of_lt (hs.bookingIds b hb),
        Nat.lt_succ_self _⟩) ⟨?_, fun p hp => ?_⟩ rfl
      · refine List.forall_mem_cons.mpr ⟨⟨List.mem_append_right _ List.mem_cons_self, hmay⟩,
          fun b hb => ⟨List.mem_append_left _ (hg.bookings b hb).1, (hg.bookings b hb).2⟩⟩
      · exact ⟨(hg.payments p hp).1, Db.owns_insert.mpr (.inl (hg.payments p hp).2)⟩
  | bookingUpdate id status =>
    rcases plan_bookingUpdate cfg id status view.db w.out.uuid w.out.now with hplan | hplan
    · exact acted_fail hg hplan
    · refine acted_of_plan hplan trivial (.inr ⟨_, rfl, fun id' hid' => ?_⟩)
        ⟨fun b' hb' => ?_, fun p hp => ?_⟩ rfl
      · rw [List.mem_singleton.mp hid']
        exact hg.owns hmay
      · obtain ⟨b, hb, rfl⟩ := Rows.mem_update.mp hb'
        refine ⟨Rows.mem_update.mpr ⟨b, (hg.bookings b hb).1, rfl⟩, ?_⟩
        split_ifs <;> exact (hg.bookings b hb).2
      · exact ⟨(hg.payments p hp).1, Db.owns_set.mpr (hg.payments p hp).2⟩
  | bookingUpdateManyPending ids status => exact hmay.elim
  | paymentUpdate id change =>
    obtain ⟨⟨p, hp, rfl⟩, rfl⟩ := hmay
    obtain ⟨hmem, howns⟩ := hg.payments p hp
    rcases plan_paymentUpdate cfg p.id .refunded view.db w.out.uuid w.out.now with hplan | hplan
    · exact acted_fail hg hplan
    · refine acted_of_plan hplan trivial (.inr ⟨_, rfl, fun p' hp' hid => ?_⟩)
        ⟨hg.bookings, fun p' hp' => ?_⟩ rfl
      · rw [Rows.eq_of_key hs.payments hp' hmem (List.mem_singleton.mp hid)]
        exact ⟨howns, rfl⟩
      · obtain ⟨q, hq, rfl⟩ := Rows.mem_update.mp hp'
        refine ⟨Rows.mem_update.mpr ⟨q, (hg.payments q hq).1, rfl⟩, ?_⟩
        split_ifs <;> exact (hg.payments q hq).2
  | paymentUpdateMany intent change => exact hmay.elim
  | paymentUpsert bookingId amount currency intent secret =>
    obtain ⟨hbooking, rfl⟩ := hmay
    have howns := hg.owns hbooking
    rcases PaymentService.plan_paymentUpsert cfg view.db w.out.uuid w.out.now bookingId amount currency
      ⟨bookingId⟩ secret with ⟨e, ks, hplan⟩ | ⟨p, hp, hplan⟩ | ⟨-, -, hplan⟩
    · exact acted_fail hg hplan
    · obtain ⟨hmem, rfl⟩ := Rows.lookup_some hp
      refine acted_of_plan hplan ⟨rfl, rfl⟩ (.inr ⟨_, rfl, fun p' hp' hid => ?_⟩)
        ⟨hg.bookings, fun p' hp' => ?_⟩ rfl
      · rw [Rows.eq_of_key hs.payments hp' hmem (List.mem_singleton.mp hid)]
        exact ⟨howns, (hs.intents p hmem).symm⟩
      · rw [List.mem_singleton.mp hp']
        exact ⟨Rows.mem_update.mpr ⟨p, hmem, by simp⟩, howns⟩
    · refine acted_of_plan hplan ⟨rfl, rfl⟩ (.inr ⟨_, rfl, howns,
        fun p hp => Nat.ne_of_lt (hs.paymentIds p hp), Nat.lt_succ_self _, rfl⟩)
        ⟨hg.bookings, fun p hp => ?_⟩ rfl
      rw [List.mem_singleton.mp hp]
      exact ⟨List.mem_append_right _ List.mem_cons_self, howns⟩
  | webhookEventCreate id =>
    rcases PaymentService.plan_webhookEventCreate cfg view.db w.out.uuid w.out.now id with ⟨-, hplan⟩ | ⟨-, hplan⟩
    · exact acted_fail hg hplan
    · exact acted_of_plan hplan trivial (.inr ⟨_, rfl, trivial⟩) (hg.of_tables rfl rfl) rfl
  | couponUsageCreate couponId userId bookingId discount =>
    rcases CouponAdmin.plan_couponUsageCreate cfg view.db w.out.uuid w.out.now couponId userId bookingId
      discount with ⟨e, ks, hplan⟩ | ⟨usage, ks, -, huser, -, hplan⟩
    · exact acted_fail hg hplan
    · exact acted_of_plan hplan trivial (.inr ⟨_, rfl, huser.trans hmay⟩) (hg.of_tables rfl rfl) rfl
  | couponIncrement id =>
    rcases CouponAdmin.plan_couponIncrement cfg view.db w.out.uuid w.out.now id with hplan | hplan
    · exact acted_fail hg hplan
    · exact acted_of_plan hplan trivial (.inr ⟨_, rfl, trivial⟩) (hg.of_tables rfl rfl) rfl
  | auditLogCreate row =>
    exact acted_of_plan rfl trivial (.inr ⟨_, rfl, trivial⟩) (hg.of_tables rfl rfl) rfl

theorem acted_of_may (hmay : (owning u).may g (.stmt s)) (hg : g.Held u view.db)
    (hs : view.db.Sane w.out.uuid) : Acted u g s view.db w (Stmt.act cfg s view w) := by
  cases s with
  | query q => exact acted_query q hg hs
  | lock l => exact acted_rest hg trivial rfl (.inl rfl) rfl rfl
  | update v => exact acted_update hmay hg hs
  | external x => exact acted_external x hmay hg

end

/-! ### A whole call -/

/-- Between `w` and `w'` the others' rows are the same, and Stripe is asked for none of their
bookings. -/
structure World.Spares (u : UserId) (w w' : World) : Prop where
  apart : w.db.Apart u w'.db
  requests : ∃ rs, w'.out.intentRequests = w.out.intentRequests ++ rs ∧
    ∀ r ∈ rs, ∀ v, v ≠ u → ¬ w.db.Owns v r.bookingId
  refunds : ∃ is, w'.out.refunds = w.out.refunds ++ is ∧
    ∀ i ∈ is, ∀ v, v ≠ u → ¬ w.db.Owns v i.bookingId

/-- A call of `u` that found the world `w₀`, with what it sees: the database with the writes
of its transaction. -/
structure Own.Under (u : UserId) (w₀ : World) (g : Own) (l : Local Key Write) (w : World) : Prop where
  inTx : g.inTx = l.tx.isSome
  sane : w.db.Sane w.out.uuid
  spares : w₀.Spares u w
  held : g.Held u (w.db.applyAll (l.tx.getD []))
  viewSane : (w.db.applyAll (l.tx.getD [])).Sane w.out.uuid
  viewApart : w.db.Apart u (w.db.applyAll (l.tx.getD []))

section

variable {cfg : Config} {u : UserId} {g : Own} {c : Session Call} {l : Local Key Write}
  {w₀ w w' w'' : World} {s : Stmt} {db : Db}

theorem World.Spares.refl (u : UserId) (w : World) : w.Spares u w where
  apart := .refl u w.db
  requests := ⟨[], (List.append_nil _).symm, nofun⟩
  refunds := ⟨[], (List.append_nil _).symm, nofun⟩

theorem World.Spares.trans (h : w.Spares u w') (h' : w'.Spares u w'') : w.Spares u w'' where
  apart := h.apart.trans h'.apart
  requests := by
    obtain ⟨rs, hrs, hnot⟩ := h.requests
    obtain ⟨rs', hrs', hnot'⟩ := h'.requests
    refine ⟨rs ++ rs', by rw [hrs', hrs, List.append_assoc], fun r hr v hv how => ?_⟩
    rcases List.mem_append.mp hr with hr | hr
    · exact hnot r hr v hv how
    · exact hnot' r hr v hv (h.apart.owns v _ how)
  refunds := by
    obtain ⟨is, his, hnot⟩ := h.refunds
    obtain ⟨is', his', hnot'⟩ := h'.refunds
    refine ⟨is ++ is', by rw [his', his, List.append_assoc], fun i hi v hv how => ?_⟩
    rcases List.mem_append.mp hi with hi | hi
    · exact hnot i hi v hv how
    · exact hnot' i hi v hv (h.apart.owns v _ how)

theorem World.Spares.of_out (hdb : w'.db = w.db) (hrequests : w'.out.intentRequests = w.out.intentRequests)
    (hrefunds : w'.out.refunds = w.out.refunds) : w.Spares u w' where
  apart := by
    rw [hdb]
    exact .refl u w.db
  requests := ⟨[], by rw [hrequests, List.append_nil], nofun⟩
  refunds := ⟨[], by rw [hrefunds, List.append_nil], nofun⟩

/-- What a statement writes is the user's. -/
theorem Acted.written {e : Effect Err Key Write World s.Reply} (h : Acted u g s db w e)
    (hs : db.Sane e.world.out.uuid) :
    (db.applyAll e.writes).Sane e.world.out.uuid ∧ db.Apart u (db.applyAll e.writes) := by
  rcases h.writes with hws | ⟨x, hws, hby⟩
  · rw [hws]
    exact ⟨hs, .refl u db⟩
  · rw [hws]
    exact ⟨hby.sane hs, hby.apart hs⟩

/-- Stripe is asked for bookings of the user only. -/
theorem Acted.asked {e : Effect Err Key Write World s.Reply} (h : Acted u g s db w e)
    (hs : db.Sane w.out.uuid) (hdb : e.world.db = w.db) (happart : w.db.Apart u db) :
    w.Spares u e.world where
  apart := by
    rw [hdb]
    exact .refl u w.db
  requests := by
    obtain ⟨rs, hrs, howns⟩ := h.requests
    refine ⟨rs, hrs, fun r hr v hv how => hv ?_⟩
    exact hs.owner (happart.owns v _ how) (howns r hr)
  refunds := by
    obtain ⟨is, his, howns⟩ := h.refunds
    refine ⟨is, his, fun i hi v hv how => hv ?_⟩
    exact hs.owner (happart.owns v _ how) (howns i hi)

theorem Own.Under.acted (h : g.Under u w₀ l w) (cfg : Config) (hmay : (owning u).may g (.stmt s)) :
    Acted u g s (w.db.applyAll (l.tx.getD [])) w
      (Stmt.act cfg s { w with db := w.db.applyAll (l.tx.getD []) } w) :=
  @acted_of_may cfg u g { w with db := w.db.applyAll (l.tx.getD []) } w s hmay h.held h.viewSane

theorem Own.Under.answers (h : g.Under u w₀ l w) (m : Cmd Stmt) (hmay : (owning u).may g m) :
    (owning u).answers m ((engine cfg).exec l w m).reply := by
  cases m with
  | stmt s =>
    have hacted := h.acted cfg hmay
    simp only [Engine.exec]
    split
    · rename_i ws htx
      simp only [htx, Option.getD_some] at hacted
      rw [view_db]
      exact hacted.answers
    · rename_i htx
      simp only [htx, Option.getD_none, Db.applyAll_nil] at hacted
      exact hacted.answers
  | _ => trivial

/-- The world after a statement outside any transaction. -/
theorem auto_db (cfg : Config) (c : Session Call) (hl : l.tx = none) (w : World) (s : Stmt) :
    ((engine cfg).after c ((engine cfg).exec l w (.stmt s))).db =
      w.db.applyAll (Stmt.act cfg s w w).writes ∧
    ((engine cfg).after c ((engine cfg).exec l w (.stmt s))).out = (Stmt.act cfg s w w).world.out := by
  have hdb : (Stmt.act cfg s w w).world.db = w.db := by cases s <;> rfl
  rw [Engine.after_auto hl]
  split_ifs with hws
  · have hws' : (Stmt.act cfg s w w).writes = [] := hws
    rw [hws']
    exact ⟨hdb, rfl⟩
  · exact ⟨congrArg (Db.applyAll · _) hdb, rfl⟩

/-- A command that may come next. -/
theorem Own.Under.step (h : g.Under u w₀ l w) (m : Cmd Stmt) (hmay : (owning u).may g m) :
    ((owning u).next g m ((engine cfg).exec l w m).reply).Under u w₀ ((engine cfg).exec l w m).loc
      ((engine cfg).after c ((engine cfg).exec l w m)) := by
  cases m with
  | begin =>
    refine ⟨?_, h.sane, h.spares, ?_, h.sane, .refl u w.db⟩
    · show Own.inTx (if g.inTx then _ else _) = true
      split_ifs <;> rfl
    · show Own.Held u (if g.inTx then _ else _) w.db
      split_ifs with hin
      · exact .none u _ _
      · have htx : l.tx = none := by
          rw [h.inTx] at hin
          exact Option.not_isSome_iff_eq_none.mp hin
        have hheld := h.held
        simp only [htx, Option.getD_none, Db.applyAll_nil] at hheld
        exact ⟨hheld.bookings, hheld.payments⟩
  | commit =>
    refine ⟨rfl, h.viewSane, h.spares.trans ⟨h.viewApart, ⟨[], (List.append_nil _).symm, nofun⟩,
      ⟨[], (List.append_nil _).symm, nofun⟩⟩, ⟨h.held.bookings, h.held.payments⟩, h.viewSane, .refl u _⟩
  | rollback => exact ⟨rfl, h.sane, h.spares, .none u _ _, h.sane, .refl u w.db⟩
  | stmt s =>
    have hacted := h.acted cfg hmay
    cases htx : l.tx with
    | none =>
      simp only [htx, Option.getD_none, Db.applyAll_nil] at hacted
      obtain ⟨o, ho, huuid⟩ := act_out cfg s w w
      have hworld : (Stmt.act cfg s w w).world = { w with out := o } := ho
      have hwritten := hacted.written (by rw [hworld]; exact h.sane.mono huuid)
      have hasked := hacted.asked h.sane (by rw [hworld]) (.refl u w.db)
      obtain ⟨hdb, hout⟩ := auto_db cfg c htx w s
      have hexec := Engine.exec_auto (E := engine cfg) htx w s
      have hreply : ((engine cfg).exec l w (.stmt s)).reply = (Stmt.act cfg s w w).reply := by rw [hexec]; rfl
      have hloc : ((engine cfg).exec l w (.stmt s)).loc = l := by rw [hexec]
      rw [hreply, hloc]
      generalize (engine cfg).after c ((engine cfg).exec l w (.stmt s)) = w' at hdb hout ⊢
      have hview : w'.db.applyAll (l.tx.getD []) = w'.db := by rw [htx]; rfl
      have hsane : w'.db.Sane w'.out.uuid := by rw [hdb, hout]; exact hwritten.1
      refine ⟨hacted.inTx.trans h.inTx, hsane, h.spares.trans ⟨?_, ?_, ?_⟩, ?_, ?_, ?_⟩
      · rw [hdb]; exact hwritten.2
      · rw [hout]; exact hasked.requests
      · rw [hout]; exact hasked.refunds
      · rw [hview, hdb]; exact hacted.held
      · rw [hview]; exact hsane
      · rw [hview]; exact .refl u w'.db
    | some ws =>
      simp only [htx, Option.getD_some] at hacted
      have hviewSane := h.viewSane
      have hviewApart := h.viewApart
      simp only [htx, Option.getD_some] at hviewSane hviewApart
      obtain ⟨o, ho, huuid⟩ := act_out cfg s { w with db := w.db.applyAll ws } w
      have hworld : (Stmt.act cfg s { w with db := w.db.applyAll ws } w).world = { w with out := o } := ho
      have hwritten := hacted.written (by rw [hworld]; exact hviewSane.mono huuid)
      have hasked := hacted.asked hviewSane (by rw [hworld]) hviewApart
      rw [Engine.exec_tx htx]
      simp only [view_db]
      -- the state after the statement, with its writes still held back
      have hview : (Stmt.act cfg s { w with db := w.db.applyAll ws } w).world.db.applyAll
          (ws ++ (Stmt.act cfg s { w with db := w.db.applyAll ws } w).writes) =
          (w.db.applyAll ws).applyAll (Stmt.act cfg s { w with db := w.db.applyAll ws } w).writes := by
        rw [hworld]
        exact List.foldl_append
      refine ⟨hacted.inTx.trans (h.inTx.trans (by rw [htx]; rfl)), ?_, h.spares.trans hasked, ?_, ?_, ?_⟩
      · show Db.Sane (Stmt.act cfg s _ w).world.db (Stmt.act cfg s _ w).world.out.uuid
        rw [hworld]
        exact h.sane.mono huuid
      · exact hview ▸ hacted.held
      · exact hview ▸ hwritten.1
      · have hdb : (Stmt.act cfg s { w with db := w.db.applyAll ws } w).world.db = w.db := by rw [hworld]
        have happart := (congrArg (Db.Apart u · _) hdb).mpr (hviewApart.trans hwritten.2)
        exact hview ▸ happart

theorem Own.Under.start (h : w.db.Sane w.out.uuid) : Own.Under u w (owning u).init .idle w :=
  ⟨rfl, h, .refl u w, .none u _ _, h, .refl u w.db⟩

end

/-- What a reply shows of bookings and payments is the user's. -/
def Reply.Only (u : UserId) (db : Db) : Reply → Prop
  | .booking b => b ∈ db.bookings ∧ b.userId = u
  | .intent secret id amount => ∃ b ∈ db.bookings, b.userId = u ∧ b.totalAmount = amount ∧
    ∃ p ∈ db.payments, p.bookingId = b.id ∧ p.id = id ∧ p.stripeClientSecret = some secret
  | .refunded _ amount bookingId => db.Owns u bookingId ∧
    ∃ p ∈ db.payments, p.bookingId = bookingId ∧ p.amount = amount
  | .message text => text = "Booking cancelled successfully"
  | .success => True
  | .done => True

theorem Own.Shows.only {u : UserId} {g : Own} {db : Db} {r : Reply} (h : g.Shows r) (hg : g.Held u db) :
    r.Only u db := by
  cases r with
  | booking b => exact hg.bookings b h
  | intent secret id amount =>
    obtain ⟨b, hb, hamount, p, hp, hrest⟩ := h
    exact ⟨b, (hg.bookings b hb).1, (hg.bookings b hb).2, hamount, p, (hg.payments p hp).1, hrest⟩
  | refunded id amount bookingId =>
    obtain ⟨p, hp, rfl, hamount⟩ := h
    exact ⟨(hg.payments p hp).2, p, (hg.payments p hp).1, rfl, hamount⟩
  | message text => exact h
  | success => trivial
  | done => trivial

/-- A call that runs alone. -/
theorem solo_spares {cfg : Config} {u : UserId} {c : Session Call} {p : Op Reply} {w : World}
    (hp : p.Obeys (owning u) (owning u).init (Own.Ends Own.Replies)) (hw : w.db.Sane w.out.uuid) :
    let r := (engine cfg).solo c p .idle w
    w.Spares u r.2.2 ∧ r.2.2.db.Sane r.2.2.out.uuid ∧ ∀ reply, r.1 = .ok reply → reply.Only u r.2.2.db := by
  obtain ⟨g, hends, hunder⟩ := Engine.solo_obeys (c := c) (E := engine cfg)
    (I := fun g l w' => g.Under u w l w') (fun g l w' m h hmay => h.answers m hmay)
    (fun g l w' m h hmay _ => h.step m hmay) hp (Own.Under.start hw)
  refine ⟨hunder.spares, hunder.sane, fun reply hreply => ?_⟩
  obtain ⟨hin, hshows⟩ := hends reply hreply
  have htx := Option.not_isSome_iff_eq_none.mp (by rw [← hunder.inTx, hin]; decide)
  have hheld := hunder.held
  simp only [htx, Option.getD_none, Db.applyAll_nil] at hheld
  exact hshows.only hheld

end TurfSync
