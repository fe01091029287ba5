import TurfSync.Txn.Faults
import TurfSync.Guarantees.SlotTable
import TurfSync.Guarantees.Invalidation

/-! Refunds that are interrupted. `refund` gives the money back at Stripe and then writes the
database in one transaction. A failure undoes the transaction but not the call of Stripe, and
the next attempt makes that call again, which Stripe refuses. So a refund can be finished
exactly if no attempt got past that call. -/

namespace TurfSync

open Txn

variable {cfg : Config} {c : Session Call} {w : World} {bookingId : BookingId} {userId : UserId}
  {d : PaymentDetail} {ws : List Write} {ks : List Key}

namespace PaymentService

/-! ### The transaction -/

/-- A write that takes no fresh id leaves the world alone. -/
theorem silent_update {u : Update} (hu : ∀ db uuid now, (u.plan cfg db uuid now).used = 0) :
    (engine cfg).Silent (.stmt (.update u)) := by
  intro v w
  show ({ w with out := { w.out with uuid := w.out.uuid + _ } } : World) = w
  rw [hu, Nat.add_zero]

theorem silent_slotUpdate (id : SlotId) (isBooked : Bool) :
    (engine cfg).Silent (.stmt (.update (.slotUpdate id isBooked))) := by
  refine silent_update fun db uuid now => ?_
  simp only [Update.plan]
  cases db.slot? id <;> rfl

theorem silent_bookingUpdate (id : BookingId) (status : BookingStatus) :
    (engine cfg).Silent (.stmt (.update (.bookingUpdate id status))) := by
  refine silent_update fun db uuid now => ?_
  simp only [Update.plan]
  cases db.booking? id <;> rfl

theorem silent_paymentUpdate (id : PaymentId) (change : PaymentChange) :
    (engine cfg).Silent (.stmt (.update (.paymentUpdate id change))) := by
  refine silent_update fun db uuid now => ?_
  simp only [Update.plan]
  cases db.payment? id <;> rfl

theorem strict_refundTx (bookingId : BookingId) (paymentId : PaymentId) (slotId : SlotId) :
    (refundTx bookingId paymentId slotId).Strict (engine cfg).Silent := by
  unfold refundTx
  refine Script.strict_bind (Script.strict_perform fun _ _ => rfl) fun _ => ?_
  refine Script.strict_bind (Script.strict_perform (silent_paymentUpdate _ _)) fun _ => ?_
  refine Script.strict_bind (Script.strict_perform (silent_bookingUpdate _ _)) fun _ => ?_
  refine Script.strict_bind (Script.strict_perform fun _ _ => rfl) fun active => ?_
  by_cases hactive : active = []
  · rw [if_pos hactive]
    exact Script.strict_perform (silent_slotUpdate _ _)
  · rw [if_neg hactive]
    trivial

/-- The writes of a refund. -/
def refundWrites (d : PaymentDetail) : List Write :=
  [.paymentSet [d.payment.id] .refunded, .bookingSet [d.booking.id] .CANCELLED,
    .slotSet [d.slot.id] false]

/-- The rows that `refund` reads. -/
structure Reads (cfg : Config) (db : Db) (bookingId : BookingId) (d : PaymentDetail) : Prop where
  detail : db.paymentDetail? bookingId = some d
  payment : db.payment? d.payment.id = some d.payment
  booking : db.booking? bookingId = some d.booking
  slot : db.slot? d.slot.id = some d.slot
  id : d.booking.id = bookingId
  alone : ∀ b ∈ db.bookings, b.slotId = d.slot.id → b.id = bookingId

theorem reads (hv : w.db.Valid cfg) (hu : cfg.slotIdUnique = true)
    (hd : w.db.paymentDetail? bookingId = some d) : Reads cfg w.db bookingId d := by
  have hd' := hd
  simp only [Db.paymentDetail?, Option.bind_eq_bind, Option.bind_eq_some_iff,
    Option.some.injEq] at hd
  obtain ⟨p, hp, b, hb, s, hs, rfl⟩ := hd
  obtain ⟨hmem, hpid⟩ := Db.mem_of_paymentOf? hp
  obtain ⟨hbmem, hbid⟩ := Db.mem_of_booking? hb
  have hsid := (Db.mem_of_slot? hs).2
  refine ⟨hd', hv.payment?_of_mem hmem, hpid ▸ hb, ?_, hbid.trans hpid, fun b' hb' hslot => ?_⟩
  · rw [hsid]
    exact hs
  · rw [hv.eq_of_slotId hu hbmem hb' (hslot.trans hsid)]
    exact hbid.trans hpid

/-- The transaction, when none of its commands fails. -/
theorem solo_refundTx (h : Reads cfg w.db bookingId d) :
    (engine cfg).solo c (Script.transaction (refundTx bookingId d.payment.id d.slot.id)) .idle w =
      (.ok (), .idle, Commits.result c (refundWrites d) w) := by
  have hpay : (Update.paymentUpdate d.payment.id .refunded).plan cfg (w.db.applyAll []) w.out.uuid
      w.out.now = ⟨.ok (), [.payment d.payment.id], [.paymentSet [d.payment.id] .refunded], 0⟩ := by
    simp only [Update.plan, Db.applyAll_nil, h.payment]
  have hbook : (Update.bookingUpdate bookingId .CANCELLED).plan cfg
      (w.db.applyAll [.paymentSet [d.payment.id] .refunded]) w.out.uuid w.out.now =
      ⟨.ok (), [.booking bookingId], [.bookingSet [bookingId] .CANCELLED], 0⟩ := by
    have hb : (w.db.applyAll [.paymentSet [d.payment.id] .refunded]).booking? bookingId =
        some d.booking := h.booking
    simp only [Update.plan, hb]
  have hnone : (w.db.applyAll [.paymentSet [d.payment.id] .refunded,
      .bookingSet [bookingId] .CANCELLED]).activeOn [d.slot.id] [bookingId] = [] := by
    refine List.eq_nil_iff_forall_not_mem.mpr fun b hb => ?_
    obtain ⟨hmem, hslot, -, hne⟩ := BookingService.mem_activeOn.mp hb
    exact hne (List.mem_singleton.mpr (h.alone b hmem (List.mem_singleton.mp hslot)))
  have hslot : (Update.slotUpdate d.slot.id false).plan cfg
      (w.db.applyAll [.paymentSet [d.payment.id] .refunded, .bookingSet [bookingId] .CANCELLED])
      w.out.uuid w.out.now = ⟨.ok (), [.slot d.slot.id], [.slotSet [d.slot.id] false], 0⟩ := by
    have hs : (w.db.applyAll [.paymentSet [d.payment.id] .refunded,
        .bookingSet [bookingId] .CANCELLED]).slot? d.slot.id = some d.slot := h.slot
    simp only [Update.plan, hs]
  rw [Engine.solo_transaction]
  unfold refundTx
  simp only [Prog.bind_eq, Engine.solo_bind, solo_lock_tx (.booking bookingId), Engine.andThen_ok,
    solo_update_tx hpay, List.nil_append, World.took_zero]
  rw [solo_update_tx hbook]
  simp only [Engine.andThen_ok, List.cons_append, List.nil_append, World.took_zero,
    Engine.solo_bind, solo_query_tx (.bookingFindActive _ _), Query.eval, hnone, if_true]
  rw [solo_update_tx hslot]
  simp only [refundWrites, h.id, List.cons_append, List.nil_append, World.took_zero]
  rfl

/-! ### One attempt -/

/-- The world after the call of Stripe. -/
def paidBack (d : PaymentDetail) (w : World) : World :=
  { w with out := { w.out with
    refunds := w.out.refunds ++ [d.payment.stripePaymentIntentId], uuid := w.out.uuid + 1 } }

/-- What an attempt leaves that failed at command `n`. The commands before the call of Stripe
are the read and the clock. -/
structure Left (d : PaymentDetail) (n : ℕ) (w w' : World) : Prop where
  db : w'.db = w.db
  now : w'.out.now = w.out.now
  refunds : w.out.now < d.slot.start →
    (d.payment.stripePaymentIntentId ∈ w'.out.refunds ↔
      d.payment.stripePaymentIntentId ∈ w.out.refunds ∨ 3 ≤ n)

theorem Left.same {n : ℕ} (hn : w.out.now < d.slot.start →
    3 ≤ n → d.payment.stripePaymentIntentId ∈ w.out.refunds) : Left d n w w :=
  ⟨rfl, rfl, fun h => ⟨.inl, fun hr => hr.elim id (hn h)⟩⟩

/-- The attempt from the call of Stripe on. -/
def payBack (bookingId : BookingId) (d : PaymentDetail) : Op Reply :=
  (external (.createRefund d.payment.stripePaymentIntentId)).bind fun refundId =>
    (Script.transaction (refundTx bookingId d.payment.id d.slot.id)).bind fun _ =>
      .ret (.refunded refundId d.payment.amount bookingId)

theorem soloFault_payBack (n : ℕ) :
    (engine cfg).soloFault c (n + 1) (payBack bookingId d) .idle w =
      if d.payment.stripePaymentIntentId ∈ w.out.refunds then (.error .stripe, .idle, w)
      else
        let r := (engine cfg).soloFault c n
          (Script.transaction (refundTx bookingId d.payment.id d.slot.id)) .idle (paidBack d w)
        (r.1.map fun _ => .refunded w.out.uuid d.payment.amount bookingId, r.2) := by
  rw [payBack, external, Engine.soloFault_read _ _ _ _ _ _ rfl]
  split_ifs with hin
  · have hact : (engine cfg).act (.external (.createRefund d.payment.stripePaymentIntentId)) w w =
        ⟨.error .stripe, [], [], w⟩ := by
      show Effect.mk _ _ _ _ = _
      simp only [External.eval, if_pos hin]
    rw [hact]
    cases n <;> rfl
  · have hact : (engine cfg).act (.external (.createRefund d.payment.stripePaymentIntentId)) w w =
        ⟨.ok w.out.uuid, [], [], paidBack d w⟩ := by
      show Effect.mk _ _ _ _ = _
      simp only [External.eval, if_neg hin]
      rfl
    rw [hact, resume_ok, Engine.soloFault_map]

/-- An attempt that got past the call of Stripe and failed has given the money back. -/
theorem failed_payBack (h : Reads cfg w.db bookingId d) {n : ℕ} {e : Err}
    (hr : ((engine cfg).soloFault c n (payBack bookingId d) .idle w).1 = .error e) :
    Left d (n + 2) w ((engine cfg).soloFault c n (payBack bookingId d) .idle w).2.2 := by
  cases n with
  | zero => exact Left.same fun _ hn => absurd hn (by decide)
  | succ n =>
    rw [soloFault_payBack] at hr ⊢
    by_cases hin : d.payment.stripePaymentIntentId ∈ w.out.refunds
    · rw [if_pos hin]
      exact Left.same fun _ _ => hin
    rw [if_neg hin] at hr ⊢
    obtain ⟨e', he⟩ | hsolo := (engine cfg).soloFault_transaction c
      (strict_refundTx bookingId d.payment.id d.slot.id) n (paidBack d w)
    · rw [he]
      exact ⟨rfl, rfl, fun _ => by simp [paidBack]⟩
    · have hdone := @solo_refundTx cfg c (paidBack d w) bookingId d h
      rw [hsolo, hdone] at hr
      cases hr

theorem settles_refund (bookingId : BookingId) (userId : UserId) :
    (engine cfg).Settles c (refund bookingId userId) := by
  unfold refund
  refine Engine.settles_perform fun found => ?_
  cases found with
  | none => exact Engine.settles_throw _
  | some d =>
    show (engine cfg).Settles c (if _ then _ else _)
    split_ifs
    · exact Engine.settles_throw _
    · exact Engine.settles_throw _
    · refine Engine.settles_perform fun now => ?_
      split_ifs
      · exact Engine.settles_throw _
      · exact Engine.settles_perform fun refundId =>
          Engine.settles_transaction (strict_refundTx _ _ _) _

variable (howner : d.booking.userId = userId) (hpaid : d.payment.status = .PAID)

include howner hpaid

/-- The read goes through. -/
theorem soloFault_succ (h : Reads cfg w.db bookingId d) (n : ℕ) :
    (engine cfg).soloFault c (n + 1) (refund bookingId userId) .idle w =
      (engine cfg).soloFault c n ((external .dateNow).bind fun now =>
        if d.slot.start ≤ now then
          .throw (.badRequest "Cannot refund a booking whose slot has already started or passed")
        else payBack bookingId d) .idle w := by
  rw [refund, Prog.bind_eq, query, Engine.soloFault_read _ _ _ _ _ _ rfl]
  have hread : ((engine cfg).act (.query (.paymentDetail bookingId)) w w).reply = .ok (some d) :=
    congrArg Except.ok h.detail
  rw [hread]
  simp only [resume_ok, howner, hpaid, ne_eq, not_true_eq_false, if_false]
  rfl

theorem failed_attempt (h : Reads cfg w.db bookingId d) {n : ℕ} {e : Err}
    (hr : ((engine cfg).soloFault c n (refund bookingId userId) .idle w).1 = .error e) :
    Left d n w ((engine cfg).soloFault c n (refund bookingId userId) .idle w).2.2 := by
  match n with
  | 0 => exact Left.same fun _ hn => absurd hn (by decide)
  | 1 =>
    rw [soloFault_succ howner hpaid h]
    exact Left.same fun _ hn => absurd hn (by decide)
  | n + 2 =>
    rw [soloFault_succ howner hpaid h, external, Engine.soloFault_read _ _ _ _ _ _ rfl] at hr ⊢
    have hact : (engine cfg).act (.external .dateNow) w w = ⟨.ok w.out.now, [], [], w⟩ := rfl
    rw [hact] at hr ⊢
    simp only [resume_ok] at hr ⊢
    by_cases hpast : d.slot.start ≤ w.out.now
    · rw [if_pos hpast]
      have hend : ∀ e' : Err, (engine cfg).soloFault c n (.throw e' : Op Reply) .idle w =
          (.error e', .idle, w) := by
        intro e'
        cases n <;> rfl
      rw [hend]
      exact Left.same fun hstart => absurd hpast (not_le.mpr hstart)
    · rw [if_neg hpast] at hr ⊢
      exact failed_payBack h hr

/-- An attempt that nothing interrupts. -/
theorem solo_refund (h : Reads cfg w.db bookingId d) (hstart : w.out.now < d.slot.start) :
    (engine cfg).solo c (refund bookingId userId) .idle w =
      if d.payment.stripePaymentIntentId ∈ w.out.refunds then (.error .stripe, .idle, w)
      else (.ok (.refunded w.out.uuid d.payment.amount bookingId), .idle,
        Commits.result c (refundWrites d) (paidBack d w)) := by
  have hread : (Query.paymentDetail bookingId).eval w.db = some d := h.detail
  have hnot : ¬ setUTCHours d.slot.date d.slot.startTime.hour d.slot.startTime.minute ≤ w.out.now :=
    not_le.mpr hstart
  unfold refund
  simp only [Prog.bind_eq, Prog.pure_eq, Engine.solo_bind, solo_query (.paymentDetail bookingId),
    hread, Engine.andThen_ok, howner, hpaid, ne_eq, not_true_eq_false, if_false,
    solo_external .dateNow]
  simp only [External.eval, Engine.andThen_ok, if_neg hnot, Engine.solo_bind,
    solo_external (.createRefund _)]
  split_ifs with hin
  · rfl
  · have hdone := @solo_refundTx cfg c (paidBack d w) bookingId d h
    rw [Engine.andThen_ok, Engine.solo_bind, ← paidBack, hdone]
    rfl

omit howner hpaid

end PaymentService

/-! ### Attempts -/

open PaymentService

/-- Attempts of the owner, one after another while time passes: attempt number `i` had its
command `ns[i]` fail, and each of them ended with an error. -/
inductive Attempts (cfg : Config) (bookingId : BookingId) (userId : UserId) (s : Sys) :
    List ℕ → Sys → Prop
  | none : Attempts cfg bookingId userId s [] s
  | wait {ns t} (h : Attempts cfg bookingId userId s ns t) (v : Env) :
      Attempts cfg bookingId userId s ns ⟨(service cfg).evolve v t.world, t.threads⟩
  | failed {ns t e} (h : Attempts cfg bookingId userId s ns t) (n : ℕ)
      (hr : ((service cfg).soloFault ⟨t.threads.length, .refund bookingId userId⟩ n
        (refund bookingId userId) .idle t.world).1 = .error e) :
      Attempts cfg bookingId userId s (ns ++ [n])
        ((service cfg).serveFault t n (.refund bookingId userId))

/-- The payment is REFUNDED, the booking CANCELLED and the slot released, and Stripe has
refunded the intent once. -/
structure Finished (d : PaymentDetail) (w : World) : Prop where
  payment : (w.db.payment? d.payment.id).map (·.status) = some .REFUNDED
  booking : (w.db.booking? d.booking.id).map (·.status) = some .CANCELLED
  slot : (w.db.slot? d.slot.id).map (·.isBooked) = some false
  once : w.out.refunds.count d.payment.stripePaymentIntentId = 1

namespace Attempts

variable {s t : Sys} {ns : List ℕ}

/-- The attempts are a run of the service. -/
theorem run (h : Attempts cfg bookingId userId s ns t) (hq : s.Quiet) :
    t.Quiet ∧ ∃ as, (service cfg).run s as = t := by
  induction h with
  | none => exact ⟨hq, [], rfl⟩
  | wait h v ih =>
    obtain ⟨hquiet, as, rfl⟩ := ih
    refine ⟨hquiet, as ++ [.env v], ?_⟩
    rw [Service.run_append]
    rfl
  | failed h n hr ih =>
    obtain ⟨hquiet, as, rfl⟩ := ih
    obtain ⟨as', has⟩ := Service.serveFault_eq_run (service cfg) hquiet
      (show (service cfg).accepts (.refund bookingId userId) _ = true from rfl) n
    exact ⟨Service.serveFault_quiet _ hquiet n (settles_refund _ _), as ++ as', by
      rw [Service.run_append, has]⟩

/-- What the attempts leave. -/
theorem left (h : Attempts cfg bookingId userId s ns t) (hd : Reads cfg s.world.db bookingId d)
    (howner : d.booking.userId = userId) (hpaid : d.payment.status = .PAID) :
    t.world.db = s.world.db ∧ (t.world.out.now < d.slot.start →
      (d.payment.stripePaymentIntentId ∈ t.world.out.refunds ↔
        d.payment.stripePaymentIntentId ∈ s.world.out.refunds ∨ ∃ n ∈ ns, 3 ≤ n)) := by
  induction h with
  | none => exact ⟨rfl, fun _ => by simp⟩
  | wait h v ih =>
    obtain ⟨hdb, hrefunds⟩ := ih
    refine ⟨hdb, fun hstart => ?_⟩
    cases v with
    | tick ms =>
      exact hrefunds ((Int.le_add_of_nonneg_right (Int.natCast_nonneg ms)).trans_lt hstart)
    | expireLock slotId => exact hrefunds hstart
  | @failed ns t e h n hr ih =>
    obtain ⟨hdb, hrefunds⟩ := ih
    have hat := failed_attempt howner hpaid (hdb.symm ▸ hd) hr
    refine ⟨hat.db.trans hdb, fun hstart => ?_⟩
    have hbefore : t.world.out.now < d.slot.start := lt_of_eq_of_lt hat.now.symm hstart
    calc d.payment.stripePaymentIntentId ∈
          ((service cfg).serveFault t n (.refund bookingId userId)).world.out.refunds
        ↔ d.payment.stripePaymentIntentId ∈ t.world.out.refunds ∨ 3 ≤ n := hat.refunds hbefore
      _ ↔ d.payment.stripePaymentIntentId ∈ s.world.out.refunds ∨ ∃ n' ∈ ns ++ [n], 3 ≤ n' := by
        rw [hrefunds hbefore, or_assoc]
        simp [or_and_right, exists_or]

end Attempts

theorem finished_commit (h : Reads cfg w.db bookingId d)
    (hnew : d.payment.stripePaymentIntentId ∉ w.out.refunds) :
    Finished d (Commits.result c (refundWrites d) (paidBack d w)) := by
  have hbook : w.db.booking? d.booking.id = some d.booking := h.id.symm ▸ h.booking
  constructor
  · rw [Db.payment?_set (show _ = Db.setPayments [d.payment.id] .refunded w.db.payments from rfl),
      if_pos (List.mem_singleton.mpr rfl), h.payment]
    rfl
  · rw [Db.booking?_set (show _ = Db.setBookings [d.booking.id] .CANCELLED w.db.bookings from rfl),
      if_pos (List.mem_singleton.mpr rfl), hbook]
    rfl
  · rw [Db.slot?_set (show _ = Db.setSlots [d.slot.id] false w.db.slots from rfl),
      if_pos (List.mem_singleton.mpr rfl), h.slot]
    rfl
  · show (w.out.refunds ++ [d.payment.stripePaymentIntentId]).count _ = 1
    rw [List.count_append, List.count_eq_zero.mpr hnew, List.count_singleton_self]

/-- The next attempt, by what Stripe knows. -/
theorem finished_serve {t : Sys} (h : Reads cfg t.world.db bookingId d)
    (howner : d.booking.userId = userId) (hpaid : d.payment.status = .PAID)
    (hstart : t.world.out.now < d.slot.start) :
    Finished d ((service cfg).serve t (.refund bookingId userId)).world ↔
      d.payment.stripePaymentIntentId ∉ t.world.out.refunds := by
  have hsolo := @solo_refund cfg ⟨t.threads.length, .refund bookingId userId⟩ t.world bookingId
    userId d howner hpaid h hstart
  by_cases hin : d.payment.stripePaymentIntentId ∈ t.world.out.refunds
  · rw [if_pos hin] at hsolo
    rw [Service.serve_of_solo (service cfg) hsolo]
    refine iff_of_false (fun hr => ?_) (not_not.mpr hin)
    -- the payment is still PAID
    have hstatus := hr.payment
    rw [h.payment, Option.map_some, hpaid] at hstatus
    cases hstatus
  · rw [if_neg hin] at hsolo
    rw [Service.serve_of_solo (service cfg) hsolo]
    exact iff_of_true (finished_commit h hin) hin

/-- An attempt that runs without a failure before the slot starts finishes the refund if
and only if none has got past the call of Stripe before. -/
theorem refund_finished_iff {s t : Sys} {ns : List ℕ} (hv : s.world.db.Valid cfg)
    (hu : cfg.slotIdUnique = true) (hd : s.world.db.paymentDetail? bookingId = some d)
    (howner : d.booking.userId = userId) (hpaid : d.payment.status = .PAID)
    (h : Attempts cfg bookingId userId s ns t) (hstart : t.world.out.now < d.slot.start) :
    Finished d ((service cfg).serve t (.refund bookingId userId)).world ↔
      d.payment.stripePaymentIntentId ∉ s.world.out.refunds ∧ ∀ n ∈ ns, n < 3 := by
  have hread := reads hv hu hd
  obtain ⟨hdb, hrefunds⟩ := h.left hread howner hpaid
  rw [finished_serve (hdb.symm ▸ hread) howner hpaid hstart, hrefunds hstart]
  simp only [not_or, not_exists, not_and, not_le]

deriving instance DecidableEq for PaymentDetail

namespace Arena

/-- Slot 1 is sold. -/
def afterSale : Sys := (service (Arena.cfg true)).run sys sold

/-- The payment of user 7. -/
def detail : PaymentDetail where
  payment := ⟨102, 101, 1000, "usd", .PAID, ⟨101⟩, some ⟨⟨101⟩⟩, none, some 0, none⟩
  booking := ⟨101, 7, 1, 1, 1000, .CONFIRMED, none, 0⟩
  slot := { slot 1 with isBooked := true }

end Arena

/-- Stripe fails once, and a day later the refund goes through. -/
theorem refund_finished_arena : Arena.afterSale.world.db.paymentDetail? 101 = some Arena.detail ∧
    ∃ t, Attempts (Arena.cfg true) 101 7 Arena.afterSale [2] t ∧
      Finished Arena.detail ((service (Arena.cfg true)).serve t (.refund 101 7)).world := by
  have hd : Arena.afterSale.world.db.paymentDetail? 101 = some Arena.detail := by decide +kernel
  have hv : Arena.afterSale.world.db.Valid (Arena.cfg true) := by constructor <;> decide +kernel
  have ha := ((@Attempts.none (Arena.cfg true) 101 7 Arena.afterSale).failed (e := .infrastructure) 2
    (by decide +kernel)).wait (.tick 86400000)
  exact ⟨hd, _, ha, (refund_finished_iff hv rfl hd rfl rfl ha (by decide +kernel)).mpr
    (by decide +kernel)⟩

/-- The connection to the database is lost at the commit, after Stripe has given the money
back; the next attempt fails at Stripe. -/
theorem refund_stuck : let t := (service (Arena.cfg true)).serveFault Arena.afterSale 9 (.refund 101 7)
    Attempts (Arena.cfg true) 101 7 Arena.afterSale [9] t ∧
      t.world.out.now < Arena.detail.slot.start ∧ t.world.out.refunds = [⟨101⟩] ∧
      ¬ Finished Arena.detail ((service (Arena.cfg true)).serve t (.refund 101 7)).world := by
  refine ⟨Attempts.none.failed (e := .infrastructure) 9 (by decide +kernel), by decide +kernel,
    by decide +kernel, fun h => ?_⟩
  exact absurd h.payment (by decide +kernel)

end TurfSync
