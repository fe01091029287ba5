import TurfSync.System
import TurfSync.Txn.Footprint

/-! The statements that each call can issue, whatever it is answered. -/

namespace TurfSync

open Txn

def Stmt.ofCreate : Stmt → Bool
  | .query (.turfPrice _) => true
  | .query (.couponByCode _ _) => true
  | .query (.bookingFindFirst _ _) => true
  | .query (.couponUsageCount _ _) => true
  | .lock (.slotWithTurf _ _) => true
  | .lock (.coupon _) => true
  | .update (.slotUpdate _ _) => true
  | .update (.bookingCreate _) => true
  | .update (.couponUsageCreate _ _ _ _) => true
  | .update (.couponIncrement _) => true
  | .external .dateNow => true
  | .external (.acquireLock _) => true
  | .external (.releaseLock _ _) => true
  | .external (.delByPattern _) => true
  | .external (.queueAdd (.bookingConfirmed _ _ _ _ _)) => true
  | _ => false

def Stmt.ofCancel : Stmt → Bool
  | .query (.bookingFindUnique _) => true
  | .query (.bookingFindActive _ _) => true
  | .lock (.booking _) => true
  | .lock (.slot _) => true
  | .update (.bookingUpdate _ .CANCELLED) => true
  | .update (.slotUpdate _ _) => true
  | .external (.delByPattern _) => true
  | .external (.queueAdd (.bookingCancelled _)) => true
  | _ => false

def Stmt.ofCleanup : Stmt → Bool
  | .query (.bookingFindStale _) => true
  | .query (.bookingFindActive _ _) => true
  | .lock (.pendingBooking _) => true
  | .lock (.slot _) => true
  | .update (.bookingUpdateManyPending _ .CANCELLED) => true
  | .update (.slotUpdateMany _ _) => true
  | .external (.delByPattern _) => true
  | _ => false

def Stmt.ofIntent (bookingId : BookingId) : Stmt → Bool
  | .query (.bookingDetail id) => id = bookingId
  | .external (.createIntent _) => true
  | .update (.paymentUpsert id _ _ _ _) => id = bookingId
  | _ => false

def Stmt.ofWebhook : Stmt → Bool
  | .query (.paymentByIntent _) => true
  | .lock (.booking _) => true
  | .update (.webhookEventCreate _) => true
  | .update (.paymentUpdate _ _) => true
  | .update (.paymentUpdateMany _ _) => true
  | .update (.bookingUpdate _ .CONFIRMED) => true
  | .external .dateNow => true
  | .external (.queueAdd (.paymentSuccess _ _ _)) => true
  | .external (.queueAdd (.paymentFailed _ _ _)) => true
  | _ => false

def Stmt.ofRefund : Stmt → Bool
  | .query (.paymentDetail _) => true
  | .query (.bookingFindActive _ _) => true
  | .lock (.booking _) => true
  | .update (.paymentUpdate _ _) => true
  | .update (.bookingUpdate _ .CANCELLED) => true
  | .update (.slotUpdate _ _) => true
  | .external .dateNow => true
  | .external (.createRefund _) => true
  | _ => false

def Stmt.ofCompletion : Stmt → Bool
  | .query (.bookingFindUnique _) => true
  | .query (.bookingFindExpired _) => true
  | .update (.bookingUpdate _ .COMPLETED) => true
  | .update (.auditLogCreate _) => true
  | _ => false

/-- The statement can be issued by the call. -/
def Call.issues : Call → Stmt → Bool
  | .create _ _ _ => Stmt.ofCreate
  | .cancel _ _ => Stmt.ofCancel
  | .cleanupStalePendingBookings _ => Stmt.ofCleanup
  | .createPaymentIntent bookingId _ => Stmt.ofIntent bookingId
  | .handleWebhook _ => Stmt.ofWebhook
  | .refund _ _ => Stmt.ofRefund
  | .completeBooking _ _ => Stmt.ofCompletion
  | .autoCompleteBookings _ => Stmt.ofCompletion

/-- A bracket, or a statement that meets `φ`. -/
def Within (φ : Stmt → Bool) : Cmd Stmt → Prop
  | .stmt s => φ s = true
  | _ => True

/-- The program issues such statements only. -/
abbrev Stays {α : Type} (φ : Stmt → Bool) (p : Op α) : Prop :=
  Script.Uses (Within φ) (fun _ => True) p

section

variable {α β : Type} {φ : Stmt → Bool}

theorem stays_bind {p : Op α} {f : α → Op β} (hp : Stays φ p) (hf : ∀ a, Stays φ (f a)) :
    Stays φ (p.bind f) :=
  Script.uses_bind hp fun a _ => hf a

theorem stays_query {q : Query} (h : φ (.query q) = true) : Stays φ (query q) :=
  Script.uses_perform (S := Stmt) h

theorem stays_lockRow {l : RowLock} (h : φ (.lock l) = true) : Stays φ (lockRow l) :=
  Script.uses_perform (S := Stmt) h

theorem stays_update {u : Update} (h : φ (.update u) = true) : Stays φ (update u) :=
  Script.uses_perform (S := Stmt) h

theorem stays_external {x : External} (h : φ (.external x) = true) : Stays φ (external x) :=
  Script.uses_perform (S := Stmt) h

theorem stays_quietly {p : Op Unit} (hp : Stays φ p) : Stays φ (quietly p) :=
  Script.uses_tryCatch hp fun _ => trivial

theorem stays_transaction {p : Op α} (hp : Stays φ p) : Stays φ (Script.transaction p) :=
  Script.uses_transaction trivial trivial trivial hp

theorem stays_tryFinally {p : Op α} {fin : Op Unit} (hp : Stays φ p) (hfin : Stays φ fin) :
    Stays φ (p.tryFinally fin) := by
  induction p with
  | ret a => exact stays_bind hfin fun _ => trivial
  | throw e => exact stays_bind hfin fun _ => trivial
  | call m k ih => exact ⟨hp.1, fun r => ih r (hp.2 r)⟩

theorem stays_collect {ι : Type} {f : ι → Op (Option α)} (h : ∀ i, Stays φ (f i)) (is : List ι) :
    Stays φ (Script.collect f is) := by
  induction is with
  | nil => trivial
  | cons i is ih => exact stays_bind (h i) fun _ => stays_bind ih fun _ => trivial

end

/-! ### The calls -/

/-- A quote reads the price, the coupon and the clock. -/
theorem BookingService.couponData_stays {φ : Stmt → Bool} (hprice : ∀ id, φ (.query (.turfPrice id)) = true)
    (hcode : ∀ code userId, φ (.query (.couponByCode code userId)) = true)
    (hnow : φ (.external .dateNow) = true) (cfg : Config) (dto : CreateBookingDto) (userId : UserId) :
    Stays φ (couponData cfg dto userId) := by
  unfold couponData
  split
  · trivial
  split_ifs
  · trivial
  refine stays_bind (stays_query (hprice _)) fun turfPrice => stays_bind ?_ fun _ => trivial
  refine stays_bind (stays_query (hcode _ _)) fun found => ?_
  cases found with
  | none => trivial
  | some row =>
    obtain ⟨coupon, couponUsages⟩ := row
    simp only
    split
    · trivial
    refine stays_bind (stays_external hnow) fun now => ?_
    split_ifs <;> trivial

theorem CouponService.applyCoupon_stays (couponId : CouponId) (userId : UserId)
    (bookingId : BookingId) (discount : Option ℚ) :
    Stays Stmt.ofCreate (applyCoupon couponId userId bookingId discount) := by
  refine stays_transaction (stays_bind (stays_lockRow rfl) fun row => ?_)
  cases row with
  | none => trivial
  | some coupon =>
    simp only
    split_ifs
    · trivial
    · trivial
    refine stays_bind (stays_query rfl) fun userUsageCount => ?_
    split_ifs
    · trivial
    · exact stays_bind (stays_update rfl) fun _ => stays_update rfl

namespace BookingService

theorem createTx_stays (dto : CreateBookingDto) (userId : UserId) (coupon : Option ValidatedCoupon) :
    Stays Stmt.ofCreate (createTx dto userId coupon) := by
  refine stays_bind (stays_lockRow rfl) fun row => ?_
  cases row with
  | none => trivial
  | some row =>
    obtain ⟨slot, turf⟩ := row
    simp only
    split_ifs
    · trivial
    · trivial
    refine stays_bind (stays_query rfl) fun existingBooking => ?_
    cases existingBooking with
    | some _ => trivial
    | none => exact stays_bind (stays_update rfl) fun _ => stays_bind (stays_update rfl) fun _ => trivial

theorem create_stays (cfg : Config) (dto : CreateBookingDto) (userId : UserId) (now : Time) :
    Stays Stmt.ofCreate (create cfg dto userId now) := by
  unfold create
  simp only
  split_ifs
  · trivial
  · trivial
  refine stays_bind (couponData_stays (fun _ => rfl) (fun _ _ => rfl) rfl cfg dto userId) fun coupon =>
    stays_bind (stays_external rfl) fun lockValue => ?_
  cases lockValue with
  | none => trivial
  | some value =>
    refine stays_tryFinally ?_ (stays_bind (stays_external rfl) fun _ => trivial)
    refine stays_bind (stays_transaction (createTx_stays dto userId coupon)) fun row => ?_
    refine stays_bind (stays_quietly (stays_external rfl)) fun _ => ?_
    have hqueue : ∀ job reply, Stmt.ofCreate (.external (.queueAdd job)) = true → Stays Stmt.ofCreate
        ((quietly (external (.queueAdd job))).bind fun _ => .ret reply : Op Reply) :=
      fun job reply h => stays_bind (stays_quietly (stays_external h)) fun _ => trivial
    cases coupon with
    | none => exact hqueue _ _ rfl
    | some quote => exact stays_bind (CouponService.applyCoupon_stays _ _ _ _) fun _ => hqueue _ _ rfl

theorem cancel_stays (id : BookingId) (userId : UserId) : Stays Stmt.ofCancel (cancel id userId) := by
  refine stays_bind (stays_query rfl) fun found => ?_
  cases found with
  | none => trivial
  | some booking =>
    simp only
    split_ifs
    · trivial
    · trivial
    refine stays_bind (stays_transaction ?_) fun _ => ?_
    swap
    · refine stays_bind (stays_quietly (stays_external rfl)) fun _ => ?_
      exact stays_bind (stays_quietly (stays_external rfl)) fun _ => trivial
    refine stays_bind (stays_lockRow rfl) fun row => ?_
    cases row with
    | none => trivial
    | some txBooking =>
      simp only
      split_ifs
      · trivial
      refine stays_bind (stays_update rfl) fun _ => stays_bind (stays_lockRow rfl) fun _ =>
        stays_bind (stays_query rfl) fun activeBookings => ?_
      split_ifs
      · exact stays_update rfl
      · trivial

theorem cleanupStalePendingBookings_stays (now : Time) :
    Stays Stmt.ofCleanup (cleanupStalePendingBookings now) := by
  refine stays_bind (stays_query rfl) fun candidateBookings => ?_
  split_ifs
  · trivial
  refine stays_bind (stays_transaction ?_) fun actualCancelled => stays_bind
    (Script.uses_forEach fun _ _ => stays_quietly (stays_external rfl)) fun _ => trivial
  refine stays_bind (stays_collect (fun _ => stays_lockRow rfl) _) fun staleBookings => ?_
  split_ifs
  · trivial
  refine stays_bind (stays_update rfl) fun _ => stays_bind
    (Script.uses_forEach fun _ _ => stays_lockRow rfl) fun _ =>
      stays_bind (stays_query rfl) fun activeBookings => ?_
  dsimp only
  split_ifs
  · trivial
  · exact stays_bind (stays_update rfl) fun _ => trivial

end BookingService

namespace PaymentService

theorem createPaymentIntent_stays (cfg : Config) (bookingId : BookingId) (userId : UserId) :
    Stays (Stmt.ofIntent bookingId) (createPaymentIntent cfg bookingId userId) := by
  refine stays_bind (stays_query (decide_eq_true rfl)) fun found => ?_
  cases found with
  | none => trivial
  | some d =>
    simp only
    split_ifs
    · trivial
    · trivial
    split
    · trivial
    · exact stays_bind (stays_external rfl) fun intent =>
        stays_bind (stays_update (decide_eq_true rfl)) fun _ => trivial

theorem handleEvent_stays (eventId : EventId) (event : StripeEvent) :
    Stays Stmt.ofWebhook (handleEvent eventId event) := by
  unfold handleEvent
  split
  · refine stays_bind (stays_query rfl) fun found => ?_
    split
    · trivial
    split_ifs
    · trivial
    refine stays_transaction (stays_bind (stays_update rfl) fun _ =>
      stays_bind (stays_lockRow rfl) fun row => ?_)
    cases row with
    | none => trivial
    | some txBooking =>
      simp only
      split_ifs
      · exact stays_bind (stays_external rfl) fun _ => stays_update rfl
      · exact stays_bind (stays_external rfl) fun _ => stays_bind (stays_update rfl) fun _ =>
          stays_bind (stays_update rfl) fun _ => stays_quietly (stays_external rfl)
  · refine stays_bind (stays_query rfl) fun found => ?_
    split
    · trivial
    · exact stays_bind (stays_transaction (stays_bind (stays_update rfl) fun _ => stays_update rfl))
        fun _ => stays_quietly (stays_external rfl)
  · exact stays_transaction (stays_bind (stays_update rfl) fun _ => stays_update rfl)
  · trivial

theorem handleWebhook_stays (cfg : Config) (event : Option EventId) :
    Stays Stmt.ofWebhook (handleWebhook cfg event) := by
  cases event with
  | none => trivial
  | some eventId =>
    refine stays_bind (Script.uses_tryCatch (handleEvent_stays _ _) fun e => ?_) fun _ => trivial
    cases e <;> trivial

theorem refund_stays (bookingId : BookingId) (userId : UserId) :
    Stays Stmt.ofRefund (refund bookingId userId) := by
  refine stays_bind (stays_query rfl) fun found => ?_
  cases found with
  | none => trivial
  | some d =>
    simp only
    split_ifs
    · trivial
    · trivial
    refine stays_bind (stays_external rfl) fun now => ?_
    split_ifs
    · trivial
    refine stays_bind (stays_external rfl) fun refundId =>
      stays_bind (stays_transaction ?_) fun _ => trivial
    refine stays_bind (stays_lockRow rfl) fun _ => stays_bind (stays_update rfl) fun _ =>
      stays_bind (stays_update rfl) fun _ => stays_bind (stays_query rfl) fun activeBookings => ?_
    split_ifs
    · exact stays_update rfl
    · trivial

end PaymentService

theorem AdminService.completeBooking_stays (bookingId : BookingId) (adminId : UserId) :
    Stays Stmt.ofCompletion (completeBooking bookingId adminId) := by
  refine stays_bind (stays_query rfl) fun found => ?_
  cases found with
  | none => trivial
  | some booking =>
    simp only
    split_ifs
    · trivial
    · exact stays_bind (stays_update rfl) fun _ => stays_bind (stays_update rfl) fun _ => trivial

theorem BookingCompleteJob.autoCompleteBookings_stays (now : Time) :
    Stays Stmt.ofCompletion (autoCompleteBookings now) := by
  refine stays_bind (stays_query rfl) fun expiredBookings =>
    stays_bind (Script.uses_forEach fun row _ => ?_) fun _ => trivial
  unfold complete
  split_ifs
  · exact stays_update rfl
  · trivial

theorem Call.body_stays (cfg : Config) (c : Call) : Stays c.issues (c.body cfg) := by
  cases c with
  | create dto userId now => exact BookingService.create_stays cfg dto userId now
  | cancel id userId => exact BookingService.cancel_stays id userId
  | cleanupStalePendingBookings now => exact BookingService.cleanupStalePendingBookings_stays now
  | createPaymentIntent bookingId userId =>
    exact PaymentService.createPaymentIntent_stays cfg bookingId userId
  | handleWebhook event => exact PaymentService.handleWebhook_stays cfg event
  | refund bookingId userId => exact PaymentService.refund_stays bookingId userId
  | completeBooking bookingId adminId => exact AdminService.completeBooking_stays bookingId adminId
  | autoCompleteBookings now => exact BookingCompleteJob.autoCompleteBookings_stays now

end TurfSync
