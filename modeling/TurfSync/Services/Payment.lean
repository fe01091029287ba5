import TurfSync.Services.Booking

/-! `PaymentService`: payment intents, the Stripe webhooks and refunds; and
`AdminService.completeBooking`. -/

namespace TurfSync

open Txn

/-- The client secret of a payment that is still INITIATED, with the payment's id. -/
def Payment.openSecret (p : Payment) : Option (ClientSecret × PaymentId) :=
  if p.status = .INITIATED then p.stripeClientSecret.map fun secret => (secret, p.id) else none

namespace PaymentService

def createPaymentIntent (cfg : Config) (bookingId : BookingId) (userId : UserId) : Op Reply := do
  let found : Option BookingDetail ← query (.bookingDetail bookingId)
  match found with
  | none => .throw (.notFound "Booking not found")
  | some d =>
    if d.booking.userId ≠ userId then
      .throw (.badRequest "You are not authorized to make payment for this booking")
    else if d.payment.map (·.status) = some .PAID then
      .throw (.conflict "This booking payment already completed")
    else match d.payment.bind Payment.openSecret with
      | some (secret, paymentId) => pure (.intent secret paymentId d.booking.totalAmount)
      | none => do
        let intent : IntentId ← external (.createIntent {
          bookingId := d.booking.id
          amount := mathRound (d.booking.totalAmount * 100)
          currency := cfg.currency
          userId := userId
          turfName := d.turf.name
          slotTime := (d.slot.startTime, d.slot.endTime) })
        let payment : Payment ←
          update (.paymentUpsert bookingId d.booking.totalAmount cfg.currency intent ⟨intent⟩)
        pure (.intent ⟨intent⟩ payment.id d.booking.totalAmount)

/-- The body of the transaction of `handlePaymentSuccess`. -/
def paymentSuccessTx (eventId : EventId) (event : StripeEvent) (payment : Payment)
    (booking : Booking) : Op Unit := do
  let _ ← update (.webhookEventCreate eventId)
  let row ← lockRow (.booking payment.bookingId)
  match row with
  | none => .throw (.notFound "Booking not found")
  | some txBooking =>
    if txBooking.status ≠ .PENDING then do
      let paidAt : Time ← external .dateNow
      update (.paymentUpdate payment.id (.paid event.latestCharge paidAt))
    else do
      let paidAt : Time ← external .dateNow
      let _ ← update (.paymentUpdate payment.id (.paid event.latestCharge paidAt))
      let _ ← update (.bookingUpdate payment.bookingId .CONFIRMED)
      quietly (external (.queueAdd (.paymentSuccess payment.id payment.amount booking)))

def handlePaymentSuccess (eventId : EventId) (event : StripeEvent) : Op Unit := do
  let found : Option (Payment × Booking) ← query (.paymentByIntent event.intent)
  match found with
  | none => pure ()
  | some (payment, booking) =>
    if payment.status = .PAID then pure ()
    else Script.transaction (paymentSuccessTx eventId event payment booking)

/-- The body of the transaction of `handlePaymentFailed`. -/
def paymentFailedTx (eventId : EventId) (paymentId : PaymentId) (failureReason : String) :
    Op Unit := do
  let _ ← update (.webhookEventCreate eventId)
  update (.paymentUpdate paymentId (.failed failureReason))

def handlePaymentFailed (eventId : EventId) (event : StripeEvent) : Op Unit := do
  let found : Option (Payment × Booking) ← query (.paymentByIntent event.intent)
  match found with
  | none => pure ()
  | some (payment, booking) => do
    -- an empty message is replaced as well
    let failureReason := match event.lastPaymentError with
      | some message => if message = "" then "Payment failed" else message
      | none => "Payment failed"
    Script.transaction (paymentFailedTx eventId payment.id failureReason)
    quietly (external (.queueAdd (.paymentFailed payment.id failureReason booking)))

/-- The body of the transaction of `handlePaymentProcessing`. -/
def paymentProcessingTx (eventId : EventId) (event : StripeEvent) : Op Unit := do
  let _ ← update (.webhookEventCreate eventId)
  update (.paymentUpdateMany event.intent .processing)

def handlePaymentProcessing (eventId : EventId) (event : StripeEvent) : Op Unit :=
  Script.transaction (paymentProcessingTx eventId event)

/-- The handler of an event type. -/
def handleEvent (eventId : EventId) (event : StripeEvent) : Op Unit :=
  match event.type with
  | .succeeded => handlePaymentSuccess eventId event
  | .payment_failed => handlePaymentFailed eventId event
  | .processing => handlePaymentProcessing eventId event
  | .other => pure ()

/-- The `catch` around the handlers: a unique violation counts as processed. -/
def skipDuplicate : Err → Op Unit
  | .P2002 => pure ()
  | e => .throw e

def handleWebhook (cfg : Config) : Option EventId → Op Reply
  | none => .throw (.badRequest "Invalid webhook signature")
  | some eventId => do
    (handleEvent eventId (cfg.event eventId)).tryCatch skipDuplicate
    pure .success

/-- The body of the transaction of `refund`. -/
def refundTx (bookingId : BookingId) (paymentId : PaymentId) (slotId : SlotId) : Op Unit := do
  let _ ← lockRow (.booking bookingId)
  let _ ← update (.paymentUpdate paymentId .refunded)
  let _ ← update (.bookingUpdate bookingId .CANCELLED)
  -- unlike `cancel`, the slot row is not locked before the active bookings are read
  let activeBookings : List Booking ← query (.bookingFindActive [slotId] [bookingId])
  if activeBookings = [] then update (.slotUpdate slotId false)
  else pure ()

def refund (bookingId : BookingId) (userId : UserId) : Op Reply := do
  let found : Option PaymentDetail ← query (.paymentDetail bookingId)
  match found with
  | none => .throw (.notFound "Payment not found")
  | some d =>
    if d.booking.userId ≠ userId then
      .throw (.forbidden "You are not authorized to refund this booking")
    else if d.payment.status ≠ .PAID then
      .throw (.badRequest "Payment must be paid to be refunded")
    else do
      let now : Time ← external .dateNow
      if setUTCHours d.slot.date d.slot.startTime.hour d.slot.startTime.minute ≤ now then
        .throw (.badRequest "Cannot refund a booking whose slot has already started or passed")
      else do
        let refundId : ℕ ← external (.createRefund d.payment.stripePaymentIntentId)
        Script.transaction (refundTx bookingId d.payment.id d.slot.id)
        pure (.refunded refundId d.payment.amount bookingId)

end PaymentService

namespace AdminService

def completeBooking (bookingId : BookingId) (adminId : UserId) : Op Reply := do
  let found : Option Booking ← query (.bookingFindUnique bookingId)
  match found with
  | none => .throw (.notFound "Booking not found")
  | some booking =>
    if booking.status ≠ .CONFIRMED then
      .throw (.badRequest "Only confirmed Bookings can be completed")
    else do
      let _ ← update (.bookingUpdate bookingId .COMPLETED)
      let _ ← update (.auditLogCreate {
        adminId := adminId
        action := "BOOKING_COMPLETED"
        targetId := bookingId
        targetType := "BOOKING"
        previousStatus := .CONFIRMED })
      pure (.booking { booking with status := .COMPLETED })

end AdminService

end TurfSync
