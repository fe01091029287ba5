import TurfSync.Services.Coupon

/-! `BookingService.create`, `cancel` and `cleanupStalePendingBookings`, and
`BookingCompleteJob.autoCompleteBookings`. -/

namespace TurfSync

open Txn

/-- `try { p } catch { log }`. -/
def quietly (p : Op Unit) : Op Unit := p.tryCatch fun _ => .ret ()

/-- `delByPattern('slots:available:<turfId>:*')`; the cache service logs its errors. -/
def delByPattern (turfId : TurfId) : Op Unit := quietly (external (.delByPattern turfId))

namespace BookingService

/-- The coupon quote, taken before any lock. -/
def couponData (cfg : Config) (dto : CreateBookingDto) (userId : UserId) :
    Op (Option ValidatedCoupon) :=
  match dto.couponCode with
  | none => pure none
  | some code =>
    if code = "" then pure none
    else do
      let turfPrice : Option ℚ ← query (.turfPrice dto.turfId)
      let quote ← CouponService.validateAndCalculate cfg code userId turfPrice
      pure (some quote)

/-- The body of the transaction of `create`. -/
def createTx (dto : CreateBookingDto) (userId : UserId) (coupon : Option ValidatedCoupon) :
    Op (Booking × Slot) := do
  let row ← lockRow (.slotWithTurf dto.slotId dto.turfId)
  match row with
  | none => .throw (.notFound "Slot not found for the given turf")
  | some (slot, turf) =>
    if turf.isActive = false then .throw (.badRequest "Turf is not active for booking")
    else if slot.isBooked then .throw (.badRequest "Slot is already booked")
    else do
      let existingBooking ← query (.bookingFindFirst userId dto.slotId)
      match existingBooking with
      | some _ => .throw (.conflict "You have already booked this slot")
      | none => do
        let _ ← update (.slotUpdate dto.slotId true)
        let booking ← update (.bookingCreate {
          userId := userId
          turfId := dto.turfId
          slotId := dto.slotId
          totalAmount := match coupon with
            | some quote => quote.finalAmount
            | none => some turf.pricePerHour
          notes := dto.notes })
        pure (booking, { slot with isBooked := true })

/-- What `create` does while it holds the Redis lock. -/
def createLocked (dto : CreateBookingDto) (userId : UserId) (coupon : Option ValidatedCoupon) :
    Op Reply := do
  let (booking, slot) ← Script.transaction (createTx dto userId coupon)
  delByPattern dto.turfId
  -- a rejected coupon throws here, after the booking has been committed
  match coupon with
  | some quote => CouponService.applyCoupon quote.couponId userId booking.id quote.discount
  | none => pure ()
  quietly (external (.queueAdd
    (.bookingConfirmed booking.id dto.date slot.startTime userId dto.turfId)))
  pure (.booking booking)

def create (cfg : Config) (dto : CreateBookingDto) (userId : UserId) (now : Time) : Op Reply :=
  let bookingDate := dto.date.map startOfUTCDay
  let today := startOfUTCDay now
  -- an invalid date compares with nothing, and passes
  if ∃ d ∈ bookingDate, d < today then .throw (.badRequest "Cannot book for past dates")
  else if ∃ d ∈ bookingDate, today + 30 * dayMs < d then
    .throw (.badRequest "Cannot book more than 30 days in advance")
  else do
    let coupon ← couponData cfg dto userId
    let lockValue : Option ℕ ← external (.acquireLock dto.slotId)
    match lockValue with
    | none =>
      .throw (.badRequest "Slot is currently being booked by another user. Please try again.")
    | some value =>
      (createLocked dto userId coupon).tryFinally do
        let _ ← external (.releaseLock dto.slotId value)

/-- The body of the transaction of `cancel`. -/
def cancelTx (id : BookingId) : Op Unit := do
  let row ← lockRow (.booking id)
  match row with
  | none => .throw (.notFound "Booking not found")
  | some txBooking =>
    if txBooking.status = .CANCELLED then .throw (.badRequest "Booking is already cancelled")
    else do
      let _ ← update (.bookingUpdate id .CANCELLED)
      let _ ← lockRow (.slot txBooking.slotId)
      let activeBookings : List Booking ← query (.bookingFindActive [txBooking.slotId] [id])
      if activeBookings = [] then update (.slotUpdate txBooking.slotId false)
      else pure ()

def cancel (id : BookingId) (userId : UserId) : Op Reply := do
  let found ← query (.bookingFindUnique id)
  match found with
  | none => .throw (.notFound "No booking found")
  | some booking =>
    if booking.userId ≠ userId then
      .throw (.forbidden "You are not authorized to cancel this booking")
    else if booking.status = .CANCELLED then .throw (.badRequest "Booking is already cancelled")
    else do
      Script.transaction (cancelTx id)
      delByPattern booking.turfId
      quietly (external (.queueAdd (.bookingCancelled booking)))
      pure (.message "Booking cancelled successfully")

/-- The body of the transaction of `cleanupStalePendingBookings`. -/
def cleanupTx (candidateIds : List BookingId) : Op (List Booking) := do
  let staleBookings ← Script.collect (fun id => lockRow (.pendingBooking id)) candidateIds
  if staleBookings = [] then pure []
  else do
    let staleIds := staleBookings.map (·.id)
    let _ ← update (.bookingUpdateManyPending staleIds .CANCELLED)
    let slotIds := staleBookings.map (·.slotId)
    Script.forEach (fun id => lockRow (.slot id)) slotIds
    let activeBookings : List Booking ← query (.bookingFindActive slotIds staleIds)
    let slotsToRelease := slotIds.filter fun id => id ∉ activeBookings.map (·.slotId)
    if slotsToRelease = [] then pure staleBookings
    else do
      let _ ← update (.slotUpdateMany slotsToRelease false)
      pure staleBookings

def cleanupStalePendingBookings (now : Time) : Op Reply := do
  let fifteenMinutesAgo := now - 15 * 60 * 1000
  let candidateBookings : List Booking ← query (.bookingFindStale fifteenMinutesAgo)
  if candidateBookings = [] then pure .done
  else do
    let actualCancelled ← Script.transaction (cleanupTx (candidateBookings.map (·.id)))
    Script.forEach delByPattern (actualCancelled.map (·.turfId)).dedup
    pure .done

end BookingService

namespace BookingCompleteJob

/-- The end of a slot as the job computes it. -/
def slotDate (slot : Slot) : Time := setUTCHours slot.date slot.endTime.hour 0

def complete (now : Time) (row : Booking × Slot) : Op Unit :=
  if slotDate row.2 < now then update (.bookingUpdate row.1.id .COMPLETED) else pure ()

def autoCompleteBookings (now : Time) : Op Reply := do
  let expiredBookings : List (Booking × Slot) ← query (.bookingFindExpired now)
  Script.forEach (complete now) expiredBookings
  pure .done

end BookingCompleteJob

end TurfSync
