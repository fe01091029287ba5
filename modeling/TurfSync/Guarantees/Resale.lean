import TurfSync.Protocol.Solo
import TurfSync.Guarantees.Slots

/-! Selling a slot again. A slot that `cancel`, `cleanupStalePendingBookings` or `refund`
has released keeps its cancelled booking, and `bookings.slotId` is unique, so the
next `create` fails on the insertion: only a slot that never had a booking can be sold. -/

namespace TurfSync

open Txn

/-- `create`, served alone, books the slot: it answers a PENDING booking that is in the
database, and the flag is set. -/
def Sells (cfg : Config) (t : Sys) (dto : CreateBookingDto) (userId : UserId) : Prop :=
  ∃ b, (service cfg).reply t (.create dto userId t.world.out.now) = .ok (.booking b) ∧
    b.status = .PENDING ∧ b.userId = userId ∧ b.slotId = dto.slotId ∧
    b ∈ ((service cfg).serve t (.create dto userId t.world.out.now)).world.db.bookings ∧
    ∃ slot, ((service cfg).serve t (.create dto userId t.world.out.now)).world.db.slot? dto.slotId =
      some slot ∧ slot.isBooked = true

variable {cfg : Config} {s t : Sys} {as : List Act} {dto : CreateBookingDto} {userId : UserId}
  {slot : Slot} {turf : Turf}

open BookingService (Offered)

/-- What `create`, served alone, answers and leaves behind. -/
theorem create_cases (h : Offered t.world.db slot turf) (hslot : dto.slotId = slot.id)
    (hturf : dto.turfId = slot.turfId) (hcode : dto.couponCode = none)
    (hpast : ∀ d ∈ dto.date, startOfUTCDay t.world.out.now ≤ startOfUTCDay d)
    (hfuture : ∀ d ∈ dto.date, startOfUTCDay d ≤ startOfUTCDay t.world.out.now + 30 * dayMs)
    (hlock : t.world.out.slotLocks slot.id = none) :
    if cfg.slotIdUnique ∧ ∃ b ∈ t.world.db.bookings, b.slotId = slot.id then
      (service cfg).reply t (.create dto userId t.world.out.now) = .error .P2002
    else ∃ b : Booking, b.status = .PENDING ∧ b.userId = userId ∧ b.slotId = dto.slotId ∧
      (service cfg).reply t (.create dto userId t.world.out.now) = .ok (.booking b) ∧
      ((service cfg).serve t (.create dto userId t.world.out.now)).world.db =
        t.world.db.applyAll [.slotSet [slot.id] true, .bookingInsert b] := by
  obtain ⟨o, hcreate⟩ : ∃ o, ∀ r w₁,
      (engine cfg).solo ⟨t.threads.length, .create dto userId t.world.out.now⟩
        (BookingService.createLocked dto userId none) .idle { t.world with out := o } =
        (r, .idle, w₁) →
      ∃ w₂, (engine cfg).solo ⟨t.threads.length, .create dto userId t.world.out.now⟩
        (BookingService.create cfg dto userId t.world.out.now) .idle t.world = (r, .idle, w₂) ∧
        w₂.db = w₁.db := BookingService.solo_create hcode hpast hfuture (hslot ▸ hlock)
  have htx := @BookingService.solo_createTx_cases cfg
    ⟨t.threads.length, .create dto userId t.world.out.now⟩ { t.world with out := o } dto userId slot
    turf h hslot hturf
  split_ifs with htaken
  · rw [if_pos htaken] at htx
    obtain ⟨w₁, hlocked, -⟩ := BookingService.solo_createLocked htx
    obtain ⟨w₂, hs, -⟩ := hcreate _ _ hlocked
    exact congrArg Prod.fst hs
  · rw [if_neg htaken] at htx
    obtain ⟨w', id, time, htx, hdb⟩ := htx
    obtain ⟨w₁, hlocked, hdb₁⟩ := BookingService.solo_createLocked htx
    obtain ⟨w₂, hs, hdb₂⟩ := hcreate _ _ hlocked
    refine ⟨_, ?_, ?_, ?_, congrArg Prod.fst hs, ?_⟩
    · rfl
    · rfl
    · rfl
    · rw [Service.serve_of_solo (service cfg) hs, hdb₂, hdb₁, hdb]

theorem sells_iff (hu : cfg.slotIdUnique = true) (h : Offered t.world.db slot turf)
    (hslot : dto.slotId = slot.id) (hturf : dto.turfId = slot.turfId) (hcode : dto.couponCode = none)
    (hpast : ∀ d ∈ dto.date, startOfUTCDay t.world.out.now ≤ startOfUTCDay d)
    (hfuture : ∀ d ∈ dto.date, startOfUTCDay d ≤ startOfUTCDay t.world.out.now + 30 * dayMs)
    (hlock : t.world.out.slotLocks slot.id = none) :
    Sells cfg t dto userId ↔ ∀ b ∈ t.world.db.bookings, b.slotId ≠ slot.id := by
  have hcases := @create_cases cfg t dto userId slot turf h hslot hturf hcode hpast hfuture hlock
  constructor
  · rintro ⟨b, hreply, -⟩ b' hb' he
    rw [if_pos ⟨hu, b', hb', he⟩, hreply] at hcases
    cases hcases
  · intro hnone
    have hfree : ¬ (cfg.slotIdUnique ∧ ∃ b ∈ t.world.db.bookings, b.slotId = slot.id) := by
      rintro ⟨-, b, hb, he⟩
      exact hnone b hb he
    rw [if_neg hfree] at hcases
    obtain ⟨b, hstatus, huser, hbslot, hreply, hdb⟩ := hcases
    refine ⟨b, hreply, hstatus, huser, hbslot, ?_, { slot with isBooked := true }, ?_, rfl⟩
    · rw [hdb]
      exact List.mem_append_right _ (List.mem_singleton.mpr rfl)
    · have hslots : ((service cfg).serve t (.create dto userId t.world.out.now)).world.db.slots =
          Db.setSlots [slot.id] true t.world.db.slots := by
        rw [hdb]
        rfl
      rw [Db.slot?_set hslots, hslot, if_pos (by simp), h.slot?]
      rfl

/-- In every state of every run in which no call is inside a transaction, a free slot of
an active turf without a live booking is sold by `create` if and only if it has never
been booked. Serving the call alone is a run of the system. -/
theorem resale_iff (hs : s.Fresh) (hu : cfg.slotIdUnique = true)
    (hq : ((service cfg).run s as).Quiet)
    (hmem : slot ∈ ((service cfg).run s as).world.db.slots)
    (hactive : ((service cfg).run s as).world.db.turf? slot.turfId = some turf ∧ turf.isActive = true)
    (hfree : slot.isBooked = false) (hlive : ¬ ((service cfg).run s as).world.db.Taken slot.id)
    (hslot : dto.slotId = slot.id) (hturf : dto.turfId = slot.turfId) (hcode : dto.couponCode = none)
    (hpast : ∀ d ∈ dto.date,
      startOfUTCDay ((service cfg).run s as).world.out.now ≤ startOfUTCDay d)
    (hfuture : ∀ d ∈ dto.date,
      startOfUTCDay d ≤ startOfUTCDay ((service cfg).run s as).world.out.now + 30 * dayMs)
    (hlock : ((service cfg).run s as).world.out.slotLocks slot.id = none) :
    (∃ n, (service cfg).run s (as ++
        .spawn (.create dto userId ((service cfg).run s as).world.out.now) ::
          List.replicate n (.run ((service cfg).run s as).threads.length)) =
      (service cfg).serve ((service cfg).run s as)
        (.create dto userId ((service cfg).run s as).world.out.now)) ∧
    (Sells cfg ((service cfg).run s as) dto userId ↔
      ∀ b ∈ ((service cfg).run s as).world.db.bookings, b.slotId ≠ slot.id) := by
  have hkeeps : Sys.Keeps cfg (fun _ => True) ((service cfg).run s as) :=
    (hs.initial.always stable_true trivial).last
  have hv : ((service cfg).run s as).world.db.Valid cfg := hkeeps.inv.1.valid
  have hoffered : Offered ((service cfg).run s as).world.db slot turf := by
    refine ⟨(Rows.lookup_iff hv.slots).mpr ⟨hmem, rfl⟩, hactive.1, hactive.2, hfree, ?_⟩
    intro b hb he
    by_contra hst
    exact hlive ⟨b, hb, he, hst⟩
  constructor
  · obtain ⟨n, hn⟩ := Service.serve_eq_run (service cfg) hq
      (show (service cfg).accepts (.create dto userId ((service cfg).run s as).world.out.now) _ = true
        by simp [service, Call.madeAt])
    exact ⟨n, by rw [Service.run_append, hn]⟩
  · exact sells_iff hu hoffered hslot hturf hcode hpast hfuture hlock

/-- While slot 1 is sold, slot 2 can be. -/
theorem resale_sold : Sells (Arena.cfg true) ((service (Arena.cfg true)).run Arena.sys Arena.sold)
    (Arena.dto 2 none) 8 := by
  have hresale := @resale_iff (Arena.cfg true) Arena.sys Arena.sold (Arena.dto 2 none) 8
    (Arena.slot 2) Arena.turf Arena.fresh rfl (by decide +kernel)
    (by decide +kernel) (by decide +kernel) rfl (by decide +kernel) rfl rfl rfl (by decide +kernel)
    (by decide +kernel) (by decide +kernel)
  exact hresale.2.mpr (by decide +kernel)

/-- The booking on slot 1 is cancelled, so the slot is free, but nobody can book it. -/
theorem resale_fails :
    let t := (service (Arena.cfg true)).run Arena.sys
      (Arena.sold ++ Arena.first 3 (.cancel 101 7) 12)
    t.Quiet ∧ Arena.slot 1 ∈ t.world.db.slots ∧ ¬ t.world.db.Taken 1 ∧
      t.world.out.slotLocks 1 = none ∧ ¬ Sells (Arena.cfg true) t (Arena.dto 1 none) 8 := by
  intro t
  have hreply : (service (Arena.cfg true)).reply t
      (.create (Arena.dto 1 none) 8 t.world.out.now) = .error .P2002 := by decide +kernel
  refine ⟨by decide +kernel, by decide +kernel, by decide +kernel, by decide +kernel, ?_⟩
  rintro ⟨b, hb, -⟩
  rw [hreply] at hb
  cases hb

end TurfSync
