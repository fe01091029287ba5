import TurfSync.Services.Turf
import TurfSync.Txn.Footprint
import TurfSync.Protocol.Solo
import TurfSync.Guarantees.SlotTable

/-! Cached listings of slots. A listing is current if the database gives the same one
again. A write that sets flags of slots leaves only the listings of their turfs and dates
behind; most calls make no such write. -/

namespace TurfSync

open Txn SlotService

/-! ### Current listings -/

/-- The database gives the listing again, and would generate no slot of that day. -/
structure Db.Current (db : Db) (turfId : TurfId) (date : Time) (listing : Listing) : Prop where
  turf : db.turf? turfId = some listing.turf
  slots : listing.slots = db.slotsOn turfId date
  day : listing.date = date
  complete : listing.turf.endHour - listing.turf.currentHour ≤ listing.slots.length ∨
    ∀ d ∈ slotsToCreate listing.turf date, startOfUTCDay d.date = date →
      ∃ s ∈ db.slots, s.key = d.key

/-- A slot that is on a turf. -/
def Db.Houses (db : Db) (slotId : SlotId) (turfId : TurfId) : Prop :=
  ∃ s ∈ db.slots, s.id = slotId ∧ s.turfId = turfId

/-- The cached listings are current, except for the turfs and dates in `dirty`. -/
structure World.Listed (dirty : TurfId → Time → Prop) (w : World) : Prop where
  ids : (w.db.slots.map (·.id)).Nodup
  drawn : ∀ s ∈ w.db.slots, s.id < w.out.uuid
  housed : ∀ b ∈ w.db.bookings, w.db.Houses b.slotId b.turfId
  current : ∀ e ∈ w.out.slotCache, ¬ dirty e.1 e.2.1 → w.db.Current e.1 e.2.1 e.2.2

/-- No exceptions. -/
abbrev nowhere : TurfId → Time → Prop := fun _ _ => False

variable {cfg : Config} {c : Session Call} {dirty : TurfId → Time → Prop} {db db' : Db}
  {w w' : World} {turfId : TurfId} {date : Time} {listing : Listing}

theorem Db.Current.congr (h : db.Current turfId date listing)
    (hturf : db'.turf? turfId = db.turf? turfId)
    (hslots : db'.slotsOn turfId date = db.slotsOn turfId date)
    (hkeys : ∀ s ∈ db.slots, ∃ s' ∈ db'.slots, s'.key = s.key) :
    db'.Current turfId date listing where
  turf := hturf.trans h.turf
  slots := h.slots.trans hslots.symm
  day := h.day
  complete := h.complete.imp_right fun htaken d hd hday => by
    obtain ⟨s, hs, hkey⟩ := htaken d hd hday
    obtain ⟨s', hs', hkey'⟩ := hkeys s hs
    exact ⟨s', hs', hkey'.trans hkey⟩

theorem Db.Current.of_eq (h : db.Current turfId date listing) (hturfs : db'.turfs = db.turfs)
    (hslots : db'.slots = db.slots) : db'.Current turfId date listing :=
  h.congr (by rw [Db.turf?, hturfs, Db.turf?]) (by rw [Db.slotsOn, hslots, Db.slotsOn])
    fun s hs => ⟨s, hslots ▸ hs, rfl⟩

/-- The slot under an id is on one turf. -/
theorem World.Listed.turfId_eq (h : w.Listed dirty) {s : Slot} (hs : s ∈ w.db.slots)
    (hhouse : w.db.Houses s.id turfId) : s.turfId = turfId := by
  obtain ⟨s', hs', hid, hturf⟩ := hhouse
  obtain rfl := Rows.eq_of_key h.ids hs' hs hid
  exact hturf

theorem World.Listed.mono (h : w.Listed dirty) {dirty' : TurfId → Time → Prop}
    (hd : ∀ e ∈ w.out.slotCache, dirty e.1 e.2.1 → dirty' e.1 e.2.1) : w.Listed dirty' :=
  { h with current := fun e he hn => h.current e he fun hdirty => hn (hd e he hdirty) }

/-- Effects outside the database; no call of the booking side adds a listing. -/
theorem World.Listed.out (h : w.Listed dirty) {o : Outside} (huuid : w.out.uuid ≤ o.uuid)
    (hcache : ∀ e ∈ o.slotCache, e ∈ w.out.slotCache) : World.Listed dirty { w with out := o } where
  ids := h.ids
  drawn s hs := Nat.lt_of_lt_of_le (h.drawn s hs) huuid
  housed := h.housed
  current e he := h.current e (hcache e he)

/-! ### Writes -/

/-- A write sets flags of slots in `dirty` only, and books a slot on its turf. -/
def Write.Marks (dirty : TurfId → Time → Prop) (db : Db) : Write → Prop
  | .slotSet ids v => ∀ s ∈ db.slots, s.id ∈ ids → s.isBooked ≠ v → dirty s.turfId s.date
  | .bookingInsert b => db.Houses b.slotId b.turfId
  | _ => True

theorem slotsOn_setSlots {ids : List SlotId} {v : Bool} (hslots : db'.slots = Db.setSlots ids v db.slots)
    (h : ∀ s ∈ db.slots, s.id ∈ ids → s.isBooked ≠ v → ¬ (s.turfId = turfId ∧ s.date = date)) :
    db'.slotsOn turfId date = db.slotsOn turfId date := by
  unfold Db.slotsOn
  rw [hslots, Db.setSlots, Rows.update, List.filter_map]
  congr 1
  have hp : ((fun s : Slot => decide (s.turfId = turfId ∧ s.date = date)) ∘
      fun s => if s.id ∈ ids then { s with isBooked := v } else s) =
      fun s => decide (s.turfId = turfId ∧ s.date = date) := by
    funext s
    by_cases hid : s.id ∈ ids <;> simp [hid]
  rw [hp]
  refine (List.map_congr_left fun s hs => ?_).trans (List.map_id _)
  obtain ⟨hmem, hon⟩ := List.mem_filter.mp hs
  by_cases hid : s.id ∈ ids
  · have hflag : s.isBooked = v := by
      by_contra hne
      exact h s hmem hid hne (of_decide_eq_true hon)
    rw [if_pos hid, ← hflag]
    rfl
  · rw [if_neg hid]
    rfl

/-- Changing flags leaves the places of the slots. -/
theorem setSlots_places {ids : List SlotId} {v : Bool}
    (hslots : db'.slots = Db.setSlots ids v db.slots) {s : Slot} (hs : s ∈ db.slots) :
    ∃ s' ∈ db'.slots, s'.key = s.key ∧ s'.id = s.id ∧ s'.turfId = s.turfId := by
  rw [hslots]
  refine ⟨_, Rows.mem_update.mpr ⟨s, hs, rfl⟩, ?_⟩
  split_ifs <;> exact ⟨rfl, rfl, rfl⟩

theorem World.Listed.write (h : w.Listed dirty) {x : Write} (hx : x.Marks dirty w.db) :
    World.Listed dirty { w with db := w.db.apply x } := by
  have hcurrent : ∀ {db' : Db}, db'.turfs = w.db.turfs → db'.slots = w.db.slots →
      ∀ e ∈ w.out.slotCache, ¬ dirty e.1 e.2.1 → db'.Current e.1 e.2.1 e.2.2 :=
    fun hturfs hslots e he hn => (h.current e he hn).of_eq hturfs hslots
  cases x with
  | slotSet ids v =>
    have hids : (Db.setSlots ids v w.db.slots).map (·.id) = w.db.slots.map (·.id) :=
      Rows.keys_update fun _ => rfl
    have hplaces : ∀ s ∈ w.db.slots, ∃ s' ∈ (w.db.apply (.slotSet ids v)).slots,
        s'.key = s.key ∧ s'.id = s.id ∧ s'.turfId = s.turfId := fun s hs => setSlots_places rfl hs
    refine ⟨hids ▸ h.ids, fun s hs => ?_, fun b hb => ?_, fun e he hn => ?_⟩
    · obtain ⟨s₀, hs₀, rfl⟩ := Rows.mem_update.mp hs
      split_ifs <;> exact h.drawn s₀ hs₀
    · obtain ⟨s, hs, hid, hturf⟩ := h.housed b hb
      obtain ⟨s', hs', -, hid', hturf'⟩ := hplaces s hs
      exact ⟨s', hs', hid'.trans hid, hturf'.trans hturf⟩
    · refine (h.current e he hn).congr rfl (slotsOn_setSlots rfl fun s hs hid hne hon => ?_)
        fun s hs => ?_
      · have hdirty := hx s hs hid hne
        rw [hon.1, hon.2] at hdirty
        exact hn hdirty
      · obtain ⟨s', hs', hkey, -⟩ := hplaces s hs
        exact ⟨s', hs', hkey⟩
  | bookingInsert b =>
    refine ⟨h.ids, h.drawn, fun b' hb' => ?_, hcurrent rfl rfl⟩
    rcases List.mem_append.mp hb' with hb' | hb'
    · exact h.housed b' hb'
    · rw [List.mem_singleton.mp hb']
      exact hx
  | bookingSet ids st =>
    refine ⟨h.ids, h.drawn, fun b' hb' => ?_, hcurrent rfl rfl⟩
    obtain ⟨b, hb, rfl⟩ := Rows.mem_update.mp hb'
    split_ifs <;> exact h.housed b hb
  | _ => exact ⟨h.ids, h.drawn, h.housed, hcurrent rfl rfl⟩

/-- What a write may do is not changed by another one. -/
theorem Write.Marks.after {x y : Write} (hx : x.Marks dirty db) (hy : y.Marks dirty db) :
    y.Marks dirty (db.apply x) := by
  have hhouses : ∀ {slotId turfId}, db.Houses slotId turfId →
      (db.apply x).Houses slotId turfId := by
    rintro slotId turfId ⟨s, hs, hid, hturf⟩
    cases x with
    | slotSet ids v =>
      obtain ⟨s', hs', -, hid', hturf'⟩ : ∃ s' ∈ (db.apply (.slotSet ids v)).slots,
        s'.key = s.key ∧ s'.id = s.id ∧ s'.turfId = s.turfId := setSlots_places rfl hs
      exact ⟨s', hs', hid'.trans hid, hturf'.trans hturf⟩
    | _ => exact ⟨s, hs, hid, hturf⟩
  cases y with
  | slotSet ids v =>
    cases x with
    | slotSet ids' v' =>
      intro s hs hid hne
      obtain ⟨s₀, hs₀, rfl⟩ := Rows.mem_update.mp hs
      split_ifs at hid hne ⊢ with hin
      · by_cases hflag : s₀.isBooked = v
        · exact hx s₀ hs₀ hin fun he => hne (he.symm.trans hflag)
        · exact hy s₀ hs₀ hid hflag
      · exact hy s₀ hs₀ hid hne
    | _ => exact hy
  | bookingInsert b => exact hhouses hy
  | _ => trivial

theorem World.Listed.commit (h : w.Listed dirty) {ws : List Write}
    (hws : ∀ x ∈ ws, x.Marks dirty w.db) : World.Listed dirty (Commits.result c ws w) := by
  have hdb : World.Listed dirty { w with db := w.db.applyAll ws } := by
    induction ws generalizing w with
    | nil => exact h
    | cons x ws ih =>
      have hx := hws x (by simp)
      exact ih (h.write hx) fun y hy => hx.after (hws y (List.mem_cons_of_mem x hy))
  exact ⟨hdb.ids, hdb.drawn, hdb.housed, hdb.current⟩

/-! ### Statements -/

/-- An update that makes such writes only. -/
def Update.Marks (dirty : TurfId → Time → Prop) (db : Db) : Update → Prop
  | .slotUpdate id v => ∀ s ∈ db.slots, s.id = id → s.isBooked ≠ v → dirty s.turfId s.date
  | .slotUpdateMany ids v => ∀ s ∈ db.slots, s.id ∈ ids → s.isBooked ≠ v → dirty s.turfId s.date
  | .bookingCreate d => db.Houses d.slotId d.turfId
  | _ => True

theorem plan_marks {u : Update} (hu : u.Marks dirty db) (db' : Db) (uuid : ℕ) (now : Time) :
    ∀ x ∈ (u.plan cfg db' uuid now).writes, x.Marks dirty db := by
  intro x hx
  have hputs := puts_of_mem hx
  cases u with
  | slotUpdate id v =>
    obtain rfl := hputs
    exact fun s hs hid => hu s hs (List.mem_singleton.mp hid)
  | slotUpdateMany ids v =>
    obtain rfl := hputs
    exact hu
  | bookingCreate d =>
    obtain ⟨amount, rfl⟩ := hputs
    exact hu
  | bookingUpdateManyPending | paymentUpdateMany | couponUsageCreate =>
    obtain ⟨_, rfl⟩ := hputs
    trivial
  | paymentUpsert => obtain ⟨_, rfl⟩ | rfl := hputs <;> trivial
  | _ =>
    obtain rfl := hputs
    trivial

/-- The commands of a transaction that makes such writes only. -/
def Marking (dirty : TurfId → Time → Prop) (db : Db) : Cmd Stmt → Prop
  | .stmt (.update u) => u.Marks dirty db
  | .stmt _ => True
  | _ => False

/-- The commands of a call that sets no flag and books nothing. -/
def Tame : Cmd Stmt → Prop
  | .stmt (.update u) => ∀ db, u.Marks nowhere db
  | _ => True

theorem act_marks {s : Stmt} (hs : Marking dirty db (.stmt s)) (v w : World) :
    ∀ x ∈ ((engine cfg).act s v w).writes, x.Marks dirty db := by
  cases s with
  | update u => exact plan_marks hs v.db _ _
  | _ => exact fun x hx => by cases hx

theorem External.cache_subset (o : Outside) (x : External) :
    ∀ e ∈ (x.eval o).2.slotCache, e ∈ o.slotCache := by
  intro e he
  cases x with
  | delByPattern turfId => exact (List.mem_filter.mp he).1
  | acquireLock id =>
    simp only [External.eval] at he
    split_ifs at he <;> exact he
  | releaseLock id v =>
    simp only [External.eval] at he
    split_ifs at he <;> exact he
  | createRefund i =>
    simp only [External.eval] at he
    split_ifs at he <;> exact he
  | _ => exact he

theorem World.Listed.act (h : w.Listed dirty) (s : Stmt) (v : World) :
    ((engine cfg).act s v w).world.Listed dirty := by
  cases s with
  | query q => exact h
  | lock r => exact h
  | update u => exact h.out (Nat.le_add_right _ _) fun e he => he
  | external x => exact h.out (x.uuid_le w.out) (x.cache_subset w.out)

/-- Inside a transaction: its writes may set flags in `dirty`. -/
structure Carries (dirty : TurfId → Time → Prop) (db : Db) (l : Local Key Write) (w : World) :
    Prop where
  writes : ∃ ws, l.tx = some ws ∧ ∀ x ∈ ws, x.Marks dirty db
  db : w.db = db
  listed : w.Listed nowhere

theorem Carries.exec {l : Local Key Write} (h : Carries dirty db l w) {m : Cmd Stmt}
    (hm : Marking dirty db m) : Carries dirty db ((engine cfg).exec l w m).loc
      ((engine cfg).after c ((engine cfg).exec l w m)) := by
  obtain ⟨ws, htx, hws⟩ := h.writes
  cases m with
  | stmt s =>
    rw [Engine.after_tx htx, Engine.exec_tx htx]
    refine ⟨⟨_, rfl, fun x hx => ?_⟩, ?_, h.listed.act s _⟩
    · rcases List.mem_append.mp hx with hx | hx
      · exact hws x hx
      · exact act_marks hm _ _ x hx
    · obtain ⟨o, ho, -⟩ := act_out cfg s ((engine cfg).view ws w) w
      rw [ho]
      exact h.db
  | _ => exact hm.elim

/-- Between the statements of a call that sets no flag. -/
structure Calm (l : Local Key Write) (w : World) : Prop where
  writes : ∀ x ∈ l.tx.getD [], x.Marks nowhere w.db
  listed : w.Listed nowhere

theorem Calm.exec {l : Local Key Write} (h : Calm l w) {m : Cmd Stmt} (hm : Tame m) :
    Calm ((engine cfg).exec l w m).loc ((engine cfg).after c ((engine cfg).exec l w m)) := by
  have hidle : ∀ w : World, w.Listed nowhere → Calm .idle w := fun w hw => ⟨by simp, hw⟩
  cases m with
  | begin => exact ⟨by simp [Engine.exec], h.listed⟩
  | commit => exact hidle _ (h.listed.commit h.writes)
  | rollback => exact hidle _ h.listed
  | stmt s =>
    have hmark : ∀ db, Marking nowhere db (.stmt s) := by
      intro db
      cases s with
      | update u => exact hm db
      | _ => trivial
    cases htx : l.tx with
    | some ws =>
      obtain ⟨o, ho, -⟩ := act_out cfg s ((engine cfg).view ws w) w
      have hlisted : ((engine cfg).act s ((engine cfg).view ws w) w).world.Listed nowhere :=
        h.listed.act s _
      rw [Engine.after_tx htx, Engine.exec_tx htx]
      refine ⟨fun x hx => ?_, hlisted⟩
      rw [ho]
      rcases List.mem_append.mp hx with hx | hx
      · exact h.writes x (by simpa [htx] using hx)
      · exact act_marks (hmark _) _ _ x hx
    | none =>
      obtain ⟨o, ho, -⟩ := act_out cfg s w w
      have hlisted : ((engine cfg).act s w w).world.Listed nowhere := h.listed.act s w
      rw [Engine.after_auto htx, Engine.exec_auto htx]
      refine ⟨by simp [htx], ?_⟩
      split_ifs
      · exact hlisted
      · refine hlisted.commit fun x hx => ?_
        exact act_marks (hmark _) _ _ x hx

/-! ### Calls that set no flag -/

abbrev Harmless {α : Type} (p : Op α) : Prop := Script.Uses Tame (fun _ => True) p

section

variable {α β : Type} {p : Op α} {f : α → Op β}

theorem harmless_bind (hp : Harmless p) (hf : ∀ a, Harmless (f a)) : Harmless (p.bind f) :=
  Script.uses_bind hp fun a _ => hf a

theorem harmless_query (q : Query) : Harmless (query q) := Script.uses_perform trivial

theorem harmless_lock (r : RowLock) : Harmless (lockRow r) := Script.uses_perform trivial

theorem harmless_external (x : External) : Harmless (external x) := Script.uses_perform trivial

theorem harmless_update {u : Update} (hu : ∀ db, u.Marks nowhere db) : Harmless (update u) :=
  Script.uses_perform hu

theorem harmless_transaction (hp : Harmless p) : Harmless (Script.transaction p) :=
  Script.uses_transaction trivial trivial trivial hp

theorem harmless_quietly {p : Op Unit} (hp : Harmless p) : Harmless (quietly p) :=
  Script.uses_tryCatch hp fun _ => trivial

end

theorem CouponService.applyCoupon_harmless {couponId : CouponId} {userId : UserId}
    {bookingId : BookingId} {discount : Option ℚ} :
    Harmless (CouponService.applyCoupon couponId userId bookingId discount) := by
  refine harmless_transaction (harmless_bind (harmless_lock _) fun row => ?_)
  cases row with
  | none => trivial
  | some coupon =>
    simp only
    split_ifs
    · trivial
    · trivial
    · refine harmless_bind (harmless_query _) fun userUsageCount => ?_
      split_ifs
      · trivial
      · exact harmless_bind (harmless_update fun _ => trivial) fun _ =>
          harmless_update fun _ => trivial

theorem BookingService.couponData_harmless {dto : CreateBookingDto} {userId : UserId} :
    Harmless (BookingService.couponData cfg dto userId) := by
  unfold BookingService.couponData
  split
  · trivial
  · split_ifs
    · trivial
    · refine harmless_bind (harmless_query _) fun turfPrice => harmless_bind ?_ fun _ => trivial
      refine harmless_bind (harmless_query _) fun found => ?_
      cases found with
      | none => trivial
      | some row =>
        simp only
        split
        · trivial
        · refine harmless_bind (harmless_external _) fun now => ?_
          split_ifs <;> trivial

namespace PaymentService

theorem createPaymentIntent_harmless {bookingId : BookingId} {userId : UserId} :
    Harmless (createPaymentIntent cfg bookingId userId) := by
  refine harmless_bind (harmless_query _) fun found => ?_
  cases found with
  | none => trivial
  | some d =>
    simp only
    split_ifs
    · trivial
    · trivial
    · split
      · trivial
      · exact harmless_bind (harmless_external _) fun _ =>
          harmless_bind (harmless_update fun _ => trivial) fun _ => trivial

theorem handlePaymentSuccess_harmless {id : EventId} {event : StripeEvent} :
    Harmless (handlePaymentSuccess id event) := by
  refine harmless_bind (harmless_query _) fun found => ?_
  cases found with
  | none => trivial
  | some row =>
    simp only
    split_ifs
    · trivial
    · refine harmless_transaction (harmless_bind (harmless_update fun _ => trivial) fun _ =>
        harmless_bind (harmless_lock _) fun locked => ?_)
      cases locked with
      | none => trivial
      | some txBooking =>
        simp only
        split_ifs
        · exact harmless_bind (harmless_external _) fun _ => harmless_update fun _ => trivial
        · exact harmless_bind (harmless_external _) fun _ =>
            harmless_bind (harmless_update fun _ => trivial) fun _ =>
              harmless_bind (harmless_update fun _ => trivial) fun _ =>
                harmless_quietly (harmless_external _)

theorem handlePaymentFailed_harmless {id : EventId} {event : StripeEvent} :
    Harmless (handlePaymentFailed id event) := by
  refine harmless_bind (harmless_query _) fun found => ?_
  cases found with
  | none => trivial
  | some row =>
    exact harmless_bind (harmless_transaction (harmless_bind (harmless_update fun _ => trivial)
      fun _ => harmless_update fun _ => trivial)) fun _ => harmless_quietly (harmless_external _)

theorem handleWebhook_harmless {event : Option EventId} : Harmless (handleWebhook cfg event) := by
  cases event with
  | none => trivial
  | some id =>
    refine harmless_bind (Script.uses_tryCatch ?_ fun e => ?_) fun _ => trivial
    · unfold handleEvent
      split
      · exact handlePaymentSuccess_harmless
      · exact handlePaymentFailed_harmless
      · exact harmless_transaction (harmless_bind (harmless_update fun _ => trivial) fun _ =>
          harmless_update fun _ => trivial)
      · trivial
    · unfold skipDuplicate
      split <;> trivial

end PaymentService

theorem AdminService.completeBooking_harmless {bookingId : BookingId} {adminId : UserId} :
    Harmless (AdminService.completeBooking bookingId adminId) := by
  refine harmless_bind (harmless_query _) fun found => ?_
  cases found with
  | none => trivial
  | some booking =>
    simp only
    split_ifs
    · trivial
    · exact harmless_bind (harmless_update fun _ => trivial) fun _ =>
        harmless_bind (harmless_update fun _ => trivial) fun _ => trivial

theorem BookingCompleteJob.autoCompleteBookings_harmless {now : Time} :
    Harmless (BookingCompleteJob.autoCompleteBookings now) := by
  refine harmless_bind (harmless_query _) fun expired => harmless_bind ?_ fun _ => trivial
  refine Script.uses_forEach fun row _ => ?_
  unfold BookingCompleteJob.complete
  split_ifs
  · exact harmless_update fun _ => trivial
  · trivial

end TurfSync
