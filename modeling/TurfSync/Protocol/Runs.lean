import TurfSync.Txn.Solo
import TurfSync.Protocol.Payment
import TurfSync.Protocol.Coupon

/-! Runs of the booking services. Every call keeps to the protocol, so along every run
from an initial state the system is sound and each step either leaves the database as
it is or makes one of the listed commits. What is to be shown of runs is thereby
reduced to the commits one by one. -/

namespace TurfSync

open Txn

variable {cfg : Config} {J : World → Prop}
  {allow : Session Call → Local Key Write → World → Cmd Stmt → Bool → Prop} {s : Sys}
  {as : List Act}

/-- The start of a run: nothing has been called, and the database obeys its
constraints. -/
structure Sys.Initial (cfg : Config) (s : Sys) : Prop where
  threads : s.threads = []
  history : s.world.history = []
  wellFormed : s.world.WellFormed cfg

theorem Db.Fresh.valid {db : Db} (h : db.Fresh) : db.Valid cfg where
  slots := h.slots
  bookings := by simp [h.bookings]
  bookingSlots := by simp [h.bookings]
  bookingSlot := by simp [h.bookings]
  payments := by simp [h.payments]
  paymentBookings := by simp [h.payments]
  paymentBooking := by simp [h.payments]
  intents := by simp [h.payments]
  coupons := h.coupons
  codes := h.codes
  usageBookings := by simp [h.couponUsages]
  usageBooking := by simp [h.couponUsages]

theorem Sys.Fresh.initial (h : s.Fresh) : s.Initial cfg where
  threads := h.threads
  history := h.history
  wellFormed := {
    valid := h.db.valid
    bookingIds := by simp [h.db.bookings]
    paymentIds := by simp [h.db.payments]
    recorded := by simp [h.history]
    once := by simp [h.history]
    cancelled := by simp [h.history] }

/-! ### The calls -/

theorem create_keeps (hJ : Stable cfg J) {c : Session Call} {dto : CreateBookingDto}
    {userId : UserId} {now : Time} {w : World} (call : c.call = .create dto userId now)
    (hu : w.Unbooked c.id) :
    wp (engine cfg) (rules cfg J allow) c (BookingService.create cfg dto userId now)
      (fun _ _ _ => True) .idle w := by
  refine create_wp hJ call (fun _ _ _ _ => trivial) (fun _ _ => trivial)
    (fun _ _ => trivial) (fun quote id w hw _ hquote hsold => ?_) hu
  exact applyCoupon_wp hJ call hw hquote hsold (fun _ _ _ _ _ _ _ _ => ⟨rfl, trivial⟩)
    (fun _ _ _ _ _ _ _ _ _ => ⟨rfl, trivial⟩) fun _ _ _ _ _ _ _ _ => ⟨rfl, trivial⟩

/-- Every call keeps to the protocol. -/
theorem body_keeps (hJ : Stable cfg J) {n : ℕ} {c : Call} {w : World} (hu : w.Unbooked n) :
    wp (engine cfg) (rules cfg J allow) ⟨n, c⟩ (c.body cfg) (fun _ _ _ => True) .idle w := by
  cases c with
  | create dto userId now => exact create_keeps hJ rfl hu
  | cancel id userId => exact BookingService.cancel_wp hJ rfl
  | cleanupStalePendingBookings now => exact BookingService.cleanup_wp hJ rfl
  | createPaymentIntent bookingId userId => exact PaymentService.createPaymentIntent_wp rfl
  | handleWebhook event => exact PaymentService.handleWebhook_wp hJ rfl
  | refund bookingId userId => exact PaymentService.refund_wp hJ rfl
  | completeBooking bookingId adminId => exact AdminService.completeBooking_wp rfl
  | autoCompleteBookings now => exact BookingCompleteJob.autoCompleteBookings_wp hJ rfl

/-- A system that keeps to the protocol, with the further invariant `J`. -/
abbrev Sys.Keeps (cfg : Config) (J : World → Prop) (s : Sys) : Prop :=
  Sound (service cfg) (rules cfg J fun _ _ _ _ _ => True) (fun _ _ _ _ => True) s

theorem starts_of_body (hJ : Stable cfg J) {Q : Session Call → Post Err Key Write World Reply}
    (hbody : ∀ n c w, World.WellFormed cfg w → J w → w.Unbooked n →
      wp (engine cfg) (rules cfg J allow) ⟨n, c⟩ (c.body cfg) (Q ⟨n, c⟩) .idle w) :
    Starts (service cfg) (rules cfg J allow) Q where
  evolve_inv v w hw := by
    refine ⟨wellFormed_out hw.1 ?_, hJ.out _ _ hw.2⟩
    cases v <;> exact Nat.le_refl _
  evolve_rely v w n ks _ := by
    refine rely_out n ks ?_
    cases v <;> exact Nat.le_refl _
  body n c w hw hu _ := hbody n c w hw.1 hw.2 hu

theorem starts (hJ : Stable cfg J) :
    Starts (service cfg) (rules cfg J allow) fun _ _ _ _ => True :=
  starts_of_body hJ fun _ _ _ _ _ hu => body_keeps hJ hu

theorem Sys.Initial.sound (h : s.Initial cfg) (hj : J s.world)
    {Q : Session Call → Post Err Key Write World Reply} :
    Sound (service cfg) (rules cfg J allow) Q s where
  inv := ⟨h.wellFormed, hj⟩
  starts n _ e he := by simp [h.history] at he
  ids i t ht := by simp [h.threads] at ht
  excl i t ht := by simp [h.threads] at ht
  wps i t ht := by simp [h.threads] at ht

theorem stable_true : Stable cfg fun _ => True :=
  ⟨fun _ _ _ => trivial, fun _ _ _ => trivial⟩

theorem Sys.Keeps.run (h : s.Keeps cfg J) (hJ : Stable cfg J) (as : List Act) :
    Sys.Keeps cfg J ((service cfg).run s as) :=
  (Service.always_sound (rules_lawful hJ) (starts hJ) h
    (Service.each_of_forall permits_any s as)).last

/-- A call that is served alone keeps to the protocol. -/
theorem Sys.Keeps.serve (h : s.Keeps cfg J) (hJ : Stable cfg J) (hq : s.Quiet) {c : Call}
    (hc : (service cfg).accepts c s.world = true) : Sys.Keeps cfg J ((service cfg).serve s c) := by
  obtain ⟨n, hn⟩ := Service.serve_eq_run (service cfg) hq hc
  rw [← hn]
  exact h.run hJ _

/-- Every run from an initial state keeps to the protocol. -/
theorem Sys.Initial.always (h : s.Initial cfg) (hJ : Stable cfg J) (hj : J s.world) :
    (service cfg).Always (Sys.Keeps cfg J) s as :=
  Service.always_sound (rules_lawful hJ) (starts hJ) (h.sound hj)
    (Service.each_of_forall permits_any s as)

/-! ### One step -/

/-- What a step does to the database: nothing, or one of the listed commits. -/
theorem Sys.Keeps.step_cases (h : s.Keeps cfg J) (hJ : Stable cfg J) (a : Act) :
    ((service cfg).committed s a = none ∧ ((service cfg).step s a).world.db = s.world.db ∧
      ((service cfg).step s a).world.history = s.world.history) ∨
    ∃ cm, (service cfg).committed s a = some cm ∧ cm.base.db = s.world.db ∧
      cm.base.history = s.world.history ∧ cm.base.WellFormed cfg ∧ J cm.base ∧
      Commits cfg cm.session cm.base cm.writes ∧
      ((service cfg).step s a).world = Commits.result cm.session cm.writes cm.base := by
  have hact : ∀ st v w, (((service cfg).act st v w).world.db,
      ((service cfg).act st v w).world.history) = (w.db, w.history) := by
    intro st v w
    cases st <;> rfl
  rcases (service cfg).step_frame (fun w : World => (w.db, w.history)) hact (fun _ _ => rfl) s a
    with ⟨hc, hw⟩ | ⟨cm, hc, hb, -⟩
  · rw [Prod.mk.injEq] at hw
    exact .inl ⟨hc, hw.1, hw.2⟩
  · rw [Prod.mk.injEq] at hb
    obtain ⟨hinv, -, ⟨held, hpost⟩, hw⟩ := h.commit_post (rules_lawful hJ) (permits_any s a) hc
    exact .inr ⟨cm, hc, hb.1, hb.2, hinv.1, hinv.2, hpost.1, hw⟩

/-- A step that commits. -/
theorem Sys.Keeps.commit (h : s.Keeps cfg J) (hJ : Stable cfg J) {a : Act}
    {cm : Commit Call Write World} (hc : (service cfg).committed s a = some cm) :
    cm.base.WellFormed cfg ∧ Commits cfg cm.session cm.base cm.writes ∧
      cm.base.db = s.world.db ∧ cm.base.history = s.world.history ∧
      ((service cfg).step s a).world = Commits.result cm.session cm.writes cm.base := by
  rcases h.step_cases hJ a with ⟨hn, -⟩ | ⟨cm', hc', hdb, hh, hwf, -, hcm, hw⟩
  · rw [hn] at hc
    cases hc
  · obtain rfl := Option.some.inj (hc'.symm.trans hc)
    exact ⟨hwf, hcm, hdb, hh, hw⟩

/-- What a step commits satisfies `M`, a property of the call, of its writes and of
the database it finds. -/
def OnCommit (cfg : Config) (M : Call → List Write → Db → Prop) (s : Sys) (a : Act) : Prop :=
  ∀ cm ∈ (service cfg).committed s a, M cm.session.call cm.writes s.world.db

instance (M : Call → List Write → Db → Prop) [∀ c ws db, Decidable (M c ws db)] (s : Sys) (a : Act) :
    Decidable (OnCommit cfg M s a) :=
  inferInstanceAs (Decidable (∀ cm ∈ (service cfg).committed s a, _))

/-- A property of the database before and after a step, if it holds of each commit that
satisfies `M`. -/
theorem Sys.Keeps.step_of_commit (h : s.Keeps cfg J) (hJ : Stable cfg J)
    {T : Db → Db → Prop} {M : Call → List Write → Db → Prop} (hrefl : ∀ {w}, World.WellFormed cfg w → T w.db w.db)
    (hkeep : ∀ {c w ws}, World.WellFormed cfg w → J w → Commits cfg c w ws → M c.call ws w.db →
      T w.db (w.db.applyAll ws)) {a : Act} (hM : OnCommit cfg M s a) :
    T s.world.db ((service cfg).step s a).world.db := by
  rcases h.step_cases hJ a with ⟨-, hdb, -⟩ | ⟨cm, hc, hdb, -, hwf, hj, hcm, hw⟩
  · rw [hdb]
    exact hrefl h.inv.1
  · have hm := hM cm hc
    rw [← hdb] at hm ⊢
    rw [hw]
    exact hkeep hwf hj hcm hm

/-- What such a property says of the commit of the step. -/
theorem Sys.Keeps.commit_of_step (h : s.Keeps cfg J) (hJ : Stable cfg J)
    {T : Db → Db → Prop} {M : Call → List Write → Db → Prop}
    (htells : ∀ {c w ws}, World.WellFormed cfg w → J w → Commits cfg c w ws →
      T w.db (w.db.applyAll ws) → M c.call ws w.db) {a : Act}
    (hT : T s.world.db ((service cfg).step s a).world.db) : OnCommit cfg M s a := by
  intro cm hc
  rcases h.step_cases hJ a with ⟨hnone, -⟩ | ⟨cm', hc', hdb, -, hwf, hj, hcm, hw⟩
  · rw [hnone] at hc
    cases hc
  · obtain rfl := Option.some.inj (hc'.symm.trans hc)
    rw [hw, ← hdb] at hT
    rw [← hdb]
    exact htells hwf hj hcm hT

/-- A property of the database before and after a step, commit by commit. -/
theorem Sys.Keeps.step_iff (h : s.Keeps cfg J) (hJ : Stable cfg J)
    {T : Db → Db → Prop} {M : Call → List Write → Db → Prop} (hrefl : ∀ {w}, World.WellFormed cfg w → T w.db w.db)
    (hiff : ∀ {c w ws}, World.WellFormed cfg w → J w → Commits cfg c w ws →
      (T w.db (w.db.applyAll ws) ↔ M c.call ws w.db)) (a : Act) :
    T s.world.db ((service cfg).step s a).world.db ↔ OnCommit cfg M s a :=
  ⟨h.commit_of_step hJ fun hw hj hc => (hiff hw hj hc).mp,
    h.step_of_commit hJ hrefl fun hw hj hc => (hiff hw hj hc).mpr⟩

/-! ### Runs -/

/-- What no step of the protocol ends, stays. -/
theorem stays (h : s.Initial cfg) {X : Type} {F : X → Sys → Prop}
    (hF : ∀ t a x, Sys.Keeps cfg (fun _ => True) t → F x t → F x ((service cfg).step t a))
    {pre mid post : List Act} (hsplit : as = pre ++ mid ++ post) {x : X}
    (hx : F x ((service cfg).run s pre)) : F x ((service cfg).run s (pre ++ mid)) := by
  have heach : (service cfg).Each (fun t a => ∀ x, F x t → F x ((service cfg).step t a)) s as :=
    (h.always stable_true trivial).each fun t a ht x => hF t a x ht
  exact Service.each_stays.mp heach pre mid post hsplit x hx

/-- What the history records stays recorded. -/
theorem history_stays (h : s.Initial cfg) {pre mid post : List Act} (hsplit : as = pre ++ mid ++ post)
    {e : Entry} (he : e ∈ ((service cfg).run s pre).world.history) :
    e ∈ ((service cfg).run s (pre ++ mid)).world.history := by
  refine stays h (F := fun e t => e ∈ t.world.history) (fun t a e ht he => ?_) hsplit he
  rcases ht.step_cases stable_true a with ⟨-, -, hh⟩ | ⟨cm, -, -, hh, -, -, -, hw⟩
  · rw [hh]
    exact he
  · rw [hw]
    exact List.mem_append_left _ (hh ▸ he)

/-- A booking stays, and only ages. -/
theorem booking_ages (h : s.Initial cfg) {pre mid post : List Act} (hsplit : as = pre ++ mid ++ post)
    {id : BookingId} {b : Booking} (hb : ((service cfg).run s pre).world.db.booking? id = some b) :
    ∃ b', ((service cfg).run s (pre ++ mid)).world.db.booking? id = some b' ∧ b.Ages b' := by
  refine stays h (F := fun (b : Booking) t => ∃ b', t.world.db.booking? id = some b' ∧ b.Ages b')
    (fun t a b ht hb => ?_) hsplit ⟨b, hb, .refl b⟩
  obtain ⟨b', hb', ha⟩ := hb
  rcases ht.step_cases stable_true a with ⟨-, hdb, -⟩ | ⟨cm, -, hdb, -, hwf, -, hcm, hw⟩
  · exact ⟨b', by rw [hdb, hb'], ha⟩
  · rw [← hdb] at hb'
    obtain ⟨b'', hb'', ha'⟩ := hcm.ages hwf.valid hb'
    exact ⟨b'', by rw [hw]; exact hb'', ha.trans ha'⟩

/-- A property of steps along a run, commit by commit. -/
theorem each_iff_commits (h : s.Initial cfg) (hJ : Stable cfg J) (hj : J s.world)
    {T : Db → Db → Prop} {M : Call → List Write → Db → Prop} (hrefl : ∀ {w}, World.WellFormed cfg w → T w.db w.db)
    (hiff : ∀ {c w ws}, World.WellFormed cfg w → J w → Commits cfg c w ws →
      (T w.db (w.db.applyAll ws) ↔ M c.call ws w.db)) :
    (service cfg).Each (fun t a => T t.world.db ((service cfg).step t a).world.db) s as ↔
      (service cfg).Each (OnCommit cfg M) s as :=
  Service.each_congr (h.always hJ hj) fun _ a ht => ht.step_iff hJ hrefl hiff a

/-- A property of steps, if it holds of the commits that satisfy `M`, and they all do. -/
theorem each_of_commits (h : s.Initial cfg) (hJ : Stable cfg J) (hj : J s.world)
    {T : Db → Db → Prop} {M : Call → List Write → Db → Prop} (hrefl : ∀ {w}, World.WellFormed cfg w → T w.db w.db)
    (hkeep : ∀ {c w ws}, World.WellFormed cfg w → J w → Commits cfg c w ws → M c.call ws w.db →
      T w.db (w.db.applyAll ws)) (hM : (service cfg).Each (OnCommit cfg M) s as) :
    (service cfg).Each (fun t a => T t.world.db ((service cfg).step t a).world.db) s as :=
  (Service.each_and ((h.always hJ hj).each fun t _ (ht : Sys.Keeps cfg J t) => ht) hM).mono
    fun _ _ ht => ht.1.step_of_commit hJ hrefl hkeep ht.2

/-- What a property of all steps says of the commits. -/
theorem commits_of_each (h : s.Initial cfg) (hJ : Stable cfg J) (hj : J s.world)
    {T : Db → Db → Prop} {M : Call → List Write → Db → Prop}
    (htells : ∀ {c w ws}, World.WellFormed cfg w → J w → Commits cfg c w ws →
      T w.db (w.db.applyAll ws) → M c.call ws w.db)
    (hT : (service cfg).Each (fun t a => T t.world.db ((service cfg).step t a).world.db) s as) :
    (service cfg).Each (OnCommit cfg M) s as :=
  (Service.each_and ((h.always hJ hj).each fun t _ (ht : Sys.Keeps cfg J t) => ht) hT).mono
    fun _ _ ht => ht.1.commit_of_step hJ htells ht.2

/-- A property of every state of a run, commit by commit. -/
theorem always_iff_commits (h : s.Initial cfg) (hJ : Stable cfg J) (hj : J s.world)
    {I : Db → Prop} {M : Call → List Write → Db → Prop} (hI : I s.world.db)
    (hiff : ∀ {c w ws}, World.WellFormed cfg w → J w → I w.db → Commits cfg c w ws →
      (I (w.db.applyAll ws) ↔ M c.call ws w.db)) :
    (service cfg).Always (fun t => I t.world.db) s as ↔
      (service cfg).Each (OnCommit cfg M) s as := by
  have hstep : ∀ (t : Sys) (a : Act), t.Keeps cfg J → I t.world.db →
      (I ((service cfg).step t a).world.db ↔ OnCommit cfg M t a) := by
    intro t a ht hi
    have hiff' := ht.step_iff hJ (T := fun db db' => I db → I db')
      (M := fun c ws db => I db → M c ws db) (fun _ h => h) (fun hw hj hc => ?_) a
    · exact ⟨fun h cm hc => hiff'.mp (fun _ => h) cm hc hi, fun h =>
        hiff'.mpr (fun cm hc _ => h cm hc) hi⟩
    · exact ⟨fun h hi => (hiff hw hj hi hc).mp (h hi), fun h hi => (hiff hw hj hi hc).mpr (h hi)⟩
  exact Service.always_iff_each (I := fun t : Sys => I t.world.db) (h.always hJ hj) hI
    (fun t a ht hi hm => (hstep t a ht hi).mpr hm) fun t a ht hi h => (hstep t a ht hi).mp h

/-- An invariant of the database that every commit keeps, if the commit satisfies `M`. -/
theorem always_of_commits (h : s.Initial cfg) (hJ : Stable cfg J) (hj : J s.world)
    {I : Db → Prop} {M : Call → List Write → Db → Prop} (hI : I s.world.db)
    (hkeep : ∀ {c w ws}, World.WellFormed cfg w → J w → I w.db → Commits cfg c w ws →
      M c.call ws w.db → I (w.db.applyAll ws))
    (hM : (service cfg).Each (OnCommit cfg M) s as) :
    (service cfg).Always (fun t => I t.world.db) s as := by
  have hstep : ∀ (t : Sys) (a : Act), t.Keeps cfg J ∧ I t.world.db → OnCommit cfg M t a →
      Sys.Keeps cfg J ((service cfg).step t a) ∧ I ((service cfg).step t a).world.db := by
    rintro t a ⟨ht, hi⟩ hm
    refine ⟨ht.step (rules_lawful hJ) (starts hJ) (permits_any t a), ?_⟩
    rcases ht.step_cases hJ a with ⟨-, hdb, -⟩ | ⟨cm, hc, hdb, -, hwf, hj', hcm, hw⟩
    · rw [hdb]
      exact hi
    · have hm' := hm cm hc
      rw [← hdb] at hm' hi
      rw [hw]
      exact hkeep hwf hj' hi hcm hm'
  have hboth := Service.always_of_step (fun t a => hstep t a) ⟨h.sound hj, hI⟩ hM
  exact hboth.mono fun t ht => ht.2

end TurfSync
