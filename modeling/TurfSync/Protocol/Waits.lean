import TurfSync.Txn.Waits
import TurfSync.Protocol.Runs

/-! The order in which the calls lock rows: an event or a coupon first, then bookings in
the order of their table, payments, and slots. `create` locks its slot before the booking
it inserts, which nobody else can have. Two sessions other than `create` that want one
slot hold the booking of that slot, if a slot has one booking only. -/

namespace TurfSync

open Txn

/-- The bookings with their slots, in the order of the table. -/
def Db.rows (db : Db) : List (BookingId × SlotId) := db.bookings.map fun b => (b.id, b.slotId)

def Call.isCreate : Call → Bool
  | .create _ _ _ => true
  | _ => false

namespace Key

/-- Where a row stands in the order of locking. -/
def rank (db : Db) : Key → ℕ
  | .event _ => 0
  | .coupon _ => 0
  | .usageBooking _ => 1
  | .booking id => 1 + (db.bookings.map (·.id)).idxOf id
  | .payment _ => db.bookings.length + 2
  | .slot _ => db.bookings.length + 3
  | .bookingSlot _ => db.bookings.length + 3

/-- What a session that holds `key` among `held` has to know about it. -/
def Held (c : Session Call) (held : List Key) (w : World) : Key → Prop
  | .booking id => id < w.out.uuid
  | .slot id => c.call.isCreate = false → ∃ b, .booking b ∈ held ∧ (b, id) ∈ w.db.rows
  | .bookingSlot id => .slot id ∈ held
  | _ => True

/-- What a session with the locks `held` may ask for. -/
inductive Asked (c : Session Call) (held : List Key) (w : World) : Key → Prop
  | own {key} (h : key ∈ held) : Asked c held w key
  | fresh {id} (h : w.out.uuid ≤ id) : Asked c held w (.booking id)
  | entry {id} (h : .slot id ∈ held) : Asked c held w (.bookingSlot id)
  | next {key} (h : ∀ key' ∈ held, key'.rank w.db < key.rank w.db) : Asked c held w key
  | last {id b} (call : c.call.isCreate = false) (h : .booking b ∈ held)
      (row : (b, id) ∈ w.db.rows) : Asked c held w (.slot id)

end Key

/-- The discipline of the booking services. -/
def order (cfg : Config) : Discipline Key World Call where
  inv := World.WellFormed cfg
  stays w w' := w.db.rows <+: w'.db.rows ∧ w.out.uuid ≤ w'.out.uuid
  holds c held w := ∀ key ∈ held, key.Held c held w
  asks c held w key := key.Asked c held w

variable {cfg : Config} {c : Session Call} {α β : Type} {ws : List Write} {ks : List Key}
  {w w' : World}

theorem Db.rows_apply (db : Db) (x : Write) : db.rows <+: (db.apply x).rows := by
  cases x with
  | bookingInsert b => exact ⟨[(b.id, b.slotId)], by simp [Db.rows, Db.apply]⟩
  | bookingSet ids status =>
    have hrows : (db.apply (.bookingSet ids status)).rows = db.rows := Rows.keys_update fun _ => rfl
    rw [hrows]
  | _ => exact List.prefix_rfl

theorem Db.rows_applyAll (db : Db) (ws : List Write) : db.rows <+: (db.applyAll ws).rows := by
  induction ws generalizing db with
  | nil => exact List.prefix_rfl
  | cons x ws ih => exact (db.rows_apply x).trans (ih _)

theorem Db.mem_rows {db : Db} {b : Booking} (hb : b ∈ db.bookings) : (b.id, b.slotId) ∈ db.rows :=
  List.mem_map_of_mem hb

theorem Key.Held.mono {ks' : List Key} {key : Key} (h : key.Held c ks w)
    (hks : ∀ key ∈ ks, key ∈ ks') (hrows : w.db.rows <+: w'.db.rows)
    (huuid : w.out.uuid ≤ w'.out.uuid) : key.Held c ks' w' := by
  cases key with
  | booking id => exact Nat.lt_of_lt_of_le h huuid
  | slot slot =>
    intro hc
    obtain ⟨id, hid, hrow⟩ := h hc
    exact ⟨id, hks _ hid, hrows.subset hrow⟩
  | bookingSlot slot => exact hks _ h
  | _ => trivial

theorem order_lawful (cfg : Config) : (order cfg).Lawful (engine cfg) where
  refl w := ⟨List.prefix_rfl, Nat.le_refl _⟩
  trans h h' := ⟨h.1.trans h'.1, Nat.le_trans h.2 h'.2⟩
  act s v w := by
    obtain ⟨o, ho, hu⟩ := act_out cfg s v w
    rw [ho]
    exact ⟨List.prefix_rfl, hu⟩
  commit c ws w := ⟨w.db.rows_applyAll ws, Nat.le_refl _⟩
  holds h hw key hkey := (h key hkey).mono (fun _ h => h) hw.1 hw.2
  none c w key hkey := by cases hkey
  first c w key := .next fun key' hkey => by cases hkey

/-! ### Ranks -/

/-- A booking ranks below a payment or a slot. -/
theorem Key.rank_booking (db : Db) (id : BookingId) :
    (Key.booking id).rank db < db.bookings.length + 2 := by
  have hle := List.idxOf_le_length (a := id) (l := db.bookings.map (·.id))
  rw [List.length_map] at hle
  simp only [Key.rank]
  omega

/-- The program keeps to the order and ends outside any transaction. -/
abbrev Orders (cfg : Config) (c : Session Call) (p : Op α) (w : World) : Prop :=
  p.Asks (engine cfg) (order cfg) c Script.Idles .idle w

/-- A part of a transaction keeps to the order, and returns in `J`. -/
abbrev GoesTx (cfg : Config) (c : Session Call) (p : Op α) (J : α → Local Key Write → World → Prop)
    (ws : List Write) (ks : List Key) (w : World) : Prop :=
  p.Asks (engine cfg) (order cfg) c (Script.Goes (order cfg) c J) ⟨some ws, ks⟩ w

/-- The rest of a transaction keeps to the order. -/
abbrev OrdersTx (cfg : Config) (c : Session Call) (p : Op α) (ws : List Write) (ks : List Key)
    (w : World) : Prop :=
  p.Asks (engine cfg) (order cfg) c (Script.Holds (order cfg) c) ⟨some ws, ks⟩ w

/-- The session may ask for the row and hold it. -/
def Key.Next (c : Session Call) (ks : List Key) (w : World) (key : Key) : Prop :=
  key.Asked c ks w ∧ key.Held c ks w

theorem Key.next_own {key : Key} (hks : (order cfg).holds c ks w) (h : key ∈ ks) :
    key.Next c ks w := ⟨.own h, hks key h⟩

theorem holds_append {locks : List Key} (hks : (order cfg).holds c ks w)
    (h : ∀ key ∈ locks, key.Held c ks w) : (order cfg).holds c (locks ++ ks) w := by
  intro key hkey
  have hmono : ∀ {key : Key}, key.Held c ks w → key.Held c (locks ++ ks) w := fun hheld =>
    hheld.mono (fun _ hk => List.mem_append_right _ hk) List.prefix_rfl (Nat.le_refl _)
  rcases List.mem_append.mp hkey with hkey | hkey
  · exact hmono (h key hkey)
  · exact hmono (hks key hkey)

theorem orders_statements {p : Op α} (hp : Script.Uses (fun m => ∃ s, m = .stmt s) (fun _ => True) p)
    (w : World) : Orders cfg c p w := Script.asks_statements (order_lawful cfg) hp w

/-- A read outside any transaction. -/
theorem orders_query {q : Query} {f : q.Reply → Op β}
    (h : ∀ w', (order cfg).stays w w' → w'.WellFormed cfg → Orders cfg c (f (q.eval w'.db)) w') :
    Orders cfg c ((query q).bind f) w :=
  Script.asks_stmt_idle (order_lawful cfg) h fun _ _ _ _ => rfl

theorem orders_external {x : External} {f : x.Reply → Op β}
    (h : ∀ a w', (order cfg).stays w w' → Orders cfg c (f a) w') :
    Orders cfg c ((external x).bind f) w := by
  refine Script.asks_stmt_idle (order_lawful cfg) (fun w' hw _ => ?_) fun _ _ _ _ => rfl
  have hstays := (order_lawful cfg).trans hw ((order_lawful cfg).act (.external x) w' w')
  rw [act_external] at hstays ⊢
  cases (x.eval w'.out).1 with
  | ok a => exact h a _ hstays
  | error e => exact fun _ _ _ => rfl

theorem ordersTx_query {q : Query} {f : q.Reply → Op β} (hks : (order cfg).holds c ks w)
    (h : ∀ a w', (order cfg).stays w w' → (order cfg).holds c ks w' → OrdersTx cfg c (f a) ws ks w') :
    OrdersTx cfg c ((query q).bind f) ws ks w := by
  refine Script.asks_stmt_tx (order_lawful cfg) hks fun w' hw _ => ?_
  simp only [act_query, List.append_nil, List.nil_append]
  exact ⟨by simp, h _ w' hw ((order_lawful cfg).holds hks hw)⟩

theorem ordersTx_external {x : External} {f : x.Reply → Op β} (hks : (order cfg).holds c ks w)
    (h : ∀ a w', (order cfg).stays w w' → (order cfg).holds c ks w' → OrdersTx cfg c (f a) ws ks w') :
    OrdersTx cfg c ((external x).bind f) ws ks w := by
  refine Script.asks_stmt_tx (order_lawful cfg) hks fun w' hw _ => ?_
  have hstays := (order_lawful cfg).trans hw ((order_lawful cfg).act (.external x) w' w')
  have hks' := (order_lawful cfg).holds hks hstays
  rw [act_external] at hstays hks' ⊢
  simp only [List.append_nil, List.nil_append]
  refine ⟨by simp, ?_⟩
  cases (x.eval w'.out).1 with
  | ok a => exact h a _ hstays hks'
  | error e => exact Script.asks_throw_tx (order_lawful cfg) hks' e

/-- `SELECT ... FOR UPDATE`: the rows it locks come next in the order. -/
theorem ordersTx_lock {r : RowLock} {f : r.Reply → Op β} {J : β → Local Key Write → World → Prop}
    (hks : (order cfg).holds c ks w)
    (h : ∀ w', (order cfg).stays w w' → w'.WellFormed cfg →
      (∀ key ∈ (r.eval (w'.db.applyAll ws)).2, key.Next c ks w') ∧
      ((order cfg).holds c ((r.eval (w'.db.applyAll ws)).2 ++ ks) w' →
        GoesTx cfg c (f (r.eval (w'.db.applyAll ws)).1) J ws ((r.eval (w'.db.applyAll ws)).2 ++ ks) w')) :
    GoesTx cfg c ((lockRow r).bind f) J ws ks w := by
  refine Script.asks_stmt_tx (order_lawful cfg) hks fun w' hw hi => ?_
  obtain ⟨hnext, hgo⟩ := h w' hw hi
  have hks' := holds_append ((order_lawful cfg).holds hks hw) fun key hkey => (hnext key hkey).2
  simp only [view_db, act_lock, List.append_nil]
  exact ⟨fun key hkey => (hnext key hkey).1, hgo hks'⟩

/-- The rows that an update may lock, whatever the tables hold. -/
def Update.Wants (uuid : ℕ) : Update → Key → Prop
  | .slotUpdate id _, key => key = .slot id
  | .slotUpdateMany ids _, key => ∃ id ∈ ids, key = .slot id
  | .bookingCreate d, key => key = .booking uuid ∨ key = .bookingSlot d.slotId
  | .bookingUpdate id _, key => key = .booking id
  | .bookingUpdateManyPending ids _, key => ∃ id ∈ ids, key = .booking id
  | .paymentUpdate id _, key => key = .payment id
  | .paymentUpdateMany _ _, key => ∃ id, key = .payment id
  | .paymentUpsert _ _ _ _ _, key => ∃ id, key = .payment id
  | .webhookEventCreate id, key => key = .event id
  | .couponUsageCreate _ _ id _, key => key = .usageBooking id
  | .couponIncrement id, key => key = .coupon id
  | .auditLogCreate _, _ => False

theorem wants_of_mem {u : Update} {db : Db} {uuid : ℕ} {now : Time} {key : Key}
    (h : key ∈ (u.plan cfg db uuid now).locks) : u.Wants uuid key := by
  cases u with
  | slotUpdate | bookingUpdate | paymentUpdate | couponIncrement =>
    simp only [Update.plan] at h
    split at h
    · exact List.mem_singleton.mp h
    · cases h
  | slotUpdateMany ids v =>
    obtain ⟨id, hid, rfl⟩ := List.mem_map.mp h
    exact ⟨id, hid, rfl⟩
  | bookingUpdateManyPending ids status =>
    obtain ⟨id, hid, rfl⟩ := List.mem_map.mp h
    obtain ⟨b, hb, rfl⟩ := List.mem_map.mp hid
    exact ⟨b.id, (of_decide_eq_true (List.mem_filter.mp hb).2).1, rfl⟩
  | paymentUpdateMany intent change =>
    obtain ⟨id, -, rfl⟩ := List.mem_map.mp h
    exact ⟨id, rfl⟩
  | webhookEventCreate id =>
    simp only [Update.plan] at h
    split_ifs at h <;> exact List.mem_singleton.mp h
  | auditLogCreate a => cases h
  | bookingCreate d =>
    simp only [Update.plan] at h
    split at h
    · cases h
    · split_ifs at h
      · cases h
      · exact .inr (List.mem_singleton.mp h)
      · simpa [Update.Wants] using h
  | couponUsageCreate couponId userId bookingId discount =>
    simp only [Update.plan] at h
    split at h
    · cases h
    · split_ifs at h
      · cases h
      · exact List.mem_singleton.mp h
      · exact List.mem_singleton.mp h
  | paymentUpsert bookingId amount currency intent secret =>
    simp only [Update.plan] at h
    split_ifs at h
    · cases h
    · split at h
      · exact ⟨_, List.mem_singleton.mp h⟩
      · cases h
    · split at h
      · exact ⟨_, List.mem_singleton.mp h⟩
      · exact ⟨_, List.mem_singleton.mp h⟩

/-- An update whose rows are held already or come next in the order. -/
theorem ordersTx_update {u : Update} {f : u.Reply → Op β} (hks : (order cfg).holds c ks w)
    (hnext : ∀ w', (order cfg).stays w w' → (order cfg).holds c ks w' →
      ∀ key, u.Wants w'.out.uuid key → key.Next c ks w')
    (h : ∀ a ws' ks' w', (order cfg).stays w w' → (∀ key ∈ ks, key ∈ ks') →
      (∀ key ∈ ks', key ∈ ks ∨ ∃ uuid, u.Wants uuid key) → (order cfg).holds c ks' w' →
        OrdersTx cfg c (f a) ws' ks' w') :
    OrdersTx cfg c ((update u).bind f) ws ks w := by
  refine Script.asks_stmt_tx (order_lawful cfg) hks fun w' hw _ => ?_
  have hks' := (order_lawful cfg).holds hks hw
  have hstays := (order_lawful cfg).act (.update u) w' w'
  simp only [view_db, act_update] at hstays ⊢
  generalize hp : u.plan cfg (w'.db.applyAll ws) w'.out.uuid w'.out.now = p
  have hwants : ∀ key ∈ p.locks, u.Wants w'.out.uuid key := fun key hkey =>
    wants_of_mem (hp ▸ hkey)
  have htook : (order cfg).stays w' (w'.took p.used) := ⟨List.prefix_rfl, Nat.le_add_right _ _⟩
  have hgrown := (order_lawful cfg).holds
    (holds_append hks' fun key hkey => (hnext w' hw hks' key (hwants key hkey)).2) htook
  refine ⟨fun key hkey => (hnext w' hw hks' key (hwants key hkey)).1, ?_⟩
  cases p.reply with
  | ok a =>
    exact h a _ _ _ ((order_lawful cfg).trans hw htook)
      (fun key hkey => List.mem_append_right _ hkey)
      (fun key hkey => (List.mem_append.mp hkey).symm.imp_right fun hk => ⟨_, hwants key hk⟩) hgrown
  | error e => exact Script.asks_throw_tx (order_lawful cfg) hgrown e

/-- The last statement of a transaction. -/
theorem ordersTx_last {u : Update} (hks : (order cfg).holds c ks w)
    (hnext : ∀ w', (order cfg).stays w w' → (order cfg).holds c ks w' →
      ∀ key, u.Wants w'.out.uuid key → key.Next c ks w') : OrdersTx cfg c (update u) ws ks w := by
  rw [← Prog.bind_ret (update u)]
  exact ordersTx_update hks hnext fun a _ _ _ _ _ _ hks' => Script.asks_ret_tx (order_lawful cfg) hks' a

/-- A part that is only logged when it fails. -/
theorem orders_quietly {p : Op Unit} (hp : Orders cfg c p w) : Orders cfg c (quietly p) w := by
  refine Script.asks_tryCatch (order_lawful cfg) (Script.asks_mono hp ?_)
  rintro (e | a) l w' - rfl
  · exact fun _ _ _ => rfl
  · rfl

theorem orders_queueAdd (job : Job) (w : World) :
    Orders cfg c (quietly (external (.queueAdd job))) w :=
  orders_quietly (orders_statements (Script.uses_perform (S := Stmt) ⟨_, rfl⟩) w)

theorem uses_delByPattern (turfId : TurfId) :
    Script.Uses (fun m => ∃ s, m = .stmt s) (fun _ => True) (delByPattern turfId) := by
  refine ⟨⟨_, rfl⟩, fun r => ?_⟩
  cases r <;> trivial

/-- A job that is put on the queue at the end of a transaction. -/
theorem ordersTx_queueAdd (job : Job) (hks : (order cfg).holds c ks w) :
    OrdersTx cfg c (quietly (external (.queueAdd job))) ws ks w := by
  have hjob : Script.Asks (engine cfg) (order cfg) c (external (.queueAdd job))
      (Script.Holds (order cfg) c) ⟨some ws, ks⟩ w := by
    rw [← Prog.bind_ret (external (.queueAdd job))]
    exact ordersTx_external hks fun a _ _ hks' => Script.asks_ret_tx (order_lawful cfg) hks' a
  refine Script.asks_tryCatch (order_lawful cfg) (Script.asks_mono hjob ?_)
  rintro (e | a) l w' - hl
  · exact fun _ hw _ => (order_lawful cfg).holds hl hw
  · exact hl

/-- What comes after a part that ends outside any transaction. -/
theorem orders_bind {p : Op α} {f : α → Op β} (hp : Orders cfg c p w)
    (hf : ∀ a w', Orders cfg c (f a) w') : Orders cfg c (p.bind f) w :=
  Script.asks_bind_idle (order_lawful cfg) hp hf

theorem orders_transaction {p : Op α}
    (h : ∀ w', (order cfg).stays w w' → w'.WellFormed cfg → (order cfg).holds c [] w' →
      OrdersTx cfg c p [] [] w') : Orders cfg c (Script.transaction p) w :=
  Script.asks_transaction (order_lawful cfg) fun w' hw hi =>
    h w' hw hi ((order_lawful cfg).none c w')

/-- Nothing is held yet. -/
theorem Key.next_first {key : Key} (h : key.Held c [] w) : key.Next c [] w :=
  ⟨.next (by simp), h⟩

/-! ### The calls -/

namespace CouponService

theorem applyCoupon_orders (couponId : CouponId) (userId : UserId) (bookingId : BookingId)
    (discount : Option ℚ) (w : World) :
    Orders cfg c (CouponService.applyCoupon couponId userId bookingId discount) w := by
  refine orders_transaction fun w₁ _ _ hks => ordersTx_lock hks fun w₂ _ _ => ?_
  simp only [Db.applyAll_nil, RowLock.eval]
  cases w₂.db.coupon? couponId with
  | none => exact ⟨by simp, fun hks => Script.asks_throw_tx (order_lawful cfg) hks _⟩
  | some coupon =>
    refine ⟨?_, fun hks => ?_⟩
    · simp only [List.mem_singleton, forall_eq]
      exact Key.next_first trivial
    simp only
    split_ifs
    · exact Script.asks_throw_tx (order_lawful cfg) hks _
    · exact Script.asks_throw_tx (order_lawful cfg) hks _
    refine ordersTx_query hks fun userUsageCount w₃ _ hks => ?_
    split_ifs
    · exact Script.asks_throw_tx (order_lawful cfg) hks _
    refine ordersTx_update hks (fun w₄ _ _ key hkey => ?_) fun _ ws ks w₄ _ hsub _ hks => ?_
    · obtain rfl := hkey
      exact ⟨.next (by simp [Key.rank]), trivial⟩
    · refine ordersTx_last hks fun w₅ _ hks key hkey => ?_
      exact Key.next_own hks (hkey ▸ hsub _ (by simp))

end CouponService

namespace BookingService

theorem couponData_orders (dto : CreateBookingDto) (userId : UserId) (w : World) :
    Orders cfg c (couponData cfg dto userId) w := by
  unfold couponData
  split
  · exact fun _ _ _ => rfl
  split_ifs
  · exact fun _ _ _ => rfl
  refine orders_query fun w₁ _ _ => orders_bind (orders_query fun w₂ _ _ => ?_) fun _ _ _ _ _ => rfl
  cases Query.eval w₂.db (.couponByCode _ _) with
  | none => exact fun _ _ _ => rfl
  | some row =>
    obtain ⟨coupon, couponUsages⟩ := row
    simp only
    split
    · exact fun _ _ _ => rfl
    refine orders_external fun now w₃ _ => ?_
    split_ifs <;> exact fun _ _ _ => rfl

/-- `booking.create` locks the entry of the slot, and the booking if it inserts one. -/
theorem mem_locks_bookingCreate {d : NewBooking} {db : Db} {uuid : ℕ} {now : Time} {key : Key}
    (h : key ∈ ((Update.bookingCreate d).plan cfg db uuid now).locks) :
    key = .bookingSlot d.slotId ∨
      key = .booking uuid ∧ ((Update.bookingCreate d).plan cfg db uuid now).used = 1 := by
  simp only [Update.plan] at h ⊢
  cases hd : d.totalAmount with
  | none => simp [hd, Planned.fail] at h
  | some amount =>
    simp only [hd] at h
    split_ifs at h ⊢
    · cases h
    · exact .inl (List.mem_singleton.mp h)
    · simp only [List.mem_cons, List.not_mem_nil, or_false] at h
      exact h.symm.imp_right fun he => ⟨he, rfl⟩

/-- The new booking, and the entry of its slot, which is locked. -/
theorem bookingCreate_orders {d : NewBooking} {f : Booking → Op β} (hslot : .slot d.slotId ∈ ks)
    (hks : (order cfg).holds c ks w)
    (h : ∀ a ws' ks' w', (order cfg).holds c ks' w' → OrdersTx cfg c (f a) ws' ks' w') :
    OrdersTx cfg c ((update (.bookingCreate d)).bind f) ws ks w := by
  refine Script.asks_stmt_tx (order_lawful cfg) hks fun w' hw _ => ?_
  have hks' := (order_lawful cfg).holds hks hw
  simp only [view_db, act_update]
  have hlocks := fun key => @mem_locks_bookingCreate cfg d (w'.db.applyAll ws) w'.out.uuid
    w'.out.now key
  generalize (Update.bookingCreate d).plan cfg (w'.db.applyAll ws) w'.out.uuid w'.out.now = p at *
  have hgrown : (order cfg).holds c (p.locks ++ ks) (w'.took p.used) := by
    refine holds_append ((order_lawful cfg).holds hks' ⟨List.prefix_rfl, Nat.le_add_right _ _⟩)
      fun key hkey => ?_
    rcases hlocks key hkey with rfl | ⟨rfl, hused⟩
    · exact hslot
    · show w'.out.uuid < w'.out.uuid + p.used
      omega
  refine ⟨fun key hkey => ?_, ?_⟩
  · rcases hlocks key hkey with rfl | ⟨rfl, -⟩
    · exact .entry hslot
    · exact .fresh (Nat.le_refl _)
  · cases p.reply with
    | ok a => exact h a _ _ _ hgrown
    | error e => exact Script.asks_throw_tx (order_lawful cfg) hgrown e

/-- The slot comes first; the booking is new, and its slot is locked. -/
theorem createTx_orders (hc : c.call.isCreate = true) (dto : CreateBookingDto) (userId : UserId)
    (coupon : Option ValidatedCoupon) (hks : (order cfg).holds c [] w) :
    OrdersTx cfg c (createTx dto userId coupon) [] [] w := by
  refine ordersTx_lock hks fun w₁ _ _ => ?_
  simp only [Db.applyAll_nil, RowLock.eval]
  cases w₁.db.slotWithTurf? dto.slotId dto.turfId with
  | none => exact ⟨by simp, fun hks => Script.asks_throw_tx (order_lawful cfg) hks _⟩
  | some row =>
    obtain ⟨slot, turf⟩ := row
    refine ⟨?_, fun hks => ?_⟩
    · simp only [List.mem_singleton, forall_eq]
      exact Key.next_first fun hnot => absurd hc (Bool.eq_false_iff.mp hnot)
    simp only
    split_ifs
    · exact Script.asks_throw_tx (order_lawful cfg) hks _
    · exact Script.asks_throw_tx (order_lawful cfg) hks _
    refine ordersTx_query hks fun existingBooking w₂ _ hks => ?_
    cases existingBooking with
    | some _ => exact Script.asks_throw_tx (order_lawful cfg) hks _
    | none =>
      refine ordersTx_update hks (fun w₃ _ hks key hkey => ?_) fun _ ws ks w₃ _ hsub _ hks => ?_
      · exact Key.next_own hks (hkey ▸ by simp)
      have hslot : Key.slot dto.slotId ∈ ks := hsub _ (by simp)
      refine bookingCreate_orders hslot hks fun booking _ _ w₄ hks => ?_
      exact Script.asks_ret_tx (order_lawful cfg) hks _

theorem createLocked_orders (hc : c.call.isCreate = true) (dto : CreateBookingDto) (userId : UserId)
    (coupon : Option ValidatedCoupon) (w : World) :
    Orders cfg c (createLocked dto userId coupon) w := by
  refine orders_bind (orders_transaction fun _ _ _ hks => createTx_orders hc dto userId coupon hks)
    fun row w₁ => ?_
  obtain ⟨booking, slot⟩ := row
  refine orders_bind (orders_statements (uses_delByPattern _) _) fun _ w₂ => ?_
  have hqueue : ∀ job w, Orders cfg c
      ((quietly (external (.queueAdd job))).bind fun _ => .ret (.booking booking) : Op Reply) w :=
    fun job w => orders_bind (orders_queueAdd job w) fun _ _ _ _ _ => rfl
  cases coupon with
  | none => exact hqueue _ _
  | some quote =>
    exact orders_bind (CouponService.applyCoupon_orders _ _ _ _ _) fun _ _ => hqueue _ _

theorem create_orders (hc : c.call.isCreate = true) (dto : CreateBookingDto) (userId : UserId)
    (now : Time) (w : World) : Orders cfg c (create cfg dto userId now) w := by
  unfold create
  simp only
  split_ifs
  · exact fun _ _ _ => rfl
  · exact fun _ _ _ => rfl
  refine orders_bind (couponData_orders dto userId w) fun coupon w₁ =>
    orders_external fun lockValue w₂ _ => ?_
  cases lockValue with
  | none => exact fun _ _ _ => rfl
  | some value =>
    have hfin : ∀ (p : Op Reply) w, (∀ w, Orders cfg c p w) → Orders cfg c
        (Prog.bind (Prog.bind (external (.releaseLock dto.slotId value)) fun _ => .ret ())
          fun _ => p) w := fun p w hp =>
      orders_bind (orders_external fun _ _ _ _ _ _ => rfl) fun _ w => hp w
    refine Script.asks_tryFinally (order_lawful cfg)
      (Script.asks_mono (createLocked_orders hc dto userId coupon w₂) ?_)
    rintro (e | reply) l w₃ - rfl
    · exact hfin (.throw e) w₃ fun _ _ _ _ => rfl
    · exact hfin (.ret reply) w₃ fun _ _ _ _ => rfl

/-- The booking, then its slot. -/
theorem cancel_orders (hc : c.call.isCreate = false) (id : BookingId) (userId : UserId) (w : World) :
    Orders cfg c (cancel id userId) w := by
  refine orders_query fun w₁ _ _ => ?_
  cases Query.eval w₁.db (.bookingFindUnique id) with
  | none => exact fun _ _ _ => rfl
  | some booking =>
    simp only
    split_ifs
    · exact fun _ _ _ => rfl
    · exact fun _ _ _ => rfl
    refine orders_bind (orders_transaction fun w₂ _ _ hks => ordersTx_lock hks fun w₃ _ hwf => ?_)
      fun _ _ => orders_bind (orders_statements (uses_delByPattern _) _) fun _ _ =>
        orders_bind (orders_queueAdd _ _) fun _ _ _ _ _ => rfl
    simp only [Db.applyAll_nil, RowLock.eval]
    cases hb : w₃.db.booking? id with
    | none => exact ⟨by simp, fun hks => Script.asks_throw_tx (order_lawful cfg) hks _⟩
    | some txBooking =>
      obtain ⟨hmem, rfl⟩ := Db.mem_of_booking? hb
      refine ⟨?_, fun hks => ?_⟩
      · simp only [List.mem_singleton, forall_eq]
        exact Key.next_first (hwf.bookingIds _ hmem)
      simp only
      split_ifs
      · exact Script.asks_throw_tx (order_lawful cfg) hks _
      refine ordersTx_update hks (fun w₄ _ hks key hkey => Key.next_own hks (hkey ▸ by simp))
        fun _ ws ks w₄ hw hsub _ hks => ordersTx_lock hks fun w₅ hw' _ => ?_
      have hbooking : Key.booking txBooking.id ∈ ks := hsub _ (by simp)
      have hrow : (txBooking.id, txBooking.slotId) ∈ w₅.db.rows :=
        ((order_lawful cfg).trans hw hw').1.subset (Db.mem_rows hmem)
      simp only [RowLock.eval, List.mem_singleton, forall_eq]
      refine ⟨⟨.last hc hbooking hrow, fun _ => ⟨_, hbooking, hrow⟩⟩, fun hks =>
        ordersTx_query hks fun activeBookings w₆ _ hks => ?_⟩
      · split_ifs
        · exact ordersTx_last hks fun w₇ _ hks key hkey => Key.next_own hks (hkey ▸ by simp)
        · exact Script.asks_ret_tx (order_lawful cfg) hks _

/-- In a table, the rows that are selected stand in its order. -/
theorem idxOf_lt_of_sublist {ids past : List ℕ} {id id' : ℕ} (hn : ids.Nodup)
    (h : (past ++ [id]).Sublist ids) (hid : id' ∈ past) : ids.idxOf id' < ids.idxOf id := by
  have hpairs : ids.Pairwise fun x y => ids.idxOf x < ids.idxOf y := by
    refine List.pairwise_iff_getElem.mpr fun i j hi hj hij => ?_
    rw [hn.idxOf_getElem, hn.idxOf_getElem]
    exact hij
  exact (List.pairwise_append.mp (hpairs.sublist h)).2.2 id' hid id (List.mem_singleton.mpr rfl)

/-- The session holds the bookings, with their slots as the table has them. -/
def Taken (rows : List Booking) (ks : List Key) (w : World) : Prop :=
  ∀ b ∈ rows, .booking b.id ∈ ks ∧ (b.id, b.slotId) ∈ w.db.rows

/-- The locks of the clean-up after some of the candidates, and those it has found stale. -/
structure Collected (cfg : Config) (c : Session Call) (candidateIds past : List BookingId)
    (rows : List Booking) (l : Local Key Write) (w : World) : Prop where
  tx : l.tx = some []
  candidates : candidateIds.Sublist (w.db.bookings.map (·.id))
  holds : (order cfg).holds c l.held w
  bookings : ∀ key ∈ l.held, ∃ id ∈ past, key = .booking id
  taken : Taken rows l.held w

/-- The table only grows. -/
theorem sublist_ids {ids : List BookingId} (h : ids.Sublist (w.db.bookings.map (·.id)))
    (hw : (order cfg).stays w w') : ids.Sublist (w'.db.bookings.map (·.id)) := by
  have hpre := hw.1.map Prod.fst
  simp only [Db.rows, List.map_map] at hpre
  exact h.trans hpre.sublist

theorem Taken.grow {rows : List Booking} {ks' : List Key} (h : Taken rows ks w)
    (hks : ∀ key ∈ ks, key ∈ ks') (hw : (order cfg).stays w w') : Taken rows ks' w' :=
  fun b hb => ⟨hks _ (h b hb).1, hw.1.subset (h b hb).2⟩

/-- A slot of a booking that is held. -/
theorem Taken.next {rows : List Booking} (hc : c.call.isCreate = false) (h : Taken rows ks w)
    {b : Booking} (hb : b ∈ rows) : (Key.slot b.slotId).Next c ks w :=
  ⟨.last hc (h b hb).1 (h b hb).2, fun _ => ⟨_, h b hb⟩⟩

theorem Collected.stays {candidateIds past : List BookingId} {rows : List Booking}
    {l : Local Key Write} (h : Collected cfg c candidateIds past rows l w)
    (hw : (order cfg).stays w w') : Collected cfg c candidateIds past rows l w' where
  tx := h.tx
  candidates := sublist_ids h.candidates hw
  holds := (order_lawful cfg).holds h.holds hw
  bookings := h.bookings
  taken := h.taken.grow (fun _ hk => hk) hw

/-- A candidate that is not stale any more. -/
theorem Collected.skip {candidateIds past : List BookingId} {rows : List Booking}
    {l : Local Key Write} (h : Collected cfg c candidateIds past rows l w) (id : BookingId) :
    Collected cfg c candidateIds (past ++ [id]) (rows ++ (none : Option Booking).toList) l w where
  tx := h.tx
  candidates := h.candidates
  holds := h.holds
  bookings key hkey := by
    obtain ⟨id', hid', he⟩ := h.bookings key hkey
    exact ⟨id', List.mem_append_left _ hid', he⟩
  taken := by simpa using h.taken

/-- One stale booking is locked, after those before it in the table. -/
theorem Collected.lock {candidateIds past : List BookingId} {id : BookingId} {rows : List Booking}
    {l : Local Key Write} (hid : past ++ [id] <+: candidateIds)
    (h : Collected cfg c candidateIds past rows l w) :
    Script.Asks (engine cfg) (order cfg) c (lockRow (.pendingBooking id))
      (Script.Goes (order cfg) c fun row =>
        Collected cfg c candidateIds (past ++ [id]) (rows ++ row.toList)) l w := by
  obtain ⟨tx, ks⟩ := l
  obtain rfl : tx = some [] := h.tx
  rw [← Prog.bind_ret (lockRow (.pendingBooking id))]
  refine ordersTx_lock h.holds fun w₁ hw hwf => ?_
  have h₁ := h.stays hw
  simp only [Db.applyAll_nil, RowLock.eval]
  cases hb : w₁.db.booking? id with
  | none => exact ⟨by simp, fun _ w₂ hw' _ => (h₁.stays hw').skip id⟩
  | some b =>
    obtain ⟨hmem, rfl⟩ := Db.mem_of_booking? hb
    simp only
    split_ifs
    · refine ⟨?_, fun hks w₂ hw' _ => ?_⟩
      · simp only [List.mem_singleton, forall_eq]
        refine ⟨.next fun key' hkey' => ?_, hwf.bookingIds b hmem⟩
        obtain ⟨id', hid', rfl⟩ := h.bookings key' hkey'
        have hlt := idxOf_lt_of_sublist hwf.valid.bookings (hid.sublist.trans h₁.candidates) hid'
        simp only [Key.rank]
        omega
      · have h₂ := (h₁.stays hw').skip b.id
        refine ⟨rfl, h₂.candidates, (order_lawful cfg).holds hks hw', ?_, fun b' hb' => ?_⟩
        · rintro key hkey
          rcases List.mem_cons.mp hkey with rfl | hkey
          · exact ⟨b.id, by simp, rfl⟩
          · exact h₂.bookings key hkey
        · rcases List.mem_append.mp hb' with hb' | hb'
          · exact (h₁.stays hw').taken.grow (fun _ hk => List.mem_cons_of_mem _ hk)
              ((order_lawful cfg).refl w₂) b' hb'
          · obtain rfl := List.mem_singleton.mp hb'
            exact ⟨List.mem_cons_self, hw'.1.subset (Db.mem_rows hmem)⟩
    · exact ⟨by simp, fun _ w₂ hw' _ => (h₁.stays hw').skip b.id⟩

/-- The bookings in the order of the table, then their slots. -/
theorem cleanupTx_orders (hc : c.call.isCreate = false) {candidateIds : List BookingId}
    (hsub : candidateIds.Sublist (w.db.bookings.map (·.id))) :
    OrdersTx cfg c (cleanupTx candidateIds) [] [] w := by
  have hP := order_lawful cfg
  have hstart : Collected cfg c candidateIds [] [] ⟨some [], []⟩ w :=
    ⟨rfl, hsub, hP.none c w, by simp, by simp [Taken]⟩
  refine Script.asks_bind hP (Script.asks_mono (Script.asks_collect hP
    (fun past id hid rows l w h => h.lock hid) (fun _ _ _ _ _ h hw => h.stays hw)
    (List.nil_append candidateIds) hstart) ?_)
  rintro (e | staleBookings) ⟨tx, ks⟩ w₁ - hcollected
  · exact hcollected
  obtain ⟨rfl, -, hks, -, htaken⟩ : Collected cfg c candidateIds candidateIds staleBookings
    ⟨tx, ks⟩ w₁ := hcollected
  simp only at hks htaken ⊢
  split_ifs
  · exact Script.asks_ret_tx hP hks _
  refine ordersTx_update hks (fun w₂ _ hks key hkey => ?_) fun _ ws ks₂ w₂ hw hsub _ hks => ?_
  · obtain ⟨id, hid, rfl⟩ := hkey
    obtain ⟨b, hb, rfl⟩ := List.mem_map.mp hid
    exact Key.next_own hks (htaken b hb).1
  -- the slots may be locked in any order, and twice
  have hslots := Script.asks_forEach (c := c) hP (J := fun l w => ∃ ws ks, l = ⟨some ws, ks⟩ ∧
    (order cfg).holds c ks w ∧ Taken staleBookings ks w) (f := fun id => lockRow (.slot id))
    (l := ⟨some ws, ks₂⟩) (w := w₂) (staleBookings.map (·.slotId)) ?_ ?_
    ⟨ws, ks₂, rfl, hks, htaken.grow hsub hw⟩
  · refine Script.asks_bind hP (Script.asks_mono hslots ?_)
    rintro (e | _) l w₃ - hl
    · exact hl
    obtain ⟨ws, ks, rfl, hks, htaken⟩ := hl
    refine ordersTx_query hks fun activeBookings w₄ hw hks => ?_
    split_ifs
    · exact Script.asks_ret_tx hP hks _
    refine ordersTx_update hks (fun w₅ hw' _ key hkey => ?_) fun _ _ _ _ _ _ _ hks =>
      Script.asks_ret_tx hP hks _
    obtain ⟨id, hid, rfl⟩ := hkey
    obtain ⟨b, hb, rfl⟩ := List.mem_map.mp (List.mem_filter.mp hid).1
    exact (htaken.grow (fun _ hk => hk) (hP.trans hw hw')).next hc hb
  · rintro id hid l w₃ ⟨ws, ks, rfl, hks, htaken⟩
    obtain ⟨b, hb, rfl⟩ := List.mem_map.mp hid
    show Script.Asks _ _ _ (lockRow (.slot b.slotId)) _ _ _
    rw [← Prog.bind_ret (lockRow (.slot b.slotId))]
    refine ordersTx_lock hks fun w₄ hw _ => ?_
    simp only [RowLock.eval, List.mem_singleton, forall_eq]
    refine ⟨(htaken.grow (fun _ hk => hk) hw).next hc hb, fun hks w₅ hw' _ => ?_⟩
    exact ⟨ws, _, rfl, hP.holds hks hw', htaken.grow (fun _ hk => List.mem_cons_of_mem _ hk)
      (hP.trans hw hw')⟩
  · rintro l w₃ w₄ ⟨ws, ks, rfl, hks, htaken⟩ hw
    exact ⟨ws, ks, rfl, hP.holds hks hw, htaken.grow (fun _ hk => hk) hw⟩

theorem cleanup_orders (hc : c.call.isCreate = false) (now : Time) (w : World) :
    Orders cfg c (cleanupStalePendingBookings now) w := by
  refine orders_query fun w₁ _ _ => ?_
  split_ifs
  · exact fun _ _ _ => rfl
  exact orders_bind (orders_transaction fun w₂ hw _ _ =>
      cleanupTx_orders hc (sublist_ids (List.filter_sublist.map _) hw))
    fun actualCancelled w₂ => orders_bind (orders_statements
      (Script.uses_forEach fun turfId _ => uses_delByPattern turfId) _) fun _ _ _ _ _ => rfl

end BookingService

namespace PaymentService

theorem createPaymentIntent_orders (bookingId : BookingId) (userId : UserId) (w : World) :
    Orders cfg c (createPaymentIntent cfg bookingId userId) w := by
  refine orders_query fun w₁ _ _ => ?_
  cases Query.eval w₁.db (.bookingDetail bookingId) with
  | none => exact fun _ _ _ => rfl
  | some d =>
    simp only
    split_ifs
    · exact fun _ _ _ => rfl
    · exact fun _ _ _ => rfl
    split
    · exact fun _ _ _ => rfl
    · refine orders_external fun intent w₂ _ => orders_bind ?_ fun payment _ _ _ _ => rfl
      exact orders_statements (Script.uses_perform (S := Stmt) ⟨_, rfl⟩) w₂

/-- The event comes first, under its id. -/
theorem webhookEventCreate_orders {eventId : EventId} {f : Unit → Op β}
    (hks : (order cfg).holds c [] w)
    (h : ∀ ws ks w', (order cfg).stays w w' → (∀ key ∈ ks, key = .event eventId) →
      (order cfg).holds c ks w' → OrdersTx cfg c (f ()) ws ks w') :
    OrdersTx cfg c ((update (.webhookEventCreate eventId)).bind f) [] [] w := by
  refine ordersTx_update hks (fun w₁ _ _ key hkey => ?_) fun _ ws ks w₁ hw _ hup hks =>
    h ws ks w₁ hw (fun key hkey => ?_) hks
  · obtain rfl := hkey
    exact Key.next_first trivial
  · obtain hnil | ⟨uuid, he⟩ := hup key hkey
    · cases hnil
    · exact he

/-- A payment, after an event and a booking. -/
theorem Key.next_payment {id : PaymentId}
    (h : ∀ key ∈ ks, (∃ e, key = .event e) ∨ ∃ b, key = .booking b) :
    (Key.payment id).Next c ks w := by
  refine ⟨.next fun key' hkey' => ?_, trivial⟩
  rcases h key' hkey' with ⟨e, rfl⟩ | ⟨b, rfl⟩
  · simp [Key.rank]
  · exact Key.rank_booking w.db b

/-- The event, the booking, the payment. -/
theorem paymentSuccessTx_orders (eventId : EventId) (event : StripeEvent) {payment : Payment}
    (booking : Booking) (hid : payment.bookingId < w.out.uuid) (hks : (order cfg).holds c [] w) :
    OrdersTx cfg c (paymentSuccessTx eventId event payment booking) [] [] w := by
  refine webhookEventCreate_orders hks fun ws ks w₁ hw hevent hks => ordersTx_lock hks
    fun w₂ hw' _ => ?_
  simp only [RowLock.eval]
  cases hb : (w₂.db.applyAll ws).booking? payment.bookingId with
  | none => exact ⟨by simp, fun hks => Script.asks_throw_tx (order_lawful cfg) hks _⟩
  | some txBooking =>
    refine ⟨?_, fun hks => ?_⟩
    · simp only [List.mem_singleton, forall_eq]
      refine ⟨.next fun key' hkey' => ?_, ?_⟩
      · rw [hevent key' hkey']
        simp [Key.rank]
      · exact Nat.lt_of_lt_of_le hid ((order_lawful cfg).trans hw hw').2
    have hranks : ∀ key ∈ Key.booking payment.bookingId :: ks,
        (∃ e, key = .event e) ∨ ∃ b, key = .booking b := by
      rintro key hkey
      rcases List.mem_cons.mp hkey with rfl | hkey
      · exact .inr ⟨_, rfl⟩
      · exact .inl ⟨_, hevent key hkey⟩
    simp only
    split_ifs
    · refine ordersTx_external hks fun paidAt w₃ _ hks => ?_
      exact ordersTx_last hks fun w₄ _ _ key hkey => hkey ▸ Key.next_payment hranks
    · refine ordersTx_external hks fun paidAt w₃ _ hks => ordersTx_update hks
        (fun w₄ _ _ key hkey => hkey ▸ Key.next_payment hranks) fun _ ws ks w₄ _ hsub _ hks => ?_
      refine ordersTx_update hks (fun w₅ _ hks key hkey => ?_) fun _ _ _ w₅ _ _ _ hks =>
        ordersTx_queueAdd _ hks
      exact Key.next_own hks (hkey ▸ hsub _ (by simp))

theorem handleEvent_orders (eventId : EventId) (event : StripeEvent) (w : World) :
    Orders cfg c (handleEvent eventId event) w := by
  unfold handleEvent
  split
  · refine orders_query fun w₁ _ hwf => ?_
    cases hfound : Query.eval w₁.db (.paymentByIntent event.intent) with
    | none => exact fun _ _ _ => rfl
    | some row =>
      obtain ⟨payment, booking⟩ := row
      simp only
      split_ifs
      · exact fun _ _ _ => rfl
      simp only [Query.eval, Option.bind_eq_bind, Option.bind_eq_some_iff, Option.some.injEq,
        Prod.mk.injEq] at hfound
      obtain ⟨p, -, b, hb, rfl, rfl⟩ := hfound
      obtain ⟨hmem, hid⟩ := Db.mem_of_booking? hb
      exact orders_transaction fun w₂ hw _ hks => paymentSuccessTx_orders eventId event b
        (Nat.lt_of_lt_of_le (hid ▸ hwf.bookingIds b hmem) hw.2) hks
  · refine orders_query fun w₁ _ _ => ?_
    split
    · exact fun _ _ _ => rfl
    · refine orders_bind (orders_transaction fun _ _ _ hks => ?_) fun _ _ => orders_queueAdd _ _
      refine webhookEventCreate_orders hks fun ws ks w₂ _ hevent hks => ordersTx_last hks
        fun w₃ _ _ key hkey => hkey ▸ Key.next_payment fun key' hkey' => .inl ⟨_, hevent key' hkey'⟩
  · refine orders_transaction fun _ _ _ hks => webhookEventCreate_orders hks
      fun ws ks w₂ _ hevent hks => ordersTx_last hks fun w₃ _ _ key hkey => ?_
    obtain ⟨id, rfl⟩ := hkey
    exact Key.next_payment fun key' hkey' => .inl ⟨_, hevent key' hkey'⟩
  · exact fun _ _ _ => rfl

theorem handleWebhook_orders (event : Option EventId) (w : World) :
    Orders cfg c (handleWebhook cfg event) w := by
  cases event with
  | none => exact fun _ _ _ => rfl
  | some eventId =>
    refine orders_bind (Script.asks_tryCatch (order_lawful cfg) (Script.asks_mono
      (handleEvent_orders eventId (cfg.event eventId) w) ?_)) fun _ _ _ _ _ => rfl
    rintro (e | _) l w' - rfl
    · cases e <;> exact fun _ _ _ => rfl
    · rfl

/-- The booking, its payment, its slot. -/
theorem refundTx_orders (hc : c.call.isCreate = false) {bookingId : BookingId} {slotId : SlotId}
    (paymentId : PaymentId) (hrow : (bookingId, slotId) ∈ w.db.rows)
    (hks : (order cfg).holds c [] w) :
    OrdersTx cfg c (refundTx bookingId paymentId slotId) [] [] w := by
  refine ordersTx_lock hks fun w₁ hw hwf => ?_
  obtain ⟨b, hmem, he⟩ := List.mem_map.mp (hw.1.subset hrow)
  obtain ⟨rfl, rfl⟩ := Prod.mk.inj he
  simp only [Db.applyAll_nil, RowLock.eval, hwf.valid.booking?_of_mem hmem, List.mem_singleton,
    forall_eq]
  refine ⟨Key.next_first (hwf.bookingIds b hmem), fun hks => ?_⟩
  refine ordersTx_update hks (fun w₂ _ _ key hkey => ?_) fun _ ws ks w₂ hw' hsub _ hks => ?_
  · obtain rfl := hkey
    exact Key.next_payment fun key' hkey' => .inr ⟨b.id, List.mem_singleton.mp hkey'⟩
  have hbooking : Key.booking b.id ∈ ks := hsub _ (by simp)
  refine ordersTx_update hks (fun w₃ _ hks key hkey => Key.next_own hks (hkey ▸ hbooking))
    fun _ ws ks₃ w₃ hw₃ hsub₃ _ hks => ordersTx_query hks fun activeBookings w₄ hw₄ hks => ?_
  split_ifs
  · refine ordersTx_last hks fun w₅ hw₅ _ key hkey => ?_
    obtain rfl := hkey
    have hstays := (order_lawful cfg).trans ((order_lawful cfg).trans hw' hw₃)
      ((order_lawful cfg).trans hw₄ hw₅)
    have hrow₅ := hstays.1.subset (Db.mem_rows hmem)
    exact ⟨.last hc (hsub₃ _ hbooking) hrow₅, fun _ => ⟨_, hsub₃ _ hbooking, hrow₅⟩⟩
  · exact Script.asks_ret_tx (order_lawful cfg) hks _

theorem refund_orders (hc : c.call.isCreate = false) (bookingId : BookingId) (userId : UserId)
    (w : World) : Orders cfg c (refund bookingId userId) w := by
  refine orders_query fun w₁ _ hwf => ?_
  cases hfound : Query.eval w₁.db (.paymentDetail bookingId) with
  | none => exact fun _ _ _ => rfl
  | some d =>
    have hrow : (bookingId, d.slot.id) ∈ w₁.db.rows := by
      simp only [Query.eval, Db.paymentDetail?, Option.bind_eq_bind, Option.bind_eq_some_iff,
        Option.some.injEq] at hfound
      obtain ⟨p, hp, b, hb, slot, hslot, rfl⟩ := hfound
      obtain ⟨hmem, hid⟩ := Db.mem_of_booking? hb
      have hrow := Db.mem_rows hmem
      rw [hid, (Db.mem_of_paymentOf? hp).2] at hrow
      rw [(Db.mem_of_slot? hslot).2]
      exact hrow
    simp only
    split_ifs
    · exact fun _ _ _ => rfl
    · exact fun _ _ _ => rfl
    refine orders_external fun now w₂ hw₂ => ?_
    split_ifs
    · exact fun _ _ _ => rfl
    refine orders_external fun refundId w₃ hw₃ => orders_bind (orders_transaction
      fun w₄ hw₄ _ hks => refundTx_orders hc d.payment.id ?_ hks) fun _ _ _ _ _ => rfl
    exact ((order_lawful cfg).trans ((order_lawful cfg).trans hw₂ hw₃) hw₄).1.subset hrow

end PaymentService

theorem AdminService.completeBooking_orders (bookingId : BookingId) (adminId : UserId) (w : World) :
    Orders cfg c (completeBooking bookingId adminId) w := by
  refine orders_query fun w₁ _ _ => ?_
  cases Query.eval w₁.db (.bookingFindUnique bookingId) with
  | none => exact fun _ _ _ => rfl
  | some booking =>
    simp only
    split_ifs
    · exact fun _ _ _ => rfl
    · have hupdate : ∀ (u : Update) w, Orders cfg c (update u) w := fun u w =>
        orders_statements (Script.uses_perform (S := Stmt) ⟨_, rfl⟩) w
      exact orders_bind (hupdate _ _) fun _ _ => orders_bind (hupdate _ _) fun _ _ _ _ _ => rfl

theorem BookingCompleteJob.autoCompleteBookings_orders (now : Time) (w : World) :
    Orders cfg c (autoCompleteBookings now) w := by
  refine orders_query fun w₁ _ _ => orders_bind (orders_statements
    (Script.uses_forEach fun row _ => ?_) _) fun _ _ _ _ _ => rfl
  unfold complete
  split_ifs
  · refine ⟨⟨_, rfl⟩, fun r => ?_⟩
    cases r <;> trivial
  · trivial

/-- Every call locks its rows in the order. -/
theorem body_orders (c : Session Call) (w : World) : Orders cfg c (c.call.body cfg) w := by
  obtain ⟨n, call⟩ := c
  cases call with
  | create dto userId now => exact BookingService.create_orders rfl dto userId now w
  | cancel id userId => exact BookingService.cancel_orders rfl id userId w
  | cleanupStalePendingBookings now => exact BookingService.cleanup_orders rfl now w
  | createPaymentIntent bookingId userId =>
    exact PaymentService.createPaymentIntent_orders bookingId userId w
  | handleWebhook event => exact PaymentService.handleWebhook_orders event w
  | refund bookingId userId => exact PaymentService.refund_orders rfl bookingId userId w
  | completeBooking bookingId adminId => exact AdminService.completeBooking_orders bookingId adminId w
  | autoCompleteBookings now => exact BookingCompleteJob.autoCompleteBookings_orders now w

end TurfSync
