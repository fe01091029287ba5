import Mathlib.Data.List.Induction
import TurfSync.Guarantees.Amounts
import TurfSync.Protocol.Selling

/-! What a booking with a coupon adds up to. The discount is rounded to the cent by the quote and
the total by its column, each for itself, and both round a half up. So the stored total and the
stored discount make up the price, unless the discount is half a cent above whole cents; then
they exceed it by a cent. -/

namespace TurfSync

open Txn

/-! ### Rounding -/

/-- Cents that are rounded, and what they leave of a whole number of cents, rounded as well. -/
theorem mathRound_add_mathRound_sub_iff {x : ℚ} {n : ℤ} :
    mathRound x + mathRound (n - x) = n ↔ Int.fract x ≠ 1 / 2 := by
  have hup : mathRound x = ⌊x - 1 / 2⌋ + 1 := by
    rw [mathRound, ← Int.floor_add_one]
    congr 1
    ring
  have hdown : mathRound (n - x) = n - ⌈x - 1 / 2⌉ := by
    rw [mathRound, sub_eq_add_neg n ⌈x - 1 / 2⌉, ← Int.floor_neg, ← Int.floor_intCast_add]
    congr 1
    ring
  have hhalf : Int.fract x = 1 / 2 ↔ x - 1 / 2 ∈ Set.range ((↑) : ℤ → ℚ) := by
    rw [Int.fract_eq_iff]
    constructor
    · rintro ⟨-, -, z, hz⟩
      exact ⟨z, hz.symm⟩
    · rintro ⟨z, hz⟩
      exact ⟨by norm_num, by norm_num, z, hz.symm⟩
  rw [hup, hdown, Ne, hhalf, ← Int.ceil_eq_floor_add_one_iff_notMem]
  constructor <;> intro h <;> linarith

theorem decimal2_of_nonneg {x : ℚ} (h : 0 ≤ x) : decimal2 x = roundCents x := by
  rw [decimal2, if_pos h, roundCents, mathRound]

/-- A discount and the rest of an amount, each to the nearest cent, add up to the amount,
unless the discount is half a cent above whole cents. -/
theorem roundCents_add_iff {discount amount : ℚ} (hcents : InCents amount) :
    roundCents (amount - discount) + roundCents discount = amount ↔
      Int.fract (discount * 100) ≠ 1 / 2 := by
  have hrest : (amount - discount) * 100 = mathRound (amount * 100) - discount * 100 := by
    rw [sub_mul, hcents]
  rw [← @mathRound_add_mathRound_sub_iff _ (mathRound (amount * 100)), ← hrest]
  have hsum : roundCents (amount - discount) + roundCents discount =
      ((mathRound (discount * 100) + mathRound ((amount - discount) * 100) : ℤ) : ℚ) / 100 := by
    rw [roundCents, roundCents]
    push_cast
    ring
  have hiff : ∀ n : ℤ, (n : ℚ) / 100 = amount ↔ n = mathRound (amount * 100) := fun n => by
    rw [div_eq_iff (by norm_num), ← @Int.cast_inj ℚ, hcents]
  rw [hsum, hiff]

theorem fract_of_inCents {x : ℚ} (h : InCents x) : Int.fract (x * 100) = 0 := by
  rw [← h, Int.fract_intCast]

/-! ### Coupons -/

namespace Coupon

variable {c : Coupon} {amount : ℚ}

/-- A fixed discount, or a percentage of at most 100. -/
def AtMostAll (c : Coupon) : Prop := c.discountType = .PERCENTAGE → c.discountValue ≤ 100

instance : DecidablePred AtMostAll := fun _ => inferInstanceAs (Decidable (_ → _))

/-- The percentage of the amount, not cut by the cap, is half a cent above whole cents. -/
def HalfCent (c : Coupon) (amount : ℚ) : Prop :=
  c.discountType = .PERCENTAGE ∧ Int.fract (amount * c.discountValue) = 1 / 2 ∧
    (0 < c.maxDiscountAmount → amount * c.discountValue ≤ c.maxDiscountAmount * 100)

instance (c : Coupon) (amount : ℚ) : Decidable (c.HalfCent amount) :=
  inferInstanceAs (Decidable (_ ∧ _ ∧ _))

theorem discountOn_le (h : c.AtMostAll) (hamount : 0 ≤ amount) : c.discountOn amount ≤ amount := by
  unfold discountOn
  split
  · rename_i htype
    have hpercent : amount * c.discountValue / 100 ≤ amount := by
      have hvalue := mul_le_mul_of_nonneg_left (h htype) hamount
      linarith
    dsimp only
    split_ifs
    · exact (min_le_left _ _).trans hpercent
    · exact hpercent
  · exact min_le_right _ _

theorem fract_discountOn_iff (h : c.Priced) (hcents : InCents amount) :
    Int.fract (c.discountOn amount * 100) = 1 / 2 ↔ c.HalfCent amount := by
  have hwhole : ∀ x, InCents x → ¬ Int.fract (x * 100) = 1 / 2 := fun x hx he => by
    rw [fract_of_inCents hx] at he
    norm_num at he
  have hpercent : amount * c.discountValue / 100 * 100 = amount * c.discountValue := by ring
  unfold discountOn HalfCent
  cases htype : c.discountType with
  | FIXED =>
    simp only [reduceCtorEq, false_and, iff_false]
    rcases min_choice c.discountValue amount with hmin | hmin
    · rw [hmin]
      exact hwhole _ h.valueCents
    · rw [hmin]
      exact hwhole _ hcents
  | PERCENTAGE =>
    simp only [true_and]
    split_ifs with hmax
    · rcases le_or_gt (amount * c.discountValue) (c.maxDiscountAmount * 100) with hle | hgt
      · rw [min_eq_left (by linarith), hpercent]
        simp only [hle, imp_true_iff, and_true]
      · rw [min_eq_right (by linarith)]
        simp only [hwhole _ h.maxCents, false_iff]
        exact fun hhalf => hgt.not_ge (hhalf.2 hmax)
    · rw [hpercent]
      simp only [hmax, false_imp_iff, and_true]

/-- What is stored for a quote: the total to the cent, and the discount, which was rounded
before. -/
theorem stored_add_iff (h : c.Priced) (hall : c.AtMostAll) (hamount : 0 ≤ amount)
    (hcents : InCents amount) :
    decimal2 (max (amount - c.discountOn amount) 0) + decimal2 (roundCents (c.discountOn amount)) =
      amount ↔ ¬ c.HalfCent amount := by
  have hnonneg := discountOn_nonneg h hamount
  have hle := discountOn_le hall hamount
  rw [max_eq_left (by linarith), decimal2_of_nonneg (by linarith),
    decimal2_of_nonneg (roundCents_nonneg hnonneg), roundCents_of_inCents (inCents_roundCents _),
    roundCents_add_iff hcents, Ne, fract_discountOn_iff h hcents]

end Coupon

namespace Catalogue

/-! ### Writes -/

/-- The id of the booking that the write inserts. -/
def Write.booked? : Write → Option BookingId
  | .coupon (.base (.bookingInsert b)) => some b.id
  | _ => none

theorem bookingIds_apply (db : Db) (x : Write) :
    (apply db x).bookings.map (·.id) = db.bookings.map (·.id) ++ x.booked?.toList := by
  cases x with
  | turfSet id now change => exact (List.append_nil _).symm
  | coupon x =>
    cases x with
    | base x =>
      cases x with
      | bookingInsert b => exact List.map_append
      | bookingSet ids status =>
        have hkeys : (apply db (.coupon (.base (.bookingSet ids status)))).bookings.map (·.id) =
            db.bookings.map (·.id) := Rows.keys_update fun _ => rfl
        rw [hkeys]
        exact (List.append_nil _).symm
      | _ => exact (List.append_nil _).symm
    | _ => exact (List.append_nil _).symm

theorem bookingIds_foldl (ws : List Write) (db : Db) : (ws.foldl apply db).bookings.map (·.id) =
    db.bookings.map (·.id) ++ ws.filterMap Write.booked? := by
  induction ws generalizing db with
  | nil => exact (List.append_nil _).symm
  | cons x ws ih =>
    rw [List.foldl_cons, ih, bookingIds_apply, List.append_assoc, List.filterMap_cons]
    cases x.booked? <;> rfl

/-- No booking is deleted. -/
theorem bookingIds_kept {db : Db} (ws : List Write) {id : BookingId}
    (h : id ∈ db.bookings.map (·.id)) : id ∈ (ws.foldl apply db).bookings.map (·.id) := by
  rw [bookingIds_foldl]
  exact List.mem_append_left _ h

section

variable {register register' : BookingId → TurfId × ℚ} {drawn : ℕ} {g g' : Sale} {db : Db}

/-- The bookings of the database stay in the register, if the new ones are. -/
theorem registered_foldl {ws : List Write} (hrows : ∀ b ∈ db.bookings, Registered register drawn b)
    (hbooked : ∀ b, .coupon (.base (.bookingInsert b)) ∈ ws → Registered register drawn b) :
    ∀ b ∈ (ws.foldl apply db).bookings, Registered register drawn b := by
  induction ws generalizing db with
  | nil => exact hrows
  | cons x ws ih =>
    refine ih (fun b hb => ?_) fun b hb => hbooked b (List.mem_cons_of_mem _ hb)
    cases x with
    | turfSet id now change => exact hrows b hb
    | coupon x =>
      cases x with
      | base x =>
        cases x with
        | bookingInsert b' =>
          rcases List.mem_append.mp hb with hb | hb
          · exact hrows b hb
          · rw [List.mem_singleton.mp hb]
            exact hbooked b' List.mem_cons_self
        | bookingSet ids status =>
          obtain ⟨b', hb', rfl⟩ := Rows.mem_update.mp hb
          have hregistered := hrows b' hb'
          split_ifs
          · exact ⟨hregistered.drawn, hregistered.entry⟩
          · exact hregistered
        | _ => exact hrows b hb
      | _ => exact hrows b hb

/-- What a session holds back: bookings of the register, and usages of bookings that it sees. -/
structure Drafted (register : BookingId → TurfId × ℚ) (drawn : ℕ) (g : Sale) (db : Db)
    (ws : List Write) : Prop where
  booked : ∀ b, .coupon (.base (.bookingInsert b)) ∈ ws → Registered register drawn b
  used : ∀ u, .coupon (.base (.usageInsert u)) ∈ ws → g.Pays register drawn u ∧
    u.bookingId ∈ (ws.foldl apply db).bookings.map (·.id)

/-- Ids are drawn and registered, and bookings are inserted. -/
structure Grown (register register' : BookingId → TurfId × ℚ) (w w' : World) : Prop where
  drawn : w.out.uuid ≤ w'.out.uuid
  kept : ∀ id < w.out.uuid, register' id = register id
  ids : ∀ id ∈ w.db.bookings.map (·.id), id ∈ w'.db.bookings.map (·.id)

theorem Grown.refl (register : BookingId → TurfId × ℚ) (w : World) : Grown register register w w :=
  ⟨Nat.le_refl _, fun _ _ => rfl, fun _ h => h⟩

variable {w w' : World} {b : Booking}

theorem Grown.registered (hw : Grown register register' w w') (h : Registered register w.out.uuid b) :
    Registered register' w'.out.uuid b := h.mono hw.drawn hw.kept

theorem Drafted.grown {ws : List Write} (h : Drafted register w.out.uuid g w.db ws)
    (hw : Grown register register' w w') (hprice : g'.price = g.price) (hcoupon : g'.coupon = g.coupon) :
    Drafted register' w'.out.uuid g' w'.db ws where
  booked b hb := hw.registered (h.booked b hb)
  used u hu := by
    obtain ⟨hpays, hid⟩ := h.used u hu
    refine ⟨hpays.mono hw.drawn hw.kept hprice hcoupon, ?_⟩
    rw [bookingIds_foldl, List.mem_append] at hid ⊢
    exact hid.imp_left (hw.ids _)

end

/-! ### One statement -/

/-- The automaton of the sales, while turfs and coupons are edited. -/
abbrev seller : Automaton Stmt Stmt.Reply Err Sale := selling.lift.lift

/-- What a statement of the session, which goes on with `next`, writes. -/
structure Posts (register : BookingId → TurfId × ℚ) (drawn : ℕ) (g next : Sale) (view : Db)
    (ws : List Write) : Prop where
  booking : ∀ b, next.booking = some b → Registered register drawn b
  booked : ∀ b, .coupon (.base (.bookingInsert b)) ∈ ws → Registered register drawn b
  used : ∀ u, .coupon (.base (.usageInsert u)) ∈ ws → g.inTx = true ∧ g.Pays register drawn u ∧
    u.bookingId ∈ view.bookings.map (·.id)

section

variable {cfg : Config} {register : BookingId → TurfId × ℚ} {drawn : ℕ} {g next : Sale} {view w : World}

theorem Posts.of_writes {ws : List TurfSync.Write} {db : Db} (h : Writes register drawn g next db ws) :
    Posts register drawn g next db ((ws.map CouponAdmin.Write.base).map Write.coupon) where
  booking := h.booking
  booked b hb := by
    obtain ⟨_, hy, hb⟩ := List.mem_map.mp hb
    obtain ⟨x, hx, rfl⟩ := List.mem_map.mp hy
    cases hb
    exact h.booked b hx
  used u hu := by
    obtain ⟨_, hy, hu⟩ := List.mem_map.mp hu
    obtain ⟨x, hx, rfl⟩ := List.mem_map.mp hy
    cases hu
    obtain ⟨hopen, hpays, b, hb, hid⟩ := h.used u hx
    exact ⟨hopen, hpays, List.mem_map.mpr ⟨b, hb, hid⟩⟩

/-- An edit inserts no booking and no usage. -/
theorem Posts.of_edits {ws : List Write} (hsold : ∀ b, g.booking = some b → Registered register drawn b)
    (hws : ∀ x ∈ ws, ∀ y, x ≠ .coupon (.base y)) (db : Db) : Posts register drawn g g db ws :=
  ⟨hsold, fun _ hb => absurd rfl (hws _ hb _), fun _ hu => absurd rfl (hws _ hu _)⟩

theorem edits_couponAdmin (s : CouponAdmin.AdminStmt) :
    ∀ x ∈ (act cfg (.inl (.inr s)) view w).writes, ∀ y, x ≠ .coupon (.base y) := by
  intro x hx y
  obtain ⟨z, hz, rfl⟩ := List.mem_map.mp hx
  cases s with
  | find q => exact (List.not_mem_nil hz).elim
  | change u =>
    simp only [CouponAdmin.act] at hz
    rcases u.plan_cases view.db w.out.uuid with ⟨e, ks, hplan⟩ | ⟨c, id', x, hplan, -, hx⟩
    · rw [hplan] at hz
      exact (List.not_mem_nil hz).elim
    · rw [hplan] at hz
      obtain rfl := List.mem_singleton.mp hz
      cases hx <;> simp

theorem edits_turf (s : TurfStmt) :
    ∀ x ∈ (act cfg (.inr s) view w).writes, ∀ y, x ≠ .coupon (.base y) := by
  intro x hx y
  cases s with
  | turfFindUnique id => exact (List.not_mem_nil hx).elim
  | turfUpdate id change =>
    simp only [act] at hx
    split at hx
    · exact (List.not_mem_nil hx).elim
    · split_ifs at hx
      · exact (List.not_mem_nil hx).elim
      · rw [List.mem_singleton.mp hx]
        simp

theorem act_grows (s : Stmt) : (act cfg s view w).world.db = w.db ∧
    w.out.uuid ≤ (act cfg s view w).world.out.uuid := by
  rcases s with (s | s) | s
  · obtain ⟨o, hworld, hle⟩ := act_out cfg s ⟨view.db, view.out, []⟩ ⟨w.db, w.out, []⟩
    exact ⟨rfl, hle.trans_eq (congrArg (·.out.uuid) hworld).symm⟩
  · cases s with
    | find q => exact ⟨rfl, Nat.le_refl _⟩
    | change u => exact ⟨rfl, Nat.le_succ _⟩
  · cases s with
    | turfFindUnique id => exact ⟨rfl, Nat.le_refl _⟩
    | turfUpdate id change =>
      simp only [act]
      split
      · exact ⟨rfl, Nat.le_refl _⟩
      · split_ifs
        · exact ⟨rfl, Nat.le_refl _⟩
        · exact ⟨rfl, Nat.le_refl _⟩

theorem posts_of_may {s : Stmt} (hmay : seller.may g (.stmt s))
    (hsold : ∀ b, g.booking = some b → Registered register w.out.uuid b) :
    let e := act cfg s view w
    ∃ register', (∀ id < w.out.uuid, register' id = register id) ∧
      Posts register' e.world.out.uuid g (seller.next g (.stmt s) e.reply) view.db e.writes := by
  have hsold' : ∀ b, g.booking = some b →
      Registered register (act cfg s view w).world.out.uuid b :=
    fun b hb => (hsold b hb).mono (act_grows s).2 fun _ _ => rfl
  rcases s with (s | s) | s
  · obtain ⟨register', hkept, hwrites⟩ := @writes_of_may register g cfg s ⟨view.db, view.out, []⟩
      ⟨w.db, w.out, []⟩ hmay hsold
    exact ⟨register', hkept, .of_writes hwrites⟩
  · exact ⟨register, fun _ _ => rfl, .of_edits hsold' (edits_couponAdmin s) _⟩
  · exact ⟨register, fun _ _ => rfl, .of_edits hsold' (edits_turf s) _⟩

end

/-! ### Sessions -/

/-- Call `i` has not ended. -/
def Sys.Running (t : Sys) (i : ℕ) : Prop := ∃ u, t.threads[i]? = some u ∧ u.prog.result? = none

instance (t : Sys) (i : ℕ) : Decidable (t.Running i) :=
  inferInstanceAs (Decidable (∃ u ∈ t.threads[i]?, u.prog.result? = none))

/-- The coupon that the next command of call `i` reads. -/
def Sys.reads? (t : Sys) (i : ℕ) : Option Coupon :=
  t.threads[i]?.bind fun u => match u.prog with
    | .call (.stmt (.inl (.inl (.query (.couponByCode code _))))) _ => t.world.db.couponByCode? code
    | _ => none

/-- The register has every booking of the database, and those that sessions have inserted or
hold back. -/
structure Ledger (register : BookingId → TurfId × ℚ) (g : ℕ → Sale) (t : Sys) : Prop where
  rows : ∀ b ∈ t.world.db.bookings, Registered register t.world.out.uuid b
  sold : ∀ i b, (g i).booking = some b → Registered register t.world.out.uuid b
  inTx : ∀ (i : ℕ) (u : Thread Stmt Stmt.Reply Err Key Write Call Reply), t.threads[i]? = some u →
    (g i).inTx = u.loc.tx.isSome
  drafts : ∀ (i : ℕ) (u : Thread Stmt Stmt.Reply Err Key Write Call Reply), t.threads[i]? = some u →
    ∀ ws ∈ u.loc.tx, Drafted register t.world.out.uuid (g i) t.world.db ws

/-- What session `i` knows after a step, it knew, or it is read in the step. -/
structure Recalls (t : Sys) (a : Act) (i : ℕ) (g g' : Sale) : Prop where
  coupon : ∀ c, g'.coupon = some c → g.coupon = some c ∨ a = .run i ∧ t.reads? i = some c
  price : ∀ id price, g'.price = some (id, some price) → g.price = some (id, some price) ∨
    t.Running i ∧ ∃ turf ∈ t.world.db.turf? id, turf.pricePerHour = price

theorem Recalls.refl (t : Sys) (a : Act) (i : ℕ) (g : Sale) : Recalls t a i g g :=
  ⟨fun _ h => .inl h, fun _ _ h => .inl h⟩

section

variable {cfg : Config} {register register' : BookingId → TurfId × ℚ} {g : ℕ → Sale} {t : Sys} {a : Act}
  {i : ℕ} {u : Thread Stmt Stmt.Reply Err Key Write Call Reply}

/-- Session `i` goes on. -/
theorem Ledger.set (h : Ledger register g t) {w : World} {next : Sale}
    {p : Op Reply} {l : Local Key Write} (hw : Grown register register' t.world w)
    (hrows : ∀ b ∈ w.db.bookings, Registered register' w.out.uuid b)
    (hsold : ∀ b, next.booking = some b → Registered register' w.out.uuid b)
    (hinTx : next.inTx = l.tx.isSome)
    (hdraft : ∀ ws ∈ l.tx, Drafted register' w.out.uuid next w.db ws) :
    Ledger register' (Function.update g i next) ⟨w, t.threads.set i ⟨u.session, p, l⟩⟩ := by
  refine ⟨hrows, fun j b hb => ?_, fun j v hv => ?_, fun j v hv => ?_⟩
  · by_cases hji : j = i
    · rw [hji, Function.update_self] at hb
      exact hsold b hb
    · rw [Function.update_of_ne hji] at hb
      exact hw.registered (h.sold j b hb)
  · rcases getElem?_put hv with ⟨rfl, rfl⟩ | ⟨hji, hv⟩
    · rw [Function.update_self]
      exact hinTx
    · rw [Function.update_of_ne hji]
      exact h.inTx j v hv
  · rcases getElem?_put hv with ⟨rfl, rfl⟩ | ⟨hji, hv⟩
    · rw [Function.update_self]
      exact hdraft
    · rw [Function.update_of_ne hji]
      exact fun ws hws => (h.drafts j v hv ws hws).grown hw rfl rfl

/-- Nothing is written. -/
theorem Ledger.idle (h : Ledger register g t) {next : Sale} {p : Op Reply} {l : Local Key Write}
    (hbooking : next.booking = (g i).booking) (hinTx : next.inTx = l.tx.isSome)
    (hdraft : ∀ ws ∈ l.tx, Drafted register t.world.out.uuid next t.world.db ws) :
    Ledger register (Function.update g i next) ⟨t.world, t.threads.set i ⟨u.session, p, l⟩⟩ :=
  h.set (.refl register t.world) h.rows (fun b hb => h.sold i b (hbooking ▸ hb)) hinTx hdraft

theorem next_inTx_stmt (k : Sale) (st : Stmt) (r : Except Err (Stmt.Reply st)) :
    (seller.next k (.stmt st) r).inTx = k.inTx := by
  rcases st with (s | s) | s
  · exact next_inTx k s r
  · rfl
  · rfl

theorem next_memory_stmt {k : Sale} {st : Stmt} (hmay : seller.may k (.stmt st)) (hk : k.inTx = true)
    (r : Except Err (Stmt.Reply st)) : (seller.next k (.stmt st) r).price = k.price ∧
      (seller.next k (.stmt st) r).coupon = k.coupon := by
  rcases st with (s | s) | s
  · exact next_memory hmay hk r
  · exact ⟨rfl, rfl⟩
  · exact ⟨rfl, rfl⟩

/-- A statement outside any transaction; no usage is inserted there. -/
theorem Ledger.auto (h : Ledger register g t) (hu : t.threads[i]? = some u) (htx : u.loc.tx = none)
    {st : Stmt} (hmay : seller.may (g i) (.stmt st)) {p : Op Reply} :
    let o := (engine cfg).exec u.loc t.world (.stmt st)
    ∃ register', Ledger register' (Function.update g i (seller.next (g i) (.stmt st) o.reply))
      ⟨(engine cfg).after u.session o, t.threads.set i ⟨u.session, p, o.loc⟩⟩ := by
  obtain ⟨register', hkept, hposts⟩ := @posts_of_may cfg _ _ t.world _ _ hmay
    (fun b hb => h.sold i b hb)
  obtain ⟨hdb, hdrawn⟩ := @act_grows cfg t.world t.world st
  have hafter : (engine cfg).after u.session ((engine cfg).exec u.loc t.world (.stmt st)) =
      ⟨(act cfg st t.world t.world).writes.foldl apply t.world.db,
        (act cfg st t.world t.world).world.out⟩ := by
    rw [Engine.after_auto htx, ← hdb]
    split_ifs with hws
    · have hnone : (act cfg st t.world t.world).writes = [] := hws
      rw [hnone]
      rfl
    · rfl
  have hgrown : Grown register register' t.world
      ⟨(act cfg st t.world t.world).writes.foldl apply t.world.db,
        (act cfg st t.world t.world).world.out⟩ :=
    ⟨hdrawn, hkept, fun _ hid => bookingIds_kept _ hid⟩
  refine ⟨register', ?_⟩
  rw [hafter, Engine.exec_auto htx]
  refine h.set hgrown (registered_foldl (fun b hb => ?_) hposts.booked) hposts.booking ?_ ?_
  · exact (h.rows b hb).mono hdrawn hkept
  · rw [next_inTx_stmt]
    exact h.inTx i u hu
  · rw [htx]
    exact fun ws hws => by cases hws

theorem view_db (ws : List Write) (w : World) :
    ((engine cfg).view ws w).db = ws.foldl apply w.db := by
  induction ws generalizing w with
  | nil => rfl
  | cons x ws ih => exact ih _

/-- A statement in a transaction. -/
theorem Ledger.held (h : Ledger register g t) (hu : t.threads[i]? = some u) {ws : List Write}
    (htx : u.loc.tx = some ws) {st : Stmt} (hmay : seller.may (g i) (.stmt st)) {p : Op Reply} :
    let o := (engine cfg).exec u.loc t.world (.stmt st)
    ∃ register', Ledger register' (Function.update g i (seller.next (g i) (.stmt st) o.reply))
      ⟨(engine cfg).after u.session o, t.threads.set i ⟨u.session, p, o.loc⟩⟩ := by
  have hviewDb := @view_db cfg ws t.world
  have hexec := Engine.exec_tx (E := engine cfg) htx t.world st
  generalize (engine cfg).view ws t.world = view at hviewDb hexec
  obtain ⟨register', hkept, hposts⟩ := @posts_of_may cfg _ _ view _ _ hmay
    (fun b hb => h.sold i b hb)
  obtain ⟨hdb, hdrawn⟩ := @act_grows cfg view t.world st
  have hgrown : Grown register register' t.world (act cfg st view t.world).world :=
    ⟨hdrawn, hkept, fun id hid => by rwa [hdb]⟩
  have hopen : (g i).inTx = true := by
    rw [h.inTx i u hu, htx]
    rfl
  refine ⟨register', ?_⟩
  rw [hexec]
  obtain ⟨hprice, hcoupon⟩ := next_memory_stmt hmay hopen (act cfg st view t.world).reply
  have hdraft := (h.drafts i u hu ws htx).grown hgrown hprice hcoupon
  refine h.set hgrown (fun b hb => hgrown.registered (h.rows b (hdb ▸ hb))) hposts.booking ?_
    fun ws' hws' => ?_
  · rw [next_inTx_stmt, hopen]
    rfl
  · obtain rfl := Option.some.inj hws'
    refine ⟨fun b hb => (List.mem_append.mp hb).elim (hdraft.booked b) (hposts.booked b), fun v hv => ?_⟩
    -- what was to be seen in the transaction is to be seen still
    have hseen : v.bookingId ∈ (ws.foldl apply (act cfg st view t.world).world.db).bookings.map (·.id) →
        v.bookingId ∈ ((ws ++ (act cfg st view t.world).writes).foldl apply
          (act cfg st view t.world).world.db).bookings.map (·.id) := fun hid => by
      rw [List.foldl_append]
      exact bookingIds_kept _ hid
    rcases List.mem_append.mp hv with hv | hv
    · obtain ⟨hpays, hid⟩ := hdraft.used v hv
      exact ⟨hpays, hseen hid⟩
    · obtain ⟨-, hpays, hid⟩ := hposts.used v hv
      rw [hviewDb, ← hdb] at hid
      exact ⟨hpays.mono (Nat.le_refl _) (fun _ _ => rfl) hprice hcoupon, hseen hid⟩

theorem Ledger.stmt (h : Ledger register g t) (hu : t.threads[i]? = some u) {st : Stmt}
    (hmay : seller.may (g i) (.stmt st)) {p : Op Reply} :
    let o := (engine cfg).exec u.loc t.world (.stmt st)
    ∃ register', Ledger register' (Function.update g i (seller.next (g i) (.stmt st) o.reply))
      ⟨(engine cfg).after u.session o, t.threads.set i ⟨u.session, p, o.loc⟩⟩ := by
  cases htx : u.loc.tx with
  | none => exact h.auto hu htx hmay
  | some ws => exact h.held hu htx hmay

/-- A commit. -/
theorem Ledger.commit (h : Ledger register g t) (hu : t.threads[i]? = some u) {p : Op Reply} :
    Ledger register (Function.update g i (seller.next (g i) .commit (.ok ())))
      ⟨(engine cfg).after u.session ((engine cfg).exec u.loc t.world .commit),
        t.threads.set i ⟨u.session, p, ((engine cfg).exec u.loc t.world .commit).loc⟩⟩ := by
  have hafter : (engine cfg).after u.session ((engine cfg).exec u.loc t.world .commit) =
      ⟨(u.loc.tx.getD []).foldl apply t.world.db, t.world.out⟩ := rfl
  have hbooked : ∀ b, .coupon (.base (.bookingInsert b)) ∈ u.loc.tx.getD [] →
      Registered register t.world.out.uuid b := by
    intro b hb
    cases htx : u.loc.tx with
    | none =>
      rw [htx] at hb
      exact (List.not_mem_nil hb).elim
    | some ws =>
      rw [htx] at hb
      exact (h.drafts i u hu ws htx).booked b hb
  have hgrown : Grown register register t.world ⟨(u.loc.tx.getD []).foldl apply t.world.db, t.world.out⟩ :=
    ⟨Nat.le_refl _, fun _ _ => rfl, fun _ hid => bookingIds_kept _ hid⟩
  rw [hafter]
  exact h.set hgrown (registered_foldl h.rows hbooked) (fun b hb => h.sold i b hb) rfl
    fun ws hws => by cases hws

/-- A bracket, or a command that fails, tells nothing. -/
theorem next_untold {m : Cmd Stmt} {r : Except Err (m.Reply Stmt.Reply)}
    (hm : (∀ s, m ≠ .stmt s) ∨ ∃ e, r = .error e) (k : Sale) :
    ∃ inTx, seller.next k m r = { k with inTx := inTx } := by
  cases m with
  | stmt s =>
    obtain ⟨e, rfl⟩ := hm.resolve_left fun h => h s rfl
    refine ⟨k.inTx, ?_⟩
    rcases s with (s | s) | s
    · cases s with
      | query q => cases q <;> rfl
      | update v => cases v <;> rfl
      | external x => rfl
      | lock l => rfl
    · rfl
    · rfl
  | begin =>
    cases r with
    | ok _ => exact ⟨true, rfl⟩
    | error e => exact ⟨k.inTx, rfl⟩
  | commit => exact ⟨false, rfl⟩
  | rollback => exact ⟨false, rfl⟩

theorem Recalls.untold {m : Cmd Stmt} {r : Except Err (m.Reply Stmt.Reply)}
    (hm : (∀ s, m ≠ .stmt s) ∨ ∃ e, r = .error e) (k : Sale) : Recalls t a i k (seller.next k m r) := by
  obtain ⟨inTx, hnext⟩ := next_untold hm k
  rw [hnext]
  exact ⟨fun _ h => .inl h, fun _ _ h => .inl h⟩

/-- A command that fails. -/
theorem Ledger.failed (h : Ledger register g t) (hu : t.threads[i]? = some u) (m : Cmd Stmt) (e : Err)
    {p : Op Reply} : Ledger register (Function.update g i (seller.next (g i) m (.error e)))
      ⟨t.world, t.threads.set i ⟨u.session, p, Engine.failed u.loc m⟩⟩ := by
  obtain ⟨inTx, hnext⟩ := @next_untold m (.error e) (.inr ⟨e, rfl⟩) (g i)
  have hbooking : (seller.next (g i) m (.error e)).booking = (g i).booking := by rw [hnext]
  have hkept : ∀ ws ∈ u.loc.tx,
      Drafted register t.world.out.uuid (seller.next (g i) m (.error e)) t.world.db ws := fun ws hws =>
    (h.drafts i u hu ws hws).grown (.refl register t.world) (by rw [hnext]) (by rw [hnext])
  cases m with
  | stmt st => exact h.idle hbooking ((next_inTx_stmt _ st _).trans (h.inTx i u hu)) hkept
  | begin => exact h.idle hbooking (h.inTx i u hu) hkept
  | commit => exact h.idle hbooking rfl fun ws hws => by cases hws
  | rollback => exact h.idle hbooking rfl fun ws hws => by cases hws

/-- What a statement tells, it has read outside any transaction. -/
theorem recalls_stmt (h : Ledger register g t) (hu : t.threads[i]? = some u) {st : Stmt}
    {k : Except Err (Stmt.Reply st) → Op Reply} (hp : u.prog = .call (.stmt st) k)
    (hmay : seller.may (g i) (.stmt st)) : Recalls t (.run i) i (g i)
      (seller.next (g i) (.stmt st) ((engine cfg).exec u.loc t.world (.stmt st)).reply) := by
  have hidle : (g i).inTx = false → u.loc.tx = none := fun hout => by
    rw [h.inTx i u hu] at hout
    exact Option.isSome_eq_false_iff.mp hout |> Option.isNone_iff_eq_none.mp
  rcases st with (s | s) | s
  · cases s with
    | query q =>
      cases q with
      | turfPrice id =>
        rw [Engine.exec_auto (hidle hmay)]
        refine ⟨fun c hc => .inl hc, fun id' price hprice => .inr ⟨⟨u, hu, by rw [hp]; rfl⟩, ?_⟩⟩
        obtain ⟨rfl, hfound⟩ := Prod.mk.inj (Option.some.inj hprice)
        obtain ⟨turf, hturf, hturfPrice⟩ := Option.map_eq_some_iff.mp hfound
        exact ⟨turf, hturf, hturfPrice⟩
      | couponByCode code userId =>
        rw [Engine.exec_auto (hidle hmay)]
        refine ⟨fun c hc => .inr ⟨rfl, ?_⟩, fun _ _ h => .inl h⟩
        obtain ⟨row, hrow, rfl⟩ := Option.map_eq_some_iff.mp hc
        obtain ⟨c, hcoupon, rfl⟩ := Option.map_eq_some_iff.mp hrow
        rw [Sys.reads?, hu, Option.bind_some, hp]
        exact hcoupon
      | _ => exact .refl t _ i _
    | update v =>
      cases v with
      | bookingCreate d =>
        generalize ((engine cfg).exec u.loc t.world
          (.stmt (.inl (.inl (.update (.bookingCreate d)))))).reply = r
        cases r <;> exact ⟨fun _ h => .inl h, fun _ _ h => .inl h⟩
      | _ => exact .refl t _ i _
    | external x => exact .refl t _ i _
    | lock l => exact .refl t _ i _
  · exact .refl t _ i _
  · exact .refl t _ i _

theorem Recalls.update {next : Sale} (h : Recalls t a i (g i) next) (j : ℕ) :
    Recalls t a j (g j) (Function.update g i next j) := by
  by_cases hji : j = i
  · rw [hji, Function.update_self]
    exact h
  · rw [Function.update_of_ne hji]
    exact .refl t a j _

theorem stepped (hg : Obeying seller (fun _ _ => True) g t) (a : Act) :
    Stepped (service cfg) seller (fun _ _ => True) g t a :=
  have hbody : ∀ c, ((service cfg).body c).Obeys seller seller.init fun _ _ => True :=
    body_obeys (body_sells cfg)
  hg.step (answered (selling_answers cfg) (selling_answered cfg)) hbody a

/-- Every step. -/
theorem Ledger.step (hg : Obeying seller (fun _ _ => True) g t) (h : Ledger register g t) (a : Act) :
    ∃ g' register', Obeying seller (fun _ _ => True) g' ((service cfg).step t a) ∧
      Ledger register' g' ((service cfg).step t a) ∧ ∀ i, Recalls t a i (g i) (g' i) := by
  cases @stepped cfg _ _ hg a with
  | rests idle world sessions obeying =>
    refine ⟨g, register, obeying, ⟨?_, ?_, fun i u hu => ?_, fun i u hu => ?_⟩, fun i => .refl t a i _⟩
    · rw [world]
      exact h.rows
    · rw [world]
      exact h.sold
    · rcases sessions i u hu with hu | ⟨hi, hloc⟩
      · exact h.inTx i u hu
      · rw [hg.later i (Nat.le_of_eq hi), hloc]
        rfl
    · rw [world]
      rcases sessions i u hu with hu | ⟨hi, hloc⟩
      · exact h.drafts i u hu
      · rw [hloc]
        exact fun ws hws => by cases hws
  | evolves v idle step obeying =>
    refine ⟨g, register, obeying, ?_, fun i => .refl t a i _⟩
    rw [step]
    cases v <;> exact ⟨h.rows, h.sold, h.inTx, h.drafts⟩
  | fails i u m k action thread prog may idle step obeying =>
    refine ⟨_, register, obeying, ?_, Recalls.update (.untold (.inr ⟨_, rfl⟩) _)⟩
    rw [step]
    exact h.failed thread m _
  | runs i u m k action thread prog may free committed step obeying =>
    subst action
    cases m with
    | stmt st =>
      obtain ⟨register', hledger⟩ := @Ledger.stmt cfg _ _ _ _ _ h thread st may (k _)
      exact ⟨_, register', obeying, step ▸ hledger, (recalls_stmt h thread prog may).update⟩
    | commit =>
      exact ⟨_, register, obeying, step ▸ h.commit thread, Recalls.update (.untold (.inl (by simp)) _)⟩
    | begin =>
      refine ⟨_, register, obeying, ?_, Recalls.update (.untold (.inl (by simp)) _)⟩
      rw [step]
      refine h.idle rfl rfl fun ws hws => ?_
      obtain rfl := Option.some.inj hws
      exact ⟨fun _ hb => (List.not_mem_nil hb).elim, fun _ hv => (List.not_mem_nil hv).elim⟩
    | rollback =>
      refine ⟨_, register, obeying, ?_, Recalls.update (.untold (.inl (by simp)) _)⟩
      rw [step]
      exact h.idle rfl rfl fun ws hws => by cases hws

/-- A statement outside any transaction commits no usage. -/
theorem Ledger.unused (h : Ledger register g t) (hu : t.threads[i]? = some u) (htx : u.loc.tx = none)
    {st : Stmt} (hmay : seller.may (g i) (.stmt st)) {ws : List Write}
    (hdone : ((engine cfg).exec u.loc t.world (.stmt st)).done = some ws) (v : CouponUsage) :
    .coupon (.base (.usageInsert v)) ∉ ws := by
  intro hv
  obtain ⟨_, -, hposts⟩ := @posts_of_may cfg _ _ t.world _ _ hmay (fun b hb => h.sold i b hb)
  rw [Engine.exec_auto htx] at hdone
  simp only at hdone
  split at hdone
  · cases hdone
  · obtain rfl := Option.some.inj hdone
    have hopen := (hposts.used v hv).1
    rw [h.inTx i u hu, htx] at hopen
    cases hopen

/-- A commit with a usage is the end of a transaction, which has held its writes back. -/
theorem Ledger.drafted (hg : Obeying seller (fun _ _ => True) g t) (h : Ledger register g t)
    {cm : Commit Call Write World} (hcm : (service cfg).committed t a = some cm) {v : CouponUsage}
    (hv : .coupon (.base (.usageInsert v)) ∈ cm.writes) :
    Drafted register t.world.out.uuid (g cm.session.id) t.world.db cm.writes ∧
      ((service cfg).step t a).world.db = cm.writes.foldl apply t.world.db := by
  cases @stepped cfg _ _ hg a with
  | rests idle => rw [idle] at hcm; cases hcm
  | evolves _ idle => rw [idle] at hcm; cases hcm
  | fails _ _ _ _ _ _ _ _ idle => rw [idle] at hcm; cases hcm
  | runs i u m k action thread prog may free committed step obeying =>
    rw [committed] at hcm
    obtain ⟨ws, hdone, rfl⟩ := Option.map_eq_some_iff.mp hcm
    rw [hg.ids i u thread]
    cases m with
    | begin => cases hdone
    | rollback => cases hdone
    | stmt st =>
      cases htx : u.loc.tx with
      | none => exact (h.unused thread htx may hdone v hv).elim
      | some ws' =>
        rw [Engine.exec_tx htx] at hdone
        cases hdone
    | commit =>
      obtain rfl := Option.some.inj hdone
      refine ⟨?_, by rw [step]; rfl⟩
      cases htx : u.loc.tx with
      | none =>
        rw [htx] at hv
        exact (List.not_mem_nil hv).elim
      | some ws => exact h.drafts i u thread ws htx

/-- A usage that is committed is one of what was held back, and so is its booking, or it was
there before. -/
theorem Ledger.committed (hg : Obeying seller (fun _ _ => True) g t) (h : Ledger register g t)
    {cm : Commit Call Write World} (hcm : (service cfg).committed t a = some cm) {v : CouponUsage}
    (hv : .coupon (.base (.usageInsert v)) ∈ cm.writes) :
    (g cm.session.id).Pays register t.world.out.uuid v ∧ ∃ b,
      ((service cfg).step t a).world.db.booking? v.bookingId = some b ∧
        Registered register t.world.out.uuid b := by
  obtain ⟨hdraft, hworld⟩ := h.drafted hg hcm hv
  obtain ⟨hpays, hid⟩ := hdraft.used v hv
  rw [hworld]
  obtain ⟨b', hb', hbid⟩ := List.mem_map.mp hid
  obtain ⟨b, hb⟩ : ∃ b, (cm.writes.foldl apply t.world.db).booking? v.bookingId = some b :=
    Option.ne_none_iff_exists'.mp fun hnone => Rows.lookup_none.mp hnone b' hb' hbid
  exact ⟨hpays, b, hb, registered_foldl h.rows hdraft.booked b (Db.mem_of_booking? hb).1⟩

end

/-! ### Runs -/

/-- What session `i` knows, it has read along the run. -/
structure Recalled (cfg : Config) (s : Sys) (as : List Act) (i : ℕ) (g : Sale) : Prop where
  coupon : ∀ c, g.coupon = some c → (service cfg).Once (fun (t : Sys) a => a = .run i ∧ t.reads? i = some c) s as
  price : ∀ id price, g.price = some (id, some price) → (service cfg).Once (fun (t : Sys) _ =>
    t.Running i ∧ ∃ turf ∈ t.world.db.turf? id, turf.pricePerHour = price) s as

section

variable {cfg : Config} {s : Sys} {as : List Act} {a : Act} {i : ℕ} {g g' : Sale}

theorem Recalled.step (h : Recalled cfg s as i g) (hr : Recalls ((service cfg).run s as) a i g g') :
    Recalled cfg s (as ++ [a]) i g' where
  coupon c hc := by
    rcases hr.coupon c hc with hc | hread
    · exact (h.coupon c hc).append [a]
    · exact Service.once_snoc hread
  price id price hprice := by
    rcases hr.price id price hprice with hprice | hread
    · exact (h.price id price hprice).append [a]
    · exact Service.once_snoc hread

theorem ledger_run (hs : s.Fresh) (as : List Act) : ∃ g register,
    Obeying seller (fun _ _ => True) g ((service cfg).run s as) ∧
      Ledger register g ((service cfg).run s as) ∧ ∀ i, Recalled cfg s as i (g i) := by
  induction as using List.reverseRecOn with
  | nil =>
    refine ⟨fun _ => seller.init, fun _ => (0, 0), .nil hs.threads, ⟨fun b hb => ?_, fun i b hb => ?_,
      fun i u hu => ?_, fun i u hu => ?_⟩, fun i => ⟨fun c hc => ?_, fun id price hprice => ?_⟩⟩
    · rw [Service.run_nil, hs.db.bookings] at hb
      exact (List.not_mem_nil hb).elim
    · cases hb
    · rw [Service.run_nil, hs.threads] at hu
      cases hu
    · rw [Service.run_nil, hs.threads] at hu
      cases hu
    · cases hc
    · cases hprice
  | append_singleton as a ih =>
    obtain ⟨g, register, hg, h, hrecalled⟩ := ih
    obtain ⟨g', register', hg', h', hrecalls⟩ := @Ledger.step cfg _ _ _ hg h a
    rw [Service.run_append]
    exact ⟨g', register', hg', h', fun i => (hrecalled i).step (hrecalls i)⟩

/-- While call `i` runs, the turf has the price. -/
def PriceStays (cfg : Config) (s : Sys) (as : List Act) (i : ℕ) (id : TurfId) (price : ℚ) : Prop :=
  (service cfg).Always (fun (t : Sys) => t.Running i → ∀ turf ∈ t.world.db.turf? id,
    turf.pricePerHour = price) s as

instance (cfg : Config) (s : Sys) (as : List Act) (i : ℕ) (id : TurfId) (price : ℚ) :
    Decidable (PriceStays cfg s as i id price) := inferInstanceAs (Decidable (Service.Always _ _ _ _))

/-- Call `i` has read the coupon. -/
def CouponRead (cfg : Config) (s : Sys) (as : List Act) (i : ℕ) (c : Coupon) : Prop :=
  (service cfg).Once (fun (t : Sys) a => a = .run i ∧ t.reads? i = some c) s as

/-- Whenever a usage is committed, it and its booking make up the price, if the price has stayed
during the call, exactly where the discount is not half a cent above whole cents. -/
theorem price_splits_iff (hs : s.Fresh) {cm : Commit Call Write World}
    (hcm : (service cfg).committed ((service cfg).run s as) a = some cm) {u : CouponUsage}
    (hu : .coupon (.base (.usageInsert u)) ∈ cm.writes) :
    ∃ c b, CouponRead cfg s as cm.session.id c ∧ c.id = u.couponId ∧
      ((service cfg).run s (as ++ [a])).world.db.booking? u.bookingId = some b ∧
      ∀ price, PriceStays cfg s as cm.session.id b.turfId price → 0 ≤ price → InCents price →
        c.Priced → c.AtMostAll → (b.totalAmount + u.discount = price ↔ ¬ c.HalfCent price) := by
  obtain ⟨g, register, hg, h, hrecalled⟩ := @ledger_run cfg _ hs as
  obtain ⟨⟨-, turfId, paid, c, hprice, hcoupon, hid, hentry, hdiscount⟩, b, hb, hregistered⟩ :=
    h.committed hg hcm hu
  have hrow : (b.turfId, b.totalAmount) = (turfId, decimal2 (max (paid - c.discountOn paid) 0)) := by
    rw [← hregistered.entry, (Db.mem_of_booking? hb).2, hentry]
  obtain ⟨hturf, htotal⟩ := Prod.mk.inj hrow
  refine ⟨c, b, (hrecalled _).coupon c hcoupon, hid.symm, ?_, ?_⟩
  · rw [Service.run_append]
    exact hb
  intro price hstays hnonneg hcents hpriced hall
  -- the price that was read is the price of the turf during the call
  obtain ⟨t, a', hsteady, hrunning, turf, hfound, rfl⟩ :=
    Service.Always.once hstays ((hrecalled _).price turfId paid hprice)
  obtain rfl : turf.pricePerHour = price := hsteady hrunning turf (hturf ▸ hfound)
  rw [htotal, hdiscount]
  exact Coupon.stored_add_iff hpriced hall hnonneg hcents

end

/-- The price of the turf is set; then user 7 books slot 1 with the coupon of 10 per cent, up to
the commit of its usage. -/
def Arena.discounted (price : ℚ) : List Act :=
  first 0 (.updateTurf 1 { pricePerHour := some price }) 2 ++
    first 1 (.booking (.create (TurfSync.Arena.dto 1 (some "TEN")) 7 0)) 16

theorem price_splits_iff_arena :
    let t := (service (TurfSync.Arena.cfg true)).run Arena.sys (Arena.discounted 1200 ++ [.run 1])
    ∃ b, t.world.db.booking? 101 = some b ∧
      (b.totalAmount + 120 = 1200 ↔ ¬ TurfSync.Arena.coupon.HalfCent 1200) := by
  have hcommits : ((service (TurfSync.Arena.cfg true)).committed ((service (TurfSync.Arena.cfg true)).run
      Arena.sys (Arena.discounted 1200)) (.run 1)).map (fun cm => (cm.session.id, cm.writes)) =
      some (1, [.coupon (.base (.usageInsert ⟨102, 1, 7, 101, 120⟩)),
        .coupon (.base (.couponIncrement 1))]) := by decide +kernel
  obtain ⟨cm, hcm, hwrites⟩ := Option.map_eq_some_iff.mp hcommits
  obtain ⟨hid, hws⟩ := Prod.mk.inj hwrites
  obtain ⟨c, b, hread, -, hb, hsplits⟩ := price_splits_iff Arena.fresh hcm (hws ▸ List.mem_cons_self)
  have hturf : (((service (TurfSync.Arena.cfg true)).run Arena.sys
      (Arena.discounted 1200 ++ [.run 1])).world.db.booking? 101).map (·.turfId) = some 1 := by
    decide +kernel
  rw [hid] at hread hsplits
  have hreads : (service (TurfSync.Arena.cfg true)).Always (fun (t : Sys) => ∀ c ∈ t.reads? 1,
      c = TurfSync.Arena.coupon) Arena.sys (Arena.discounted 1200) := by decide +kernel
  obtain ⟨t, a, hall, -, hc⟩ := hreads.once hread
  obtain rfl := hall c hc
  rw [hb] at hturf
  have hone : b.turfId = 1 := Option.some.inj hturf
  refine ⟨b, hb, hsplits 1200 ?_ (by decide) (by decide +kernel) (by decide +kernel) (by decide)⟩
  rw [hone]
  decide +kernel

/-- Ten per cent of 1000.05 are stored as 100.01, and the rest as 900.05. -/
theorem price_splits_fails :
    let t := (service (TurfSync.Arena.cfg true)).run Arena.sys
      (Arena.discounted (100005 / 100) ++ [.run 1])
    Arena.sys.Fresh ∧ TurfSync.Arena.coupon.AtMostAll ∧ InCents (100005 / 100) ∧
      PriceStays (TurfSync.Arena.cfg true) Arena.sys (Arena.discounted (100005 / 100)) 1 1
        (100005 / 100) ∧
      ∃ u ∈ t.world.db.couponUsages, ∃ b ∈ t.world.db.booking? u.bookingId,
        u.discount = 10001 / 100 ∧ b.totalAmount = 90005 / 100 ∧
          b.totalAmount + u.discount ≠ 100005 / 100 :=
  ⟨Arena.fresh, by decide, by decide +kernel, by decide +kernel, by decide +kernel⟩

end Catalogue

end TurfSync
