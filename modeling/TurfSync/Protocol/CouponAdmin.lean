import TurfSync.Services.CouponAdmin
import TurfSync.Protocol.Commits

/-! What the calls on coupons commit. `applyCoupon` counts a use under the lock of the
coupon row, so that nobody changes the row or its usages between the check and the
commit; an admin call reads without a lock, and the database checks its write again. -/

namespace TurfSync.CouponAdmin

open Txn Journal

/-- Each coupon counts its usages, and each usage belongs to a coupon. -/
structure Counted (db : Db) : Prop where
  ids : (db.coupons.map (·.id)).Nodup
  count : ∀ c ∈ db.coupons, c.usedCount = (usesOf db c.id).length
  positive : ∀ c ∈ db.coupons, c.usageLimit ≠ some 0
  coupon : ∀ u ∈ db.couponUsages, ∃ c ∈ db.coupons, c.id = u.couponId

/-- What an admin call may write, given the id for a new coupon. -/
inductive Alters (db : Db) (id : CouponId) : Write → Prop
  | insert {row : Coupon} (hid : row.id = id) (hused : row.usedCount = 0)
      (hpos : row.usageLimit ≠ some 0) : Alters db id (.couponInsert row)
  | set {id' : CouponId} {change : CouponChange} : Alters db id (.couponSet id' change)
  | delete {id' : CouponId} (hunused : usesOf db id' = []) : Alters db id (.couponDelete id')

/-- What a call may commit. -/
inductive Commits (db : Db) : Call → List Write → Prop
  | applied {u : CouponUsage} {coupon : Coupon} {discount : Option ℚ}
      (hcoupon : db.coupon? u.couponId = some coupon) (hlimit : ¬ coupon.LimitReached)
      (huser : (db.usagesOf u.couponId u.userId).length < coupon.userUsageLimit) :
      Commits db (.applyCoupon u.couponId u.userId u.bookingId discount)
        [.base (.usageInsert u), .base (.couponIncrement u.couponId)]
  | altered {call : Call} {id : CouponId} {x : Write}
      (hcall : ∀ a b c d, call ≠ .applyCoupon a b c d) (hx : Alters db id x)
      (hfresh : ∀ c ∈ db.coupons, c.id ≠ id) : Commits db call [x]

/-- The coupon whose row or usages a write changes. -/
def Write.coupon : Write → Option CouponId
  | .base (.usageInsert u) => some u.couponId
  | .base (.couponIncrement id) => some id
  | .couponInsert row => some row.id
  | .couponSet id _ => some id
  | .couponDelete id => some id
  | _ => none

variable {cfg : Config} {db : Db}

/-! ### The plans of the admin calls -/

theorem CreateCouponDto.row_some {dto : CreateCouponDto} {id : CouponId} {row : Coupon}
    (h : dto.row id = some row) : row.id = id ∧ row.usedCount = 0 ∧ row.usageLimit ≠ some 0 := by
  simp only [CreateCouponDto.row, Option.bind_eq_bind, Option.bind_eq_some_iff,
    Option.some.injEq] at h
  obtain ⟨userUsageLimit, -, isActive, -, rfl⟩ := h
  refine ⟨rfl, rfl, fun hlimit => ?_⟩
  obtain ⟨n, -, hn⟩ := Option.map_eq_some_iff.mp hlimit
  exact n.ne_zero hn

theorem CouponChange.set_positive {change : CouponChange} {c : Coupon}
    (h : c.usageLimit ≠ some 0) : (change.set c).usageLimit ≠ some 0 := by
  intro hset
  simp only [CouponChange.set] at hset
  cases hlimit : change.usageLimit with
  | none =>
    rw [hlimit] at hset
    exact h hset
  | some limit =>
    rw [hlimit] at hset
    obtain ⟨n, -, hn⟩ := Option.map_eq_some_iff.mp hset
    exact n.ne_zero hn

/-- An admin statement fails, or makes one write under the lock of its coupon. -/
theorem Change.plan_cases (u : Change) (db : Db) (id : CouponId) :
    (∃ e ks, u.plan db id = (.error e, ks, [])) ∨
    ∃ coupon id' x, u.plan db id = (.ok coupon, [.coupon id'], [x]) ∧ x.coupon = some id' ∧
      Alters db id x := by
  cases u with
  | couponCreate dto =>
    simp only [Change.plan]
    split
    · exact .inl ⟨_, _, rfl⟩
    · rename_i row hrow
      obtain ⟨hid, hused, hpos⟩ := CreateCouponDto.row_some hrow
      split_ifs
      · exact .inl ⟨_, _, rfl⟩
      · exact .inr ⟨_, _, _, rfl, congrArg some hid, .insert hid hused hpos⟩
  | couponUpdate id' change =>
    simp only [Change.plan]
    split
    · exact .inl ⟨_, _, rfl⟩
    · split
      · exact .inl ⟨_, _, rfl⟩
      · split_ifs
        · exact .inl ⟨_, _, rfl⟩
        · exact .inr ⟨_, _, _, rfl, rfl, .set⟩
  | couponDelete id' =>
    simp only [Change.plan]
    split
    · exact .inl ⟨_, _, rfl⟩
    · split_ifs with huses
      · exact .inl ⟨_, _, rfl⟩
      · exact .inr ⟨_, _, _, rfl, rfl, .delete (not_not.mp huses)⟩

/-! ### The count -/

variable {call : Call} {ws : List Write}

theorem usesOf_use (db : Db) (u : CouponUsage) (id : CouponId) :
    usesOf ([Write.base (.usageInsert u), .base (.couponIncrement u.couponId)].foldl apply db) id =
      usesOf db id ++ if u.couponId = id then [u] else [] := by
  simp only [usesOf, List.foldl, apply, Db.apply, List.filter_append]
  congr 1
  by_cases he : u.couponId = id <;> simp [he]

/-- A usage and the increment of its coupon. -/
theorem Counted.use (h : Counted db) {u : CouponUsage}
    (hcoupon : ∃ c ∈ db.coupons, c.id = u.couponId) :
    Counted ([Write.base (.usageInsert u), .base (.couponIncrement u.couponId)].foldl apply db) where
  ids := by
    have hids : (Db.incrementCoupon u.couponId db.coupons).map (·.id) = db.coupons.map (·.id) :=
      Rows.keys_update fun _ => rfl
    exact hids ▸ h.ids
  count c hc := by
    obtain ⟨c₀, hc₀, rfl⟩ := Rows.mem_update.mp hc
    rw [usesOf_use, List.length_append]
    by_cases he : c₀.id = u.couponId
    · simp [he, h.count c₀ hc₀]
    · simp [he, Ne.symm he, h.count c₀ hc₀]
  positive c hc := by
    obtain ⟨c₀, hc₀, rfl⟩ := Rows.mem_update.mp hc
    split_ifs
    · exact h.positive c₀ hc₀
    · exact h.positive c₀ hc₀
  coupon u' hu' := by
    have hold : ∃ c ∈ db.coupons, c.id = u'.couponId := by
      rcases List.mem_append.mp hu' with hu' | hu'
      · exact h.coupon u' hu'
      · rw [List.mem_singleton.mp hu']
        exact hcoupon
    obtain ⟨c, hc, hid⟩ := hold
    refine ⟨_, Rows.mem_update.mpr ⟨c, hc, rfl⟩, ?_⟩
    split_ifs
    · exact hid
    · exact hid

theorem Counted.alter (h : Counted db) {id : CouponId} {x : Write} (hx : Alters db id x)
    (hfresh : ∀ c ∈ db.coupons, c.id ≠ id) : Counted (apply db x) := by
  cases hx with
  | @insert row hid hused hpos =>
    have hunused : usesOf db row.id = [] := List.filter_eq_nil_iff.mpr fun u hu he => by
      obtain ⟨c, hc, hcid⟩ := h.coupon u hu
      exact hfresh c hc (by rw [hcid, of_decide_eq_true he, hid])
    refine ⟨Rows.nodup_insert h.ids fun c hc he => hfresh c hc (he.trans hid), fun c hc => ?_,
      fun c hc => ?_, fun u hu => ?_⟩
    · rcases List.mem_append.mp hc with hc | hc
      · exact h.count c hc
      · rw [List.mem_singleton.mp hc, hused]
        exact (congrArg List.length hunused).symm
    · rcases List.mem_append.mp hc with hc | hc
      · exact h.positive c hc
      · rw [List.mem_singleton.mp hc]
        exact hpos
    · obtain ⟨c, hc, hid⟩ := h.coupon u hu
      exact ⟨c, List.mem_append_left _ hc, hid⟩
  | @set id' change =>
    have hids : (Rows.update (·.id) [id'] change.set db.coupons).map (·.id) =
        db.coupons.map (·.id) := Rows.keys_update fun _ => rfl
    refine ⟨hids ▸ h.ids, fun c hc => ?_, fun c hc => ?_, fun u hu => ?_⟩
    · obtain ⟨c₀, hc₀, rfl⟩ := Rows.mem_update.mp hc
      split_ifs
      · exact h.count c₀ hc₀
      · exact h.count c₀ hc₀
    · obtain ⟨c₀, hc₀, rfl⟩ := Rows.mem_update.mp hc
      split_ifs
      · exact CouponChange.set_positive (h.positive c₀ hc₀)
      · exact h.positive c₀ hc₀
    · obtain ⟨c, hc, hid⟩ := h.coupon u hu
      refine ⟨_, Rows.mem_update.mpr ⟨c, hc, rfl⟩, ?_⟩
      split_ifs
      · exact hid
      · exact hid
  | @delete id' hunused =>
    refine ⟨h.ids.sublist (List.filter_sublist.map _), fun c hc => ?_, fun c hc => ?_,
      fun u hu => ?_⟩
    · exact h.count c (List.mem_filter.mp hc).1
    · exact h.positive c (List.mem_filter.mp hc).1
    · obtain ⟨c, hc, hid⟩ := h.coupon u hu
      refine ⟨c, List.mem_filter.mpr ⟨hc, ?_⟩, hid⟩
      have hne : c.id ≠ id' := by
        rintro rfl
        exact List.filter_eq_nil_iff.mp hunused u hu (by simp [hid])
      simpa using hne

/-- Every commit keeps the counts. -/
theorem Commits.counted (hc : Commits db call ws) (h : Counted db) :
    Counted (ws.foldl apply db) := by
  cases hc with
  | applied hcoupon => exact h.use ⟨_, Db.mem_of_coupon? hcoupon⟩
  | altered _ hx hfresh => exact h.alter hx hfresh

/-! ### What others leave alone -/

/-- A write to another coupon. -/
theorem apply_untouched {x : Write} {id : CouponId} (h : x.coupon ≠ some id) :
    (apply db x).coupon? id = db.coupon? id ∧ usesOf (apply db x) id = usesOf db id := by
  cases x with
  | base x =>
    cases x with
    | usageInsert u =>
      have hne : u.couponId ≠ id := fun he => h (congrArg some he)
      exact ⟨rfl, by simp [usesOf, apply, Db.apply, List.filter_append, hne]⟩
    | couponIncrement id' =>
      have hne : id ∉ [id'] := fun he => h (congrArg some (List.mem_singleton.mp he).symm)
      refine ⟨?_, rfl⟩
      rw [Db.coupon?_increment (show (apply db (.base (.couponIncrement id'))).coupons = _ from rfl),
        if_neg hne]
    | _ => exact ⟨rfl, rfl⟩
  | couponInsert row =>
    have hne : row.id ≠ id := fun he => h (congrArg some he)
    refine ⟨?_, rfl⟩
    show Rows.lookup (·.id) id (db.coupons ++ [row]) = _
    rw [Rows.lookup_append, if_neg hne, Option.or_none]
    rfl
  | couponSet id' change =>
    have hne : id ∉ [id'] := fun he => h (congrArg some (List.mem_singleton.mp he).symm)
    refine ⟨?_, rfl⟩
    show Rows.lookup (·.id) id (Rows.update (·.id) [id'] change.set db.coupons) = _
    rw [Rows.lookup_update (f := change.set) fun _ => rfl, if_neg hne]
    rfl
  | couponDelete id' =>
    have hne : id ≠ id' := fun he => h (congrArg some he.symm)
    refine ⟨?_, rfl⟩
    show (db.coupons.filter (·.id ≠ id')).find? (·.id = id) = _
    rw [List.find?_filter]
    refine congrArg (db.coupons.find? ·) (funext fun c => ?_)
    by_cases he : c.id = id
    · simp [he, hne]
    · simp [he]

theorem foldl_untouched {ws : List Write} {id : CouponId} (h : ∀ x ∈ ws, x.coupon ≠ some id) :
    (ws.foldl apply db).coupon? id = db.coupon? id ∧
      usesOf (ws.foldl apply db) id = usesOf db id := by
  induction ws generalizing db with
  | nil => exact ⟨rfl, rfl⟩
  | cons x ws ih =>
    obtain ⟨hcoupon, huses⟩ := @ih (apply db x) fun y hy => h y (List.mem_cons_of_mem _ hy)
    obtain ⟨hcoupon', huses'⟩ := @apply_untouched db x id (h x (by simp))
    exact ⟨hcoupon.trans hcoupon', huses.trans huses'⟩

/-- A commit brings no coupon but the one it inserts. -/
theorem Commits.coupon_id (h : Commits db call ws) {c : Coupon}
    (hc : c ∈ (ws.foldl apply db).coupons) :
    (∃ c₀ ∈ db.coupons, c₀.id = c.id) ∨ .couponInsert c ∈ ws := by
  cases h with
  | applied =>
    obtain ⟨c₀, hc₀, rfl⟩ := Rows.mem_update.mp hc
    refine .inl ⟨c₀, hc₀, ?_⟩
    split_ifs <;> rfl
  | altered _ hx =>
    cases hx with
    | insert =>
      rcases List.mem_append.mp hc with hc | hc
      · exact .inl ⟨c, hc, rfl⟩
      · rw [List.mem_singleton.mp hc]
        exact .inr (by simp)
    | set =>
      obtain ⟨c₀, hc₀, rfl⟩ := Rows.mem_update.mp hc
      refine .inl ⟨c₀, hc₀, ?_⟩
      split_ifs <;> rfl
    | delete => exact .inl ⟨c, (List.mem_filter.mp hc).1, rfl⟩

structure World.Coherent (w : World) : Prop where
  counted : Counted w.db
  drawn : ∀ c ∈ w.db.coupons, c.id < w.out.uuid

/-- What a session relies on: nobody writes its entries, or touches a coupon it has
locked. -/
structure World.Rely (n : ℕ) (ks : List Key) (w w' : World) : Prop where
  entries : own n w'.history = own n w.history
  coupon : ∀ id, .coupon id ∈ ks → w'.db.coupon? id = w.db.coupon? id
  usages : ∀ id, .coupon id ∈ ks → usesOf w'.db id = usesOf w.db id

def rules : Rules Stmt Key Write World Call where
  inv := World.Coherent
  rely := World.Rely
  start n w := own n w.history = []
  allow _ _ _ _ _ := True
  post c held ws w := Commits w.db c.call ws ∧ (∀ x ∈ ws, ∀ id ∈ x.coupon, .coupon id ∈ held) ∧
    ∀ row, .couponInsert row ∈ ws → row.id < w.out.uuid

theorem World.Rely.refl (n : ℕ) (ks : List Key) (w : World) : w.Rely n ks w :=
  ⟨rfl, fun _ _ => rfl, fun _ _ => rfl⟩

theorem World.Rely.trans {n : ℕ} {ks : List Key} {w w' w'' : World} (h : w.Rely n ks w')
    (h' : w'.Rely n ks w'') : w.Rely n ks w'' :=
  ⟨h'.entries.trans h.entries, fun id hk => (h'.coupon id hk).trans (h.coupon id hk),
    fun id hk => (h'.usages id hk).trans (h.usages id hk)⟩

theorem World.Rely.weaken {n : ℕ} {ks ks' : List Key} {w w' : World} (h : w.Rely n ks w')
    (hk : ∀ k ∈ ks', k ∈ ks) : w.Rely n ks' w' :=
  ⟨h.entries, fun id hid => h.coupon id (hk _ hid), fun id hid => h.usages id (hk _ hid)⟩

theorem World.Rely.ofOut {n : ℕ} {ks : List Key} {w w' : World} {o : Outside}
    (h : World.Rely n ks { w with out := o } w') : w.Rely n ks w' :=
  ⟨h.entries, h.coupon, h.usages⟩

theorem act_uuid (s : Stmt) (v w : World) : w.out.uuid ≤ ((engine cfg).act s v w).world.out.uuid := by
  rcases s with (q | l | u | x) | (q | u)
  · exact Nat.le_refl _
  · exact Nat.le_refl _
  · exact Nat.le_add_right _ _
  · exact x.uuid_le w.out
  · exact Nat.le_refl _
  · exact Nat.le_succ _

theorem act_rest (s : Stmt) (v w : World) : ((engine cfg).act s v w).world.db = w.db ∧
    ((engine cfg).act s v w).world.history = w.history := by
  rcases s with s | (q | u) <;> exact ⟨rfl, rfl⟩

theorem lawful : rules.Lawful (engine cfg) where
  refl := World.Rely.refl
  trans := World.Rely.trans
  start hs hr := hr.entries.trans hs
  act_inv s v w hw := by
    obtain ⟨hdb, -⟩ := @act_rest cfg s v w
    refine ⟨hdb ▸ hw.counted, fun c hc => ?_⟩
    rw [hdb] at hc
    exact Nat.lt_of_lt_of_le (hw.drawn c hc) (act_uuid s v w)
  act_rely s v w n ks _ := by
    obtain ⟨hdb, hhistory⟩ := @act_rest cfg s v w
    exact ⟨by rw [hhistory], fun _ _ => by rw [hdb], fun _ _ => by rw [hdb]⟩
  commit_inv := by
    rintro c held ws w hw ⟨hc, -, hdrawn⟩
    refine ⟨hc.counted hw.counted, fun coupon hmem => ?_⟩
    rcases hc.coupon_id hmem with ⟨c₀, hc₀, hid⟩ | hins
    · exact hid ▸ hw.drawn c₀ hc₀
    · exact hdrawn coupon hins
  commit_rely := by
    rintro c held ws w n ks _ ⟨-, hkeys, -⟩ hn hks
    have huntouched : ∀ id, .coupon id ∈ ks → ∀ x ∈ ws, x.coupon ≠ some id := fun id hk x hx he =>
      hks _ hk (hkeys x hx id he)
    exact ⟨own_other (by simpa using Ne.symm hn) _,
      fun id hk => (foldl_untouched (huntouched id hk)).1,
      fun id hk => (foldl_untouched (huntouched id hk)).2⟩

/-! ### The programs -/

/-- A call that returns has committed, and one that throws has not. -/
def Settled (c : Session Call) : Post Err Key Write World Reply
  | .ok _, _, w => own c.id w.history ≠ []
  | .error _, _, w => own c.id w.history = []

variable {c : Session Call} {w : World} {l : Local Key Write}

theorem throw_wp (h : own c.id w.history = []) (e : Err) :
    wp (engine cfg) rules c (.throw e) (Settled c) l w := fun _ hr _ => hr.entries.trans h

theorem ret_wp (h : own c.id w.history ≠ []) (a : Reply) :
    wp (engine cfg) rules c (.ret a) (Settled c) l w := fun _ hr _ => by
  show own c.id _ ≠ []
  rw [hr.entries]
  exact h

theorem own_commit {ws : List Write} : own c.id ((engine cfg).commit c ws w).history ≠ [] := by
  show own c.id (w.history ++ [⟨c, ws, w.db⟩]) ≠ []
  rw [own_self ⟨c, ws, w.db⟩]
  simp

theorem find_wp {q : Find} {f : q.Reply → Op Reply} (hown : own c.id w.history = [])
    (h : ∀ w', own c.id w'.history = [] →
      wp (engine cfg) rules c (f (q.eval w'.db)) (Settled c) .idle w') :
    wp (engine cfg) rules c ((find q).bind f) (Settled c) .idle w :=
  wp_stmt_read (fun _ _ => rfl) (fun w' hr _ _ => h w' (hr.entries.trans hown))
    fun _ hr _ _ => throw_wp (hr.entries.trans hown) _

@[simp] theorem act_change (u : Change) (v w : World) :
    (engine cfg).act (.inr (.change u)) v w =
      ⟨(u.plan v.db w.out.uuid).1, (u.plan v.db w.out.uuid).2.1, (u.plan v.db w.out.uuid).2.2,
        { w with out := { w.out with uuid := w.out.uuid + 1 } }⟩ := rfl

/-- An admin call ends with its one write. -/
theorem change_wp {u : Change} (hcall : ∀ a b c' d, c.call ≠ .applyCoupon a b c' d)
    (hown : own c.id w.history = []) :
    wp (engine cfg) rules c ((change u).bind fun coupon => .ret (.coupon coupon)) (Settled c)
      .idle w := by
  refine wp_stmt_auto (fun w' hr hi _ => ?_) fun _ hr _ _ => throw_wp (hr.entries.trans hown) _
  have hown' : own c.id w'.history = [] := hr.entries.trans hown
  rcases u.plan_cases w'.db w'.out.uuid with ⟨e, ks, hplan⟩ | ⟨coupon, id, x, hplan, hid, hx⟩
  · simp only [act_change, hplan]
    refine ⟨fun _ => ?_, fun hne => absurd rfl hne⟩
    apply throw_wp
    exact hown'
  · simp only [act_change, hplan]
    refine ⟨fun hnil => (List.cons_ne_nil _ _ hnil).elim, fun _ => ⟨⟨?_, ?_, ?_⟩, ?_⟩⟩
    · exact .altered hcall hx fun coupon' hmem => Nat.ne_of_lt (hi.drawn coupon' hmem)
    · intro y hy id' hid'
      rw [List.mem_singleton.mp hy, hid] at hid'
      rw [Option.some.inj hid']
      exact List.mem_singleton.mpr rfl
    · intro row hrow
      rw [← List.mem_singleton.mp hrow] at hx
      cases hx with
      | insert hid => exact hid ▸ Nat.lt_succ_self _
    · exact ret_wp own_commit _

/-! ### The transaction of `applyCoupon` -/

theorem plan_couponUsageCreate (cfg : Config) (db : Db) (uuid : ℕ) (now : Time)
    (couponId : CouponId) (userId : UserId) (bookingId : BookingId) (discount : Option ℚ) :
    (∃ e ks, (Update.couponUsageCreate couponId userId bookingId discount).plan cfg db uuid now =
      .fail e ks) ∨
    ∃ u ks, u.couponId = couponId ∧ u.userId = userId ∧ u.bookingId = bookingId ∧
      (Update.couponUsageCreate couponId userId bookingId discount).plan cfg db uuid now =
        ⟨.ok (), ks, [.usageInsert u], 1⟩ := by
  simp only [Update.plan]
  split
  · exact .inl ⟨_, _, rfl⟩
  · split_ifs
    · exact .inl ⟨_, _, rfl⟩
    · exact .inl ⟨_, _, rfl⟩
    · exact .inr ⟨⟨_, _, _, _, _⟩, _, rfl, rfl, rfl, rfl⟩

theorem plan_couponIncrement (cfg : Config) (db : Db) (uuid : ℕ) (now : Time) (id : CouponId) :
    (Update.couponIncrement id).plan cfg db uuid now = .fail .P2025 [] ∨
    (Update.couponIncrement id).plan cfg db uuid now =
      ⟨.ok (), [.coupon id], [.couponIncrement id], 0⟩ := by
  simp only [Update.plan]
  split
  · exact .inr rfl
  · exact .inl rfl

/-- What is left after the transaction: nothing but the reply. -/
def Applied (cfg : Config) (c : Session Call) : Post Err Key Write World Unit
  | .ok _, l, w => wp (engine cfg) rules c (.ret .done) (Settled c) l w
  | .error e, l, w => Settled c (.error e) l w

variable {ks : List Key}

theorem throw_applied (h : own c.id w.history = []) (e : Err) :
    wp (engine cfg) rules c (.throw e) (Applied cfg c) l w := fun _ hr _ => hr.entries.trans h

theorem throw_tx (h : own c.id w.history = []) (e : Err) :
    wp (engine cfg) rules c (.throw e) (TxPost (engine cfg) rules c (Applied cfg c)) l w :=
  fun _ hr _ _ hr' _ => (hr'.entries.trans hr.entries).trans h

theorem view_db (cfg : Config) (ws : List Write) (w : World) :
    (engine cfg).view ws w = { w with db := ws.foldl apply w.db } := by
  induction ws generalizing w with
  | nil => rfl
  | cons x ws ih => exact ih _

/-- A statement of the transaction. -/
theorem base_tx {s : TurfSync.Stmt} {f : s.Reply → Op Unit} (hown : own c.id w.history = [])
    (h : ∀ w', w.Rely c.id ks w' → own c.id w'.history = [] → ∀ e,
      s.act cfg ⟨ws.foldl apply w'.db, w'.out, []⟩ ⟨w'.db, w'.out, []⟩ = e →
      ∀ a, e.reply = .ok a →
      wp (engine cfg) rules c (f a) (TxPost (engine cfg) rules c (Applied cfg c))
        ⟨some (ws ++ e.writes.map .base), e.locks ++ ks⟩ { w' with out := e.world.out }) :
    wp (engine cfg) rules c
      ((Script.perform (S := Stmt) (R := Stmt.Reply) (.inl s)).bind f)
      (TxPost (engine cfg) rules c (Applied cfg c)) ⟨some ws, ks⟩ w := by
  refine wp_stmt_tx (fun w' hr _ _ => ?_) fun w' hr _ _ => throw_tx (hr.entries.trans hown) _
  have hown' : own c.id w'.history = [] := hr.entries.trans hown
  have hw := h w' hr hown' _ rfl
  rw [view_db]
  show wp _ _ _ (resume (s.act cfg ⟨ws.foldl apply w'.db, w'.out, []⟩
    ⟨w'.db, w'.out, []⟩).reply f) _ _ _
  cases hreply : (s.act cfg ⟨ws.foldl apply w'.db, w'.out, []⟩ ⟨w'.db, w'.out, []⟩).reply with
  | ok a => exact hw a hreply
  | error e =>
    apply throw_tx
    exact hown'

/-- The usages of one user among those of a coupon. -/
theorem usagesOf_eq (db : Db) (couponId : CouponId) (userId : UserId) :
    db.usagesOf couponId userId = (usesOf db couponId).filter (·.userId = userId) := by
  unfold usesOf Db.usagesOf
  rw [List.filter_filter]
  congr 1
  funext u
  simp [Bool.and_comm]

/-- Both writes of a use are to its coupon. -/
theorem usage_coupon {u : CouponUsage} {id : CouponId} (hu : u.couponId = id) {x : Write}
    (hx : x ∈ [Write.base (.usageInsert u), .base (.couponIncrement id)]) : x.coupon = some id := by
  rcases List.mem_cons.mp hx with rfl | hx
  · exact congrArg some hu
  · rw [List.mem_singleton.mp hx]
    rfl

theorem applyCoupon_wp {couponId : CouponId} {userId : UserId} {bookingId : BookingId}
    {discount : Option ℚ} (call : c.call = .applyCoupon couponId userId bookingId discount)
    (hown : own c.id w.history = []) :
    wp (engine cfg) rules c ((Call.applyCoupon couponId userId bookingId discount).body cfg)
      (Settled c) .idle w := by
  rw [Call.body, TurfSync.CouponService.applyCoupon, Script.embed_transaction]
  refine wp_bind lawful (wp_transaction (fun w₀ h₀ _ => ?_) fun _ hr _ _ _ hr' _ =>
    (hr'.entries.trans hr.entries).trans hown)
  rw [TurfSync.CouponService.applyCouponTx, Prog.bind_eq, lockRow, Script.embed_perform_bind]
  refine base_tx (h₀.entries.trans hown) fun w₁ _ hown₁ e he a ha => ?_
  subst he
  obtain rfl := Except.ok.inj ha
  simp only [TurfSync.Stmt.act, RowLock.eval, List.foldl_nil]
  cases hcoupon : w₁.db.coupon? couponId with
  | none => exact throw_tx hown₁ _
  | some coupon =>
    simp only [List.map_nil, List.append_nil]
    split_ifs with hactive hlimit
    · exact throw_tx hown₁ _
    · exact throw_tx hown₁ _
    -- from here on the row is locked
    rw [Prog.bind_eq, query, Script.embed_perform_bind]
    refine base_tx hown₁ fun w₂ h₂ hown₂ e he count ha => ?_
    subst he
    have hcount : (w₂.db.usagesOf couponId userId).length = count := Except.ok.inj ha
    simp only [TurfSync.Stmt.act, List.map_nil, List.append_nil, List.nil_append]
    split_ifs with huser
    · exact throw_tx hown₂ _
    rw [Prog.bind_eq, update, Script.embed_perform_bind]
    refine base_tx hown₂ fun w₃ h₃ hown₃ e he a ha => ?_
    rcases plan_couponUsageCreate cfg w₃.db w₃.out.uuid w₃.out.now couponId userId bookingId
      discount with ⟨err, ks, hplan⟩ | ⟨u, ks, hcid, huid, hbid, hplan⟩
    · simp only [TurfSync.Stmt.act, List.foldl_nil, hplan] at he
      rw [← he] at ha
      cases ha
    simp only [TurfSync.Stmt.act, List.foldl_nil, hplan] at he
    subst he
    simp only [List.map_cons, List.map_nil, List.nil_append]
    rw [← Prog.bind_ret (update (.couponIncrement couponId)), update, Script.embed_perform_bind]
    refine base_tx ?_ fun w₄ h₄ hown₄ e he a ha => ?_
    · exact hown₃
    rcases plan_couponIncrement cfg (apply w₄.db (.base (.usageInsert u))) w₄.out.uuid w₄.out.now
      couponId with hplan | hplan
    · simp only [TurfSync.Stmt.act, List.foldl_cons, List.foldl_nil, hplan] at he
      rw [← he] at ha
      cases ha
    simp only [TurfSync.Stmt.act, List.foldl_cons, List.foldl_nil, hplan] at he
    subst he
    simp only [List.map_cons, List.map_nil, Script.embed_ret, List.cons_append, List.nil_append]
    -- the commit
    intro w₅ h₅ hi₅
    have hkeep : World.Rely c.id [.coupon couponId] w₂ w₅ :=
      h₃.trans ((h₄.ofOut.weaken (by simp)).trans (h₅.weaken (by simp)))
    have hown₅ : own c.id w₅.history = [] := h₅.entries.trans hown₄
    refine ⟨fun _ => ⟨⟨?_, ?_, by simp⟩, fun w₆ h₆ _ => ?_⟩, fun _ => throw_applied hown₅ _⟩
    · subst hcid huid hbid
      rw [call]
      refine .applied ?_ hlimit ?_
      · exact (hkeep.coupon _ (by simp)).trans ((h₂.coupon _ (by simp)).trans hcoupon)
      · rw [usagesOf_eq, hkeep.usages _ (by simp), ← usagesOf_eq, hcount]
        exact Nat.lt_of_not_le huser
    · intro x hx id hid
      rw [usage_coupon hcid hx] at hid
      simp [Option.some.inj hid]
    · show wp (engine cfg) rules c (.ret .done) (Settled c) _ w₆
      refine ret_wp ?_ _
      rw [h₆.entries]
      exact own_commit

/-! ### Every call -/

theorem body_wp (hown : own c.id w.history = []) :
    wp (engine cfg) rules c (c.call.body cfg) (Settled c) .idle w := by
  cases hcall : c.call with
  | applyCoupon couponId userId bookingId discount => exact applyCoupon_wp hcall hown
  | create dto =>
    refine find_wp hown fun w' hown' => ?_
    split_ifs
    · exact throw_wp hown' _
    · exact change_wp (by simp [hcall]) hown'
  | update id dto =>
    have hsave : ∀ (w' : World) dto', own c.id w'.history = [] →
        wp (engine cfg) rules c (CouponService.save id dto') (Settled c) .idle w' :=
      fun _ _ hown' => change_wp (by simp [hcall]) hown'
    refine find_wp hown fun w' hown' => ?_
    cases Find.eval w'.db (.byId id) with
    | none => exact throw_wp hown' _
    | some coupon =>
      cases hcode : dto.code with
      | value code =>
        simp only
        split_ifs
        · exact hsave w' _ hown'
        · refine find_wp hown' fun w'' hown'' => ?_
          split_ifs
          · exact throw_wp hown'' _
          · exact hsave w'' _ hown''
      | absent => exact hsave w' _ hown'
      | null => exact hsave w' _ hown'
  | toggleActive id =>
    refine find_wp hown fun w' hown' => ?_
    cases Find.eval w'.db (.byId id) with
    | none => exact throw_wp hown' _
    | some coupon => exact change_wp (by simp [hcall]) hown'
  | delete id =>
    refine find_wp hown fun w' hown' => ?_
    cases Find.eval w'.db (.withCount id) with
    | none => exact throw_wp hown' _
    | some found =>
      obtain ⟨coupon, couponUsages⟩ := found
      simp only
      split_ifs
      · exact throw_wp hown' _
      · exact change_wp (by simp [hcall]) hown'

theorem starts : Starts (service cfg) rules Settled where
  evolve_inv v w hw := ⟨hw.counted, by cases v <;> exact hw.drawn⟩
  evolve_rely _ _ _ _ _ := ⟨rfl, fun _ _ => rfl, fun _ _ => rfl⟩
  body _ _ _ _ hs _ := body_wp hs

end TurfSync.CouponAdmin
