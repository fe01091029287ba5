import TurfSync.Guarantees.Slots
import TurfSync.Protocol.Footprints
import TurfSync.Txn.Track
import TurfSync.Txn.Waits

/-! The Redis lock around a booking excludes. Each call carries the slot lock it has
acquired and not given back; the row of a slot is locked for a booking, and the booking
inserted, by the call that holds the slot's lock. As long as the key of the slot does not
expire, one call holds it at a time, and a key that is set belongs to a call that still
runs, unless a release was lost. -/

namespace TurfSync

open Txn

/-- The slot whose booking the statement is part of. -/
def Stmt.books : Stmt → Option SlotId
  | .lock (.slotWithTurf slotId _) => some slotId
  | .update (.bookingCreate d) => some d.slotId
  | _ => none

/-- The slot lock that a call holds. -/
def holding : Automaton Stmt Stmt.Reply Err (Option (SlotId × ℕ)) where
  init := none
  may g
    | .stmt (.external (.acquireLock _)) => g = none
    | .stmt (.external (.releaseLock slotId value)) => g = some (slotId, value)
    | .stmt s => ∀ slotId ∈ s.books, ∃ value, g = some (slotId, value)
    | _ => True
  answers _ _ := True
  next g
    | .stmt (.external (.acquireLock slotId)), .ok (some value) => some (slotId, value)
    -- a release that fails is not tried again
    | .stmt (.external (.releaseLock _ _)), _ => none
    | _, _ => g

/-- No call ends with a lock. -/
def GivenBack (g : Option (SlotId × ℕ)) (_ : Except Err Reply) : Prop := g = none

theorem holding_answered (cfg : Config) : holding.Answered (engine cfg) :=
  ⟨fun _ _ _ => trivial, fun _ => trivial⟩

/-! ### The calls -/

/-- Neither takes nor gives back a lock, and books this slot only. -/
def Stmt.inside (slotId : SlotId) : Stmt → Bool
  | .external (.acquireLock _) => false
  | .external (.releaseLock _ _) => false
  | s => s.books.all (· = slotId)

/-- Neither takes nor gives back a lock, and books no slot. -/
def Stmt.outside : Stmt → Bool
  | .external (.acquireLock _) => false
  | .external (.releaseLock _ _) => false
  | s => s.books.isNone

theorem holding_next {s : Stmt} (hacquire : ∀ id, s ≠ .external (.acquireLock id))
    (hrelease : ∀ id value, s ≠ .external (.releaseLock id value)) (g : Option (SlotId × ℕ))
    (r : Except Err s.Reply) : holding.next g (.stmt s) r = g := by
  cases s with
  | external x =>
    cases x with
    | acquireLock id => exact absurd rfl (hacquire id)
    | releaseLock id value => exact absurd rfl (hrelease id value)
    | _ => rfl
  | _ => rfl

theorem holding_may {s : Stmt} (hacquire : ∀ id, s ≠ .external (.acquireLock id))
    (hrelease : ∀ id value, s ≠ .external (.releaseLock id value)) {g : Option (SlotId × ℕ)}
    (h : ∀ slotId ∈ s.books, ∃ value, g = some (slotId, value)) : holding.may g (.stmt s) := by
  cases s with
  | external x =>
    cases x with
    | acquireLock id => exact absurd rfl (hacquire id)
    | releaseLock id value => exact absurd rfl (hrelease id value)
    | _ => exact h
  | _ => exact h

section

variable {α : Type} {g : Option (SlotId × ℕ)} {p : Op α}

/-- A program keeps the lock it found, if its statements leave the locks alone. -/
theorem obeys_holding {φ : Stmt → Bool} (hacquire : ∀ id, φ (.external (.acquireLock id)) = false)
    (hrelease : ∀ id value, φ (.external (.releaseLock id value)) = false)
    (hbooks : ∀ s, φ s = true → ∀ slotId ∈ s.books, ∃ value, g = some (slotId, value))
    (h : Stays φ p) : p.Obeys holding g fun g' _ => g' = g := by
  refine Script.obeys_mono (Script.obeys_of_uses (J := fun g' => g' = g) ?_ h rfl) fun _ _ h => h.1
  rintro _ m hm rfl
  cases m with
  | stmt s =>
    have ha : ∀ id, s ≠ .external (.acquireLock id) := by
      rintro id rfl
      exact absurd hm (by simp [Within, hacquire])
    have hr : ∀ id value, s ≠ .external (.releaseLock id value) := by
      rintro id value rfl
      exact absurd hm (by simp [Within, hrelease])
    exact ⟨holding_may ha hr (hbooks s hm), holding_next ha hr _⟩
  | _ => exact ⟨trivial, fun _ => rfl⟩

theorem obeys_outside (h : Stays Stmt.outside p) : p.Obeys holding g fun g' _ => g' = g := by
  refine obeys_holding (fun _ => rfl) (fun _ _ => rfl) (fun s hs slotId hslot => ?_) h
  cases s with
  | external x => cases hslot
  | _ => simp_all [Stmt.outside]

theorem obeys_inside {slotId : SlotId} {value : ℕ} (h : Stays (Stmt.inside slotId) p) :
    p.Obeys holding (some (slotId, value)) fun g' _ => g' = some (slotId, value) := by
  refine obeys_holding (fun _ => rfl) (fun _ _ => rfl) (fun s hs slotId hslot => ?_) h
  cases s with
  | external x => cases hslot
  | _ => simp_all [Stmt.inside]

end

namespace BookingService

theorem createTx_inside (dto : CreateBookingDto) (userId : UserId) (coupon : Option ValidatedCoupon) :
    Stays (Stmt.inside dto.slotId) (createTx dto userId coupon) := by
  refine stays_bind (stays_lockRow (by simp [Stmt.inside, Stmt.books])) fun row => ?_
  cases row with
  | none => trivial
  | some row =>
    obtain ⟨slot, turf⟩ := row
    simp only
    split_ifs
    · trivial
    · trivial
    refine stays_bind (stays_query rfl) fun existingBooking => ?_
    cases existingBooking with
    | some _ => trivial
    | none =>
      refine stays_bind (stays_update rfl) fun _ => stays_bind (stays_update ?_) fun _ => trivial
      simp [Stmt.inside, Stmt.books]

theorem createLocked_inside (dto : CreateBookingDto) (userId : UserId)
    (coupon : Option ValidatedCoupon) :
    Stays (Stmt.inside dto.slotId) (createLocked dto userId coupon) := by
  refine stays_bind (stays_transaction (createTx_inside dto userId coupon)) fun row => ?_
  refine stays_bind (stays_quietly (stays_external rfl)) fun _ => ?_
  have hqueue : ∀ job reply, Stays (Stmt.inside dto.slotId)
      ((quietly (external (.queueAdd job))).bind fun _ => .ret reply : Op Reply) :=
    fun job reply => stays_bind (stays_quietly (stays_external rfl)) fun _ => trivial
  cases coupon with
  | none => exact hqueue _ _
  | some quote =>
    refine stays_bind (stays_transaction (stays_bind (stays_lockRow rfl) fun row => ?_))
      fun _ => hqueue _ _
    cases row with
    | none => trivial
    | some coupon =>
      simp only
      split_ifs
      · trivial
      · trivial
      refine stays_bind (stays_query rfl) fun userUsageCount => ?_
      split_ifs
      · trivial
      · exact stays_bind (stays_update rfl) fun _ => stays_update rfl

theorem create_holds (cfg : Config) (dto : CreateBookingDto) (userId : UserId) (now : Time) :
    (create cfg dto userId now).Obeys holding none GivenBack := by
  unfold create
  simp only
  split_ifs
  · rfl
  · rfl
  refine Script.obeys_bind (Script.obeys_mono (obeys_outside
    (couponData_stays (fun _ => rfl) (fun _ _ => rfl) rfl cfg dto userId)) fun g r hg => ?_)
  subst hg
  cases r with
  | error e => rfl
  | ok coupon =>
    refine Script.obeys_stmt rfl (fun lockValue _ => ?_) fun _ => rfl
    cases lockValue with
    | none => rfl
    | some value =>
      refine Script.obeys_tryFinally (Script.obeys_mono
        (obeys_inside (createLocked_inside dto userId coupon)) fun g r hg => ?_)
      subst hg
      cases r with
      | ok a => exact Script.obeys_bind (Script.obeys_stmt rfl (fun _ _ => rfl) fun _ => rfl)
      | error e => exact Script.obeys_bind (Script.obeys_stmt rfl (fun _ _ => rfl) fun _ => rfl)

end BookingService

/-- Only `create` takes locks. -/
theorem Call.issues_outside {c : Call} {s : Stmt} (h : c.issues s = true)
    (hc : ∀ dto userId now, c ≠ .create dto userId now) : s.outside = true := by
  cases c with
  | create dto userId now => exact absurd rfl (hc dto userId now)
  | _ =>
    cases s with
    | external x => cases x <;> first | rfl | cases h
    | lock l => cases l <;> first | rfl | cases h
    | update u => cases u <;> first | rfl | cases h
    | query q => rfl

theorem Call.body_holds (cfg : Config) (c : Call) :
    (c.body cfg).Obeys holding holding.init GivenBack := by
  have houtside : (∀ dto userId now, c ≠ .create dto userId now) →
      (c.body cfg).Obeys holding holding.init GivenBack := by
    intro hc
    refine Script.obeys_mono (obeys_outside (Script.uses_mono (c.body_stays cfg) ?_))
      fun _ _ h => h
    intro m hm
    cases m with
    | stmt s => exact issues_outside hm hc
    | _ => trivial
  cases c with
  | create dto userId now => exact BookingService.create_holds cfg dto userId now
  | _ => exact houtside (by simp)

/-! ### The keys in Redis -/

/-- What a command and its reply do to the slot locks. -/
inductive LockStep (w w' : World) : (m : Cmd Stmt) → Except Err (m.Reply Stmt.Reply) → Prop
  | acquires (slotId : SlotId) (free : w.out.slotLocks slotId = none)
      (locks : w'.out.slotLocks = Function.update w.out.slotLocks slotId (some w.out.uuid)) :
      LockStep w w' (.stmt (.external (.acquireLock slotId))) (.ok (some w.out.uuid))
  | releases (slotId : SlotId) (value : ℕ) (r : Except Err Bool)
      (held : w.out.slotLocks slotId = some value)
      (locks : w'.out.slotLocks = Function.update w.out.slotLocks slotId none) :
      LockStep w w' (.stmt (.external (.releaseLock slotId value))) r
  | finds (slotId : SlotId) (value : ℕ) (r : Except Err Bool)
      (gone : w.out.slotLocks slotId ≠ some value) (locks : w'.out.slotLocks = w.out.slotLocks) :
      LockStep w w' (.stmt (.external (.releaseLock slotId value))) r
  | keeps (m : Cmd Stmt) (r : Except Err (m.Reply Stmt.Reply)) (next : ∀ g, holding.next g m r = g)
      (locks : w'.out.slotLocks = w.out.slotLocks) : LockStep w w' m r

theorem External.lockStep {w w' : World} (x : External) (hw' : w'.out = (x.eval w.out).2) :
    LockStep w w' (.stmt (.external x)) (x.eval w.out).1 := by
  cases x with
  | acquireLock slotId =>
    by_cases hfree : (w.out.slotLocks slotId).isNone
    · rw [External.eval, if_pos hfree] at hw' ⊢
      exact .acquires slotId (Option.isNone_iff_eq_none.mp hfree) (by rw [hw'])
    · rw [External.eval, if_neg hfree] at hw' ⊢
      exact .keeps _ _ (fun _ => rfl) (by rw [hw'])
  | releaseLock slotId value =>
    by_cases hheld : w.out.slotLocks slotId = some value
    · rw [External.eval, if_pos hheld] at hw' ⊢
      exact .releases slotId value _ hheld (by rw [hw'])
    · rw [External.eval, if_neg hheld] at hw' ⊢
      exact .finds slotId value _ hheld (by rw [hw'])
  | createRefund intent =>
    refine .keeps _ _ (fun _ => rfl) ?_
    rw [hw', External.eval]
    split_ifs <;> rfl
  | _ => exact .keeps _ _ (fun _ => rfl) (by rw [hw']; rfl)

theorem after_lockStep {cfg : Config} (c : Session Call) (l : Local Key Write) (w : World)
    (m : Cmd Stmt) : LockStep w ((engine cfg).after c ((engine cfg).exec l w m)) m
      ((engine cfg).exec l w m).reply := by
  have hafter : ((engine cfg).after c ((engine cfg).exec l w m)).out =
      ((engine cfg).exec l w m).base.out := by
    unfold Engine.after
    split <;> rfl
  cases m with
  | stmt s =>
    cases s with
    | external x =>
      have hbase : ((engine cfg).exec l w (.stmt (.external x))).base.out = (x.eval w.out).2 :=
        Engine.exec_base (P := fun w' : World => w'.out = (x.eval w.out).2) (fun _ => rfl) l
      have hreply : ((engine cfg).exec l w (.stmt (.external x))).reply = (x.eval w.out).1 :=
        @Engine.exec_reply _ _ _ _ _ _ _ (engine cfg) (.external x) w (· = (x.eval w.out).1)
          (fun _ => rfl) l
      rw [hreply]
      exact x.lockStep (hafter.trans hbase)
    | _ =>
      refine .keeps _ _ (fun _ => rfl) ?_
      rw [hafter]
      exact Engine.exec_base (P := fun w' : World => w'.out.slotLocks = w.out.slotLocks) (fun _ => rfl) l
  | _ => exact .keeps _ _ (fun _ => rfl) (by rw [hafter]; rfl)

/-- After an error a call holds what it held, or nothing if it was to give it back. -/
theorem holding_error (g : Option (SlotId × ℕ)) (m : Cmd Stmt) (e : Err) :
    holding.next g m (.error e) = g ∨ (∃ slotId value, m = .stmt (.external (.releaseLock slotId value))) ∧
      holding.next g m (.error e) = none := by
  cases m with
  | stmt s =>
    cases s with
    | external x =>
      cases x with
      | releaseLock slotId value => exact .inr ⟨⟨slotId, value, rfl⟩, rfl⟩
      | _ => exact .inl rfl
    | _ => exact .inl rfl
  | _ => exact .inl rfl

/-! ### One holder -/

/-- The key of the slot is set for each call that holds its lock, and one does. -/
structure Holders (slotId : SlotId) (held : ℕ → Option (SlotId × ℕ)) (w : World) : Prop where
  set : ∀ i value, held i = some (slotId, value) → w.out.slotLocks slotId = some value
  alone : ∀ i j value value', held i = some (slotId, value) → held j = some (slotId, value') → i = j

/-- The key is set for a call only. -/
def Holders.Owned (slotId : SlotId) (held : ℕ → Option (SlotId × ℕ)) (w : World) : Prop :=
  ∀ value, w.out.slotLocks slotId = some value → ∃ i, held i = some (slotId, value)

namespace Holders

variable {slotId : SlotId} {held : ℕ → Option (SlotId × ℕ)} {w w' : World} {i : ℕ}

theorem of_locks (h : Holders slotId held w)
    (hlocks : w'.out.slotLocks slotId = w.out.slotLocks slotId) : Holders slotId held w' :=
  ⟨fun i value hi => hlocks.trans (h.set i value hi), h.alone⟩

/-- A call that holds another lock, or none. -/
theorem forget (h : Holders slotId held w) {g : Option (SlotId × ℕ)}
    (hg : ∀ value, g ≠ some (slotId, value)) : Holders slotId (Function.update held i g) w := by
  have hof : ∀ j value, Function.update held i g j = some (slotId, value) →
      held j = some (slotId, value) := by
    intro j value hj
    by_cases hji : j = i
    · subst hji
      rw [Function.update_self] at hj
      exact absurd hj (hg value)
    · rwa [Function.update_of_ne hji] at hj
  exact ⟨fun j value hj => h.set j value (hof j value hj),
    fun j k _ _ hj hk => h.alone j k _ _ (hof j _ hj) (hof k _ hk)⟩

/-- While the key is free nobody holds the lock. -/
theorem none_of_free (h : Holders slotId held w) (hfree : w.out.slotLocks slotId = none) (j : ℕ)
    (value : ℕ) : held j ≠ some (slotId, value) := by
  intro hj
  rw [h.set j value hj] at hfree
  cases hfree

/-- A command that runs. -/
theorem run (h : Holders slotId held w) {m : Cmd Stmt} (hmay : holding.may (held i) m)
    {r : Except Err (m.Reply Stmt.Reply)} (hstep : LockStep w w' m r) :
    Holders slotId (Function.update held i (holding.next (held i) m r)) w' := by
  cases hstep with
  | keeps m r next locks =>
    rw [next, Function.update_eq_self]
    exact h.of_locks (by rw [locks])
  | finds id value r gone locks =>
    exact (h.of_locks (by rw [locks])).forget (by simp [holding])
  | releases id value r hheld locks =>
    have hi : held i = some (id, value) := hmay
    by_cases hid : id = slotId
    · subst hid
      -- the lock that goes was the only one
      have hnone : ∀ j value', Function.update held i none j ≠ some (id, value') := by
        intro j value' hj
        by_cases hji : j = i
        · rw [hji, Function.update_self] at hj
          cases hj
        · rw [Function.update_of_ne hji] at hj
          exact hji (h.alone j i _ _ hj hi)
      exact ⟨fun j value' hj => absurd hj (hnone j value'),
        fun j _ value' _ hj => absurd hj (hnone j value')⟩
    · refine (h.of_locks ?_).forget (by simp [holding])
      rw [locks, Function.update_of_ne (Ne.symm hid)]
  | acquires id free locks =>
    by_cases hid : id = slotId
    · subst hid
      have hof : ∀ j value, Function.update held i (some (id, w.out.uuid)) j = some (id, value) →
          j = i ∧ value = w.out.uuid := by
        intro j value hj
        by_cases hji : j = i
        · rw [hji, Function.update_self] at hj
          exact ⟨hji, (Prod.mk.inj (Option.some.inj hj)).2.symm⟩
        · rw [Function.update_of_ne hji] at hj
          exact absurd hj (h.none_of_free free j value)
      refine ⟨fun j value hj => ?_, fun j k _ _ hj hk => (hof j _ hj).1.trans (hof k _ hk).1.symm⟩
      rw [locks, Function.update_self, (hof j value hj).2]
    · refine (h.of_locks ?_).forget fun value hv => hid (Prod.mk.inj (Option.some.inj hv)).1
      rw [locks, Function.update_of_ne (Ne.symm hid)]

/-- A command that fails takes no lock. -/
theorem fail (h : Holders slotId held w) (m : Cmd Stmt) (e : Err) :
    Holders slotId (Function.update held i (holding.next (held i) m (.error e))) w := by
  rcases holding_error (held i) m e with hg | ⟨-, hg⟩
  · rw [hg, Function.update_eq_self]
    exact h
  · rw [hg]
    exact h.forget (by simp)

end Holders

namespace Holders.Owned

variable {slotId : SlotId} {held : ℕ → Option (SlotId × ℕ)} {w w' : World} {i : ℕ}

/-- A call that holds no lock of the slot gets another lock. -/
theorem update (h : Owned slotId held w) (hlocks : w'.out.slotLocks slotId = w.out.slotLocks slotId)
    (hi : ∀ value, held i ≠ some (slotId, value)) (g : Option (SlotId × ℕ)) :
    Owned slotId (Function.update held i g) w' := by
  intro value hset
  obtain ⟨j, hj⟩ := h value (hlocks.symm.trans hset)
  have hji : j ≠ i := by
    rintro rfl
    exact hi value hj
  exact ⟨j, by rw [Function.update_of_ne hji, hj]⟩

theorem run (h : Owned slotId held w) (hs : Holders slotId held w) {m : Cmd Stmt}
    (hmay : holding.may (held i) m) {r : Except Err (m.Reply Stmt.Reply)}
    (hstep : LockStep w w' m r) :
    Owned slotId (Function.update held i (holding.next (held i) m r)) w' := by
  cases hstep with
  | keeps m r next locks =>
    rw [next, Function.update_eq_self]
    intro value hset
    exact h value (by rw [← locks, hset])
  | finds id value r gone locks =>
    have hi : held i = some (id, value) := hmay
    refine h.update (by rw [locks]) (fun value' hi' => gone ?_) _
    obtain ⟨rfl, rfl⟩ := Prod.mk.inj (Option.some.inj (hi.symm.trans hi'))
    exact hs.set i value hi
  | releases id value r hheld locks =>
    have hi : held i = some (id, value) := hmay
    by_cases hid : id = slotId
    · subst hid
      intro value' hset
      rw [locks, Function.update_self] at hset
      cases hset
    · refine h.update (by rw [locks, Function.update_of_ne (Ne.symm hid)]) (fun value' hi' => hid ?_) _
      exact (Prod.mk.inj (Option.some.inj (hi.symm.trans hi'))).1
  | acquires id free locks =>
    have hi : held i = none := hmay
    by_cases hid : id = slotId
    · subst hid
      intro value hset
      rw [locks, Function.update_self] at hset
      obtain rfl := Option.some.inj hset
      exact ⟨i, Function.update_self ..⟩
    · exact h.update (by rw [locks, Function.update_of_ne (Ne.symm hid)]) (by simp [hi]) _

theorem fail (h : Owned slotId held w) {m : Cmd Stmt} (e : Err) (hmay : holding.may (held i) m)
    (hm : ∀ value, m ≠ .stmt (.external (.releaseLock slotId value))) :
    Owned slotId (Function.update held i (holding.next (held i) m (.error e))) w := by
  rcases holding_error (held i) m e with hg | ⟨⟨id, value, rfl⟩, hg⟩
  · rw [hg, Function.update_eq_self]
    exact h
  · have hi : held i = some (id, value) := hmay
    refine h.update rfl (fun value' hi' => hm value ?_) _
    rw [(Prod.mk.inj (Option.some.inj (hi.symm.trans hi'))).1]

end Holders.Owned

/-! ### Along a run -/

/-- The key of the slot does not expire. -/
def Unexpired (slotId : SlotId) (_ : Sys) : Act → Prop
  | .env (.expireLock id) => id ≠ slotId
  | _ => True

instance (slotId : SlotId) (s : Sys) : (a : Act) → Decidable (Unexpired slotId s a)
  | .env (.expireLock id) => inferInstanceAs (Decidable (id ≠ slotId))
  | .env (.tick _) => .isTrue trivial
  | .spawn _ => .isTrue trivial
  | .run _ => .isTrue trivial
  | .fault _ => .isTrue trivial

/-- The next statement gives back the lock of the slot. -/
def releases (slotId : SlotId) : Op Reply → Bool
  | .call (.stmt (.external (.releaseLock id _))) _ => id = slotId
  | _ => false

/-- No release of the slot's lock fails. -/
def Released (slotId : SlotId) (s : Sys) : Act → Prop
  | .fault i => ∀ t ∈ s.threads[i]?, releases slotId t.prog = false
  | _ => True

instance (slotId : SlotId) (s : Sys) : (a : Act) → Decidable (Released slotId s a)
  | .fault i => inferInstanceAs (Decidable (∀ t ∈ s.threads[i]?, releases slotId t.prog = false))
  | .env _ => .isTrue trivial
  | .spawn _ => .isTrue trivial
  | .run _ => .isTrue trivial

/-- What the lock of a slot is good for. -/
structure Sys.Guarded (slotId : SlotId) (held : ℕ → Option (SlotId × ℕ)) (s : Sys) : Prop where
  /-- One call holds it. -/
  alone : ∀ i j value value', held i = some (slotId, value) → held j = some (slotId, value') → i = j
  /-- Its key is set until the call that holds it has ended. -/
  set : ∀ i value, held i = some (slotId, value) → s.world.out.slotLocks slotId = some value ∧
    ∃ t, s.threads[i]? = some t ∧ t.prog.result? = none
  /-- Who books the slot holds it. -/
  books : ∀ i t st k, s.threads[i]? = some t → t.prog = .call (.stmt st) k →
    st.books = some slotId → ∃ value, held i = some (slotId, value)

section

variable {cfg : Config} {s : Sys} {slotId : SlotId} {held : ℕ → Option (SlotId × ℕ)}

theorem Sys.guarded (hobey : Obeying holding GivenBack held s) (h : Holders slotId held s.world) :
    s.Guarded slotId held where
  alone := h.alone
  set i value hi := by
    refine ⟨h.set i value hi, ?_⟩
    cases ht : s.threads[i]? with
    | none =>
      rw [hobey.later i (List.getElem?_eq_none_iff.mp ht)] at hi
      cases hi
    | some t =>
      refine ⟨t, rfl, ?_⟩
      have hobeys := hobey.obeys i t ht
      cases hp : t.prog with
      | call m k => rfl
      | ret a =>
        rw [hp] at hobeys
        have hnone : held i = none := hobeys
        rw [hnone] at hi
        cases hi
      | throw e =>
        rw [hp] at hobeys
        have hnone : held i = none := hobeys
        rw [hnone] at hi
        cases hi
  books i t st k ht hp hst := by
    have hmay := hobey.may ht hp
    cases st with
    | external x => cases hst
    | _ => exact hmay slotId hst

theorem Holders.step {a : Act} (h : Holders slotId held s.world) (ha : Unexpired slotId s a)
    (hmoves : holding.Moves (service cfg) GivenBack held s a) :
    Holders slotId (holding.moved (service cfg) held s a) ((service cfg).step s a).world := by
  cases hmoves with
  | rests world moved =>
    rw [world, moved]
    exact h
  | evolves v action world moved =>
    rw [world, moved]
    cases v with
    | tick ms => exact h.of_locks rfl
    | expireLock id =>
      subst action
      exact h.of_locks (Function.update_of_ne (Ne.symm ha) ..)
  | runs i t m k action thread prog may world moved =>
    rw [world, moved]
    exact h.run may (after_lockStep _ _ _ _)
  | fails i t m k action thread prog may world moved =>
    rw [world, moved]
    exact h.fail m _

theorem Holders.Owned.step {a : Act} (h : Owned slotId held s.world)
    (hs : Holders slotId held s.world) (hr : Released slotId s a)
    (hmoves : holding.Moves (service cfg) GivenBack held s a) :
    Owned slotId (holding.moved (service cfg) held s a) ((service cfg).step s a).world := by
  cases hmoves with
  | rests world moved =>
    rw [world, moved]
    exact h
  | evolves v action world moved =>
    rw [world, moved]
    cases v with
    | tick ms => exact h
    | expireLock id =>
      have hlocks : ((service cfg).evolve (.expireLock id) s.world).out.slotLocks =
          Function.update s.world.out.slotLocks id none := rfl
      intro value hset
      rw [hlocks] at hset
      by_cases hid : slotId = id
      · rw [hid, Function.update_self] at hset
        cases hset
      · rw [Function.update_of_ne hid] at hset
        exact h value hset
  | runs i t m k action thread prog may world moved =>
    rw [world, moved]
    exact h.run hs may (after_lockStep _ _ _ _)
  | fails i t m k action thread prog may world moved =>
    rw [world, moved]
    refine h.fail _ may fun value hm => ?_
    subst action hm
    have hnot : releases slotId t.prog = false := hr t thread
    simp [prog, releases] at hnot

/-- Start with no calls and the key of a slot free. In every run in which that key does not
expire, the lock guards the slot; and if no release of it is lost either, the key is set
only for a call that holds it, so it is free when all calls have ended. -/
theorem one_holder (hthreads : s.threads = []) (hfree : s.world.out.slotLocks slotId = none)
    {as : List Act} (hkeys : (service cfg).Each (Unexpired slotId) s as) :
    let t : Sys := (service cfg).run s as
    let held := holding.tracked (service cfg) s as
    t.Guarded slotId held ∧ ((service cfg).Each (Released slotId) s as →
      Holders.Owned slotId held t.world ∧ (t.Settled → t.world.out.slotLocks slotId = none)) := by
  intro t held
  have hinit : Holders slotId (fun _ => holding.init) s.world := ⟨by simp [holding], by simp [holding]⟩
  have hA : holding.Answered (service cfg).toEngine := holding_answered cfg
  obtain ⟨hobey, hholders⟩ := Automaton.tracked_of_step hA (Call.body_holds cfg)
    (I := fun held s => Holders slotId held s.world)
    (fun g s a _ h ha hmoves => h.step ha hmoves) hthreads hinit hkeys
  have hguarded : t.Guarded slotId held := Sys.guarded hobey hholders
  refine ⟨hguarded, fun hreleased => ?_⟩
  obtain ⟨-, -, howned⟩ := Automaton.tracked_of_step hA (Call.body_holds cfg)
    (I := fun held s => Holders slotId held s.world ∧ Holders.Owned slotId held s.world)
    (fun g s a _ h ha hmoves => ⟨h.1.step ha.1 hmoves, h.2.step h.1 ha.2 hmoves⟩) hthreads
    ⟨hinit, fun value hset => by rw [hfree] at hset; cases hset⟩
    (Service.each_and hkeys hreleased)
  refine ⟨howned, fun hsettled => ?_⟩
  cases hset : t.world.out.slotLocks slotId with
  | none => rfl
  | some value =>
    obtain ⟨i, hi⟩ := howned value hset
    obtain ⟨-, th, hth, hnone⟩ := hguarded.set i value hi
    have hsome := hsettled th (List.mem_of_getElem? hth)
    rw [hnone] at hsome
    cases hsome

end

/-- Two users book slot 1; the first one comes in, the second one is turned away, and the
notification of the first one fails. -/
def Arena.contended : List Act :=
  first 0 (.create (dto 1 none) 7 0) 6 ++ first 1 (.create (dto 1 none) 8 0) 4 ++
    List.replicate 2 (.run 0) ++ [.fault 0] ++ List.replicate 4 (.run 0)

theorem one_holder_contended :
    let t : Sys := (service (Arena.cfg true)).run Arena.sys Arena.contended
    t.Guarded 1 (holding.tracked (service (Arena.cfg true)) Arena.sys Arena.contended) ∧
      t.world.out.slotLocks 1 = none := by
  obtain ⟨hguarded, hreleased⟩ := @one_holder (Arena.cfg true) Arena.sys 1 rfl rfl Arena.contended
    (by decide +kernel)
  exact ⟨hguarded, (hreleased (by decide +kernel)).2 (by decide +kernel)⟩

end TurfSync
