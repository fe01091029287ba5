import TurfSync.Protocol.Commits

/-! The weakest preconditions of the statements, inside a transaction and outside of
one. `Q` is the postcondition of the rest of the program; an infrastructure failure
may strike before any statement. -/

namespace TurfSync

open Txn

variable {cfg : Config} {J : World → Prop}
  {allow : Session Call → Local Key Write → World → Cmd Stmt → Bool → Prop} {c : Session Call}
  {α β : Type} {Q : Post Err Key Write World β} {ws : List Write} {ks : List Key} {w : World}

/-- What a session finds when it gets to its next statement. -/
structure Found (cfg : Config) (J : World → Prop) (c : Session Call) (ks : List Key)
    (w w' : World) : Prop where
  rely : w.Rely c.id ks w'
  wellFormed : w'.WellFormed cfg
  extra : J w'

namespace Found

variable {w' w'' : World}

theorem refl (hw : w.WellFormed cfg) (hj : J w) : Found cfg J c ks w w := ⟨.refl _ _ _, hw, hj⟩

theorem trans (h : Found cfg J c ks w w') (h' : Found cfg J c ks w' w'') :
    Found cfg J c ks w w'' := ⟨h.rely.trans h'.rely, h'.wellFormed, h'.extra⟩

/-- An effect outside the database. -/
theorem out (hJ : Stable cfg J) (h : Found cfg J c ks w w') {o : Outside}
    (ho : w'.out.uuid ≤ o.uuid) : Found cfg J c ks w { w' with out := o } :=
  ⟨h.rely.trans (rely_out _ _ ho), wellFormed_out h.wellFormed ho, hJ.out _ _ h.extra⟩

theorem valid (h : Found cfg J c ks w w') : w'.db.Valid cfg := h.wellFormed.valid

/-- A locked booking is as it was. -/
theorem booking? (h : Found cfg J c ks w w') {id : BookingId} (hk : .booking id ∈ ks) :
    w'.db.booking? id = w.db.booking? id := h.rely.db.bookingLock id hk

theorem weaken (h : Found cfg J c ks w w') {ks' : List Key} (hk : ∀ k ∈ ks', k ∈ ks) :
    Found cfg J c ks' w w' :=
  ⟨{ h.rely with db := h.rely.db.weaken hk }, h.wellFormed, h.extra⟩

theorem forget (h : Found cfg J c ks w w') : Found cfg J c [] w w' := h.weaken (by simp)

/-- No booking appears on a locked slot. -/
theorem onSlot (h : Found cfg J c ks w w') {s : SlotId} (hk : .slot s ∈ ks) :
    ∀ b' ∈ w'.db.bookings, b'.slotId = s → ∃ b ∈ w.db.bookings, b.Ages b' := by
  intro b' hb' hslot
  cases hb : w.db.booking? b'.id with
  | none =>
    have hnew := h.rely.db.newBooking b'.id b' (h.valid.booking?_of_mem hb') hb
    exact absurd (hslot ▸ hk) hnew
  | some b =>
    obtain ⟨b'', hb'', ha⟩ := h.rely.db.booking b'.id b hb
    rw [h.valid.booking?_of_mem hb'] at hb''
    obtain rfl := Option.some.inj hb''
    exact ⟨b, (Db.mem_of_booking? hb).1, ha⟩

/-- A booking that was there still is. -/
theorem booking (h : Found cfg J c ks w w') (hv : w.db.Valid cfg) {b : Booking}
    (hb : b ∈ w.db.bookings) : ∃ b' ∈ w'.db.bookings, b.Ages b' := by
  obtain ⟨b', hb', ha⟩ := h.rely.db.booking b.id b (hv.booking?_of_mem hb)
  exact ⟨b', (Db.mem_of_booking? hb').1, ha⟩

/-- A payment that was there still is, for its booking and with its intent. -/
theorem payment (h : Found cfg J c ks w w') (hv : w.db.Valid cfg) {p : Payment}
    (hp : p ∈ w.db.payments) : ∃ p' ∈ w'.db.payments, p'.id = p.id ∧
      p'.bookingId = p.bookingId ∧ p'.stripePaymentIntentId = p.stripePaymentIntentId := by
  obtain ⟨p', hp', h1, h2⟩ := h.rely.db.payment p.id p (hv.payment?_of_mem hp)
  obtain ⟨hm, hid⟩ := Db.mem_of_payment? hp'
  exact ⟨p', hm, hid, h1, h2⟩

end Found

/-! ### Inside a transaction -/

@[simp] theorem act_query (q : Query) (v w : World) :
    (engine cfg).act (.query q) v w = ⟨.ok (q.eval v.db), [], [], w⟩ := rfl

@[simp] theorem act_lock (r : RowLock) (v w : World) :
    (engine cfg).act (.lock r) v w = ⟨.ok (r.eval v.db).1, (r.eval v.db).2, [], w⟩ := rfl

@[simp] theorem act_external (x : External) (v w : World) :
    (engine cfg).act (.external x) v w =
      ⟨(x.eval w.out).1, [], [], { w with out := (x.eval w.out).2 }⟩ := rfl

/-- The world after a write statement: the fresh ids it took are gone. -/
def World.took (w : World) (n : ℕ) : World :=
  { w with out := { w.out with uuid := w.out.uuid + n } }

@[simp] theorem World.took_zero (w : World) : w.took 0 = w := rfl

@[simp] theorem act_update (u : Update) (v w : World) :
    (engine cfg).act (.update u) v w =
      ⟨(u.plan cfg v.db w.out.uuid w.out.now).reply, (u.plan cfg v.db w.out.uuid w.out.now).locks,
        (u.plan cfg v.db w.out.uuid w.out.now).writes,
        w.took (u.plan cfg v.db w.out.uuid w.out.now).used⟩ := rfl

theorem wp_query_tx {q : Query} {f : q.Reply → Op β}
    (h : ∀ w', Found cfg J c ks w w' →
      wp (engine cfg) (rules cfg J allow) c (f (q.eval (w'.db.applyAll ws))) Q ⟨some ws, ks⟩ w')
    (hf : ∀ w', Found cfg J c ks w w' → allow c ⟨some ws, ks⟩ w' (.stmt (.query q)) true →
      wp (engine cfg) (rules cfg J allow) c (.throw .infrastructure) Q ⟨some ws, ks⟩ w') :
    wp (engine cfg) (rules cfg J allow) c ((query q).bind f) Q ⟨some ws, ks⟩ w := by
  refine wp_stmt_tx (fun w' hr hi _ => ?_)
    fun w' hr hi ha => hf w' ⟨hr, hi.1, hi.2⟩ ha
  have hq := h w' ⟨hr, hi.1, hi.2⟩
  simp only [view_db, act_query, List.append_nil, List.nil_append]
  exact hq

theorem wp_lock_tx {r : RowLock} {f : r.Reply → Op β}
    (h : ∀ w', Found cfg J c ks w w' → allow c ⟨some ws, ks⟩ w' (.stmt (.lock r)) false →
      wp (engine cfg) (rules cfg J allow) c (f (r.eval (w'.db.applyAll ws)).1) Q
        ⟨some ws, (r.eval (w'.db.applyAll ws)).2 ++ ks⟩ w')
    (hf : ∀ w', Found cfg J c ks w w' → allow c ⟨some ws, ks⟩ w' (.stmt (.lock r)) true →
      wp (engine cfg) (rules cfg J allow) c (.throw .infrastructure) Q ⟨some ws, ks⟩ w') :
    wp (engine cfg) (rules cfg J allow) c ((lockRow r).bind f) Q ⟨some ws, ks⟩ w := by
  refine wp_stmt_tx (fun w' hr hi ha => ?_)
    fun w' hr hi ha => hf w' ⟨hr, hi.1, hi.2⟩ ha
  have hq := h w' ⟨hr, hi.1, hi.2⟩ ha
  simp only [view_db, act_lock, List.append_nil]
  exact hq

theorem wp_update_tx {u : Update} {f : u.Reply → Op β}
    (h : ∀ w', Found cfg J c ks w w' →
      let p := u.plan cfg (w'.db.applyAll ws) w'.out.uuid w'.out.now
      wp (engine cfg) (rules cfg J allow) c (resume p.reply f) Q
        ⟨some (ws ++ p.writes), p.locks ++ ks⟩ (w'.took p.used))
    (hf : ∀ w', Found cfg J c ks w w' → allow c ⟨some ws, ks⟩ w' (.stmt (.update u)) true →
      wp (engine cfg) (rules cfg J allow) c (.throw .infrastructure) Q ⟨some ws, ks⟩ w') :
    wp (engine cfg) (rules cfg J allow) c ((update u).bind f) Q ⟨some ws, ks⟩ w := by
  refine wp_stmt_tx (fun w' hr hi _ => ?_)
    fun w' hr hi ha => hf w' ⟨hr, hi.1, hi.2⟩ ha
  have hq := h w' ⟨hr, hi.1, hi.2⟩
  simp only [view_db, act_update]
  exact hq

/-! An update of one row fails if the row is missing. -/

theorem plan_slotUpdate (cfg : Config) (id : SlotId) (v : Bool) (db : Db) (uuid : ℕ) (now : Time) :
    (Update.slotUpdate id v).plan cfg db uuid now = .fail .P2025 [] ∨
    (Update.slotUpdate id v).plan cfg db uuid now =
      ⟨.ok (), [.slot id], [.slotSet [id] v], 0⟩ := by
  simp only [Update.plan]
  split
  · exact .inr rfl
  · exact .inl rfl

theorem plan_bookingUpdate (cfg : Config) (id : BookingId) (st : BookingStatus) (db : Db)
    (uuid : ℕ) (now : Time) :
    (Update.bookingUpdate id st).plan cfg db uuid now = .fail .P2025 [] ∨
    (Update.bookingUpdate id st).plan cfg db uuid now =
      ⟨.ok (), [.booking id], [.bookingSet [id] st], 0⟩ := by
  simp only [Update.plan]
  split
  · exact .inr rfl
  · exact .inl rfl

theorem plan_paymentUpdate (cfg : Config) (id : PaymentId) (ch : PaymentChange) (db : Db)
    (uuid : ℕ) (now : Time) :
    (Update.paymentUpdate id ch).plan cfg db uuid now = .fail .P2025 [] ∨
    (Update.paymentUpdate id ch).plan cfg db uuid now =
      ⟨.ok (), [.payment id], [.paymentSet [id] ch], 0⟩ := by
  simp only [Update.plan]
  split
  · exact .inr rfl
  · exact .inl rfl

/-- What an update writes, whatever the tables hold. -/
def Update.Puts (uuid : ℕ) (now : Time) : Update → Write → Prop
  | .slotUpdate id v, x => x = .slotSet [id] v
  | .slotUpdateMany ids v, x => x = .slotSet ids v
  | .bookingCreate d, x => ∃ amount, x = .bookingInsert (d.row amount uuid now)
  | .bookingUpdate id st, x => x = .bookingSet [id] st
  | .bookingUpdateManyPending _ st, x => ∃ ids, x = .bookingSet ids st
  | .paymentUpdate id ch, x => x = .paymentSet [id] ch
  | .paymentUpdateMany _ ch, x => ∃ ids, x = .paymentSet ids ch
  | .paymentUpsert bookingId amount currency intent secret, x =>
    (∃ id, x = .paymentSet [id] (.initiated intent secret)) ∨
      x = .paymentInsert (newPayment uuid bookingId amount currency intent secret)
  | .webhookEventCreate id, x => x = .eventInsert id
  | .couponUsageCreate couponId userId bookingId _, x =>
    ∃ amount, x = .usageInsert ⟨uuid, couponId, userId, bookingId, decimal2 amount⟩
  | .couponIncrement id, x => x = .couponIncrement id
  | .auditLogCreate a, x => x = .auditInsert a

theorem puts_of_mem {u : Update} {db : Db} {uuid : ℕ} {now : Time} {x : Write}
    (hx : x ∈ (u.plan cfg db uuid now).writes) : u.Puts uuid now x := by
  cases u with
  | slotUpdateMany | auditLogCreate => exact List.mem_singleton.mp hx
  | bookingUpdateManyPending | paymentUpdateMany => exact ⟨_, List.mem_singleton.mp hx⟩
  | slotUpdate | bookingUpdate | paymentUpdate | couponIncrement =>
    simp only [Update.plan] at hx
    split at hx
    · exact List.mem_singleton.mp hx
    · cases hx
  | webhookEventCreate =>
    simp only [Update.plan] at hx
    split_ifs at hx
    · cases hx
    · exact List.mem_singleton.mp hx
  | bookingCreate | couponUsageCreate =>
    simp only [Update.plan] at hx
    split at hx
    · cases hx
    · split_ifs at hx
      · cases hx
      · cases hx
      · exact ⟨_, List.mem_singleton.mp hx⟩
  | paymentUpsert =>
    simp only [Update.plan] at hx
    split_ifs at hx
    · cases hx
    · split at hx
      · exact .inl ⟨_, List.mem_singleton.mp hx⟩
      · cases hx
    · split at hx
      · exact .inl ⟨_, List.mem_singleton.mp hx⟩
      · exact .inr (List.mem_singleton.mp hx)

theorem wp_external_tx {x : External} {f : x.Reply → Op β}
    (h : ∀ w', Found cfg J c ks w w' →
      wp (engine cfg) (rules cfg J allow) c (resume (x.eval w'.out).1 f) Q ⟨some ws, ks⟩
        { w' with out := (x.eval w'.out).2 })
    (hf : ∀ w', Found cfg J c ks w w' → allow c ⟨some ws, ks⟩ w' (.stmt (.external x)) true →
      wp (engine cfg) (rules cfg J allow) c (.throw .infrastructure) Q ⟨some ws, ks⟩ w') :
    wp (engine cfg) (rules cfg J allow) c ((external x).bind f) Q ⟨some ws, ks⟩ w := by
  refine wp_stmt_tx (fun w' hr hi _ => ?_)
    fun w' hr hi ha => hf w' ⟨hr, hi.1, hi.2⟩ ha
  have hq := h w' ⟨hr, hi.1, hi.2⟩
  simp only [act_external, List.append_nil, List.nil_append]
  exact hq

/-! ### Outside a transaction -/

theorem wp_query {q : Query} {f : q.Reply → Op β}
    (h : ∀ w', Found cfg J c [] w w' →
      wp (engine cfg) (rules cfg J allow) c (f (q.eval w'.db)) Q .idle w')
    (hf : ∀ w', Found cfg J c [] w w' → allow c .idle w' (.stmt (.query q)) true →
      wp (engine cfg) (rules cfg J allow) c (.throw .infrastructure) Q .idle w') :
    wp (engine cfg) (rules cfg J allow) c ((query q).bind f) Q .idle w :=
  wp_stmt_read (fun _ _ => rfl) (fun w' hr hi _ => h w' ⟨hr, hi.1, hi.2⟩)
    fun w' hr hi ha => hf w' ⟨hr, hi.1, hi.2⟩ ha

theorem wp_external {x : External} {f : x.Reply → Op β}
    (h : ∀ w', Found cfg J c [] w w' →
      wp (engine cfg) (rules cfg J allow) c (resume (x.eval w'.out).1 f) Q .idle
        { w' with out := (x.eval w'.out).2 })
    (hf : ∀ w', Found cfg J c [] w w' → allow c .idle w' (.stmt (.external x)) true →
      wp (engine cfg) (rules cfg J allow) c (.throw .infrastructure) Q .idle w') :
    wp (engine cfg) (rules cfg J allow) c ((external x).bind f) Q .idle w :=
  wp_stmt_read (fun _ _ => rfl) (fun w' hr hi _ => h w' ⟨hr, hi.1, hi.2⟩)
    fun w' hr hi ha => hf w' ⟨hr, hi.1, hi.2⟩ ha

/-- A write statement by itself. -/
theorem wp_update {u : Update} {f : u.Reply → Op β}
    (h : ∀ w' p, Found cfg J c [] w w' → u.plan cfg w'.db w'.out.uuid w'.out.now = p →
      (p.writes = [] →
        wp (engine cfg) (rules cfg J allow) c (resume p.reply f) Q .idle (w'.took p.used)) ∧
      (p.writes ≠ [] → (Commits cfg c (w'.took p.used) p.writes ∧
          ∀ x ∈ p.writes, ∀ k ∈ x.keys, k ∈ p.locks) ∧
        wp (engine cfg) (rules cfg J allow) c (resume p.reply f) Q .idle
          (Commits.result c p.writes (w'.took p.used))))
    (hf : ∀ w', Found cfg J c [] w w' → allow c .idle w' (.stmt (.update u)) true →
      wp (engine cfg) (rules cfg J allow) c (.throw .infrastructure) Q .idle w') :
    wp (engine cfg) (rules cfg J allow) c ((update u).bind f) Q .idle w :=
  wp_stmt_auto (fun w' hr hi _ => h w' _ ⟨hr, hi.1, hi.2⟩ rfl)
    fun w' hr hi ha => hf w' ⟨hr, hi.1, hi.2⟩ ha

theorem wp_tx {p : Op β}
    (h : ∀ w', Found cfg J c [] w w' → wp (engine cfg) (rules cfg J allow) c p
      (TxPost (engine cfg) (rules cfg J allow) c Q) ⟨some [], []⟩ w')
    (hf : ∀ w', Found cfg J c [] w w' → allow c .idle w' .begin true →
      wp (engine cfg) (rules cfg J allow) c (.throw .infrastructure) Q .idle w') :
    wp (engine cfg) (rules cfg J allow) c (Script.transaction p) Q .idle w :=
  wp_transaction (fun w' hr hi => h w' ⟨hr, hi.1, hi.2⟩)
    fun w' hr hi ha => hf w' ⟨hr, hi.1, hi.2⟩ ha

theorem wp_throw_tx {e : Err} (h : ∀ w', Found cfg J c [] w w' → Q (.error e) .idle w') :
    wp (engine cfg) (rules cfg J allow) c (.throw e)
      (TxPost (engine cfg) (rules cfg J allow) c Q) ⟨some ws, ks⟩ w := by
  intro w' hr hi w'' hr' hi'
  have hf : Found cfg J c ks w w' := ⟨hr, hi.1, hi.2⟩
  exact h w'' (hf.forget.trans ⟨hr', hi'.1, hi'.2⟩)

theorem wp_ret_tx {a : β}
    (h : ∀ w', Found cfg J c ks w w' →
      (Commits cfg c w' ws ∧ ∀ x ∈ ws, ∀ k ∈ x.keys, k ∈ ks) ∧
        ∀ w'', Found cfg J c [] (Commits.result c ws w') w'' → Q (.ok a) .idle w'')
    (hf : ∀ w₁ w', Found cfg J c ks w w₁ → allow c ⟨some ws, ks⟩ w₁ .commit true →
      Found cfg J c [] w₁ w' → Q (.error .infrastructure) .idle w') :
    wp (engine cfg) (rules cfg J allow) c (.ret a)
      (TxPost (engine cfg) (rules cfg J allow) c Q) ⟨some ws, ks⟩ w := by
  intro w' hr hi
  have hfound : Found cfg J c ks w w' := ⟨hr, hi.1, hi.2⟩
  obtain ⟨hc, hq⟩ := h w' hfound
  refine ⟨fun _ => ⟨hc, fun w'' hr' hi' => hq w'' ⟨hr', hi'.1, hi'.2⟩⟩, fun ha w'' hr' hi' => ?_⟩
  exact hf w' w'' hfound ha ⟨hr', hi'.1, hi'.2⟩

/-! A transaction whose failures, whatever they are, meet one postcondition. -/

section

variable (herr : ∀ e w', e ≠ .P2002 → Found cfg J c [] w w' → Q (.error e) .idle w')

include herr

theorem wp_fault_tx {P : World → Prop} (w' : World) (h : Found cfg J c ks w w') (_ : P w') :
    wp (engine cfg) (rules cfg J allow) c (.throw .infrastructure)
      (TxPost (engine cfg) (rules cfg J allow) c Q) ⟨some ws, ks⟩ w' :=
  wp_throw_tx fun w'' h' => herr _ w'' (by simp) (h.forget.trans h')

/-- An update of one row: it fails, or adds its write under the lock of the row. -/
theorem wp_row_tx {u : Update} {a : u.Reply} {locks : List Key} {xs : List Write}
    {f : u.Reply → Op β}
    (hplan : ∀ db uuid now, u.plan cfg db uuid now = .fail .P2025 [] ∨
      u.plan cfg db uuid now = ⟨.ok a, locks, xs, 0⟩)
    (h : ∀ w', Found cfg J c ks w w' → wp (engine cfg) (rules cfg J allow) c (f a)
      (TxPost (engine cfg) (rules cfg J allow) c Q) ⟨some (ws ++ xs), locks ++ ks⟩ w') :
    wp (engine cfg) (rules cfg J allow) c ((update u).bind f)
      (TxPost (engine cfg) (rules cfg J allow) c Q) ⟨some ws, ks⟩ w := by
  refine wp_update_tx (fun w' h' => ?_) (wp_fault_tx herr)
  rcases hplan (w'.db.applyAll ws) w'.out.uuid w'.out.now with hp | hp
  · rw [hp]
    exact wp_throw_tx fun w'' h'' => herr _ w'' (by simp) (h'.forget.trans h'')
  · rw [hp]
    exact h w' h'

end

/-! ### Effects that are only logged when they fail -/

section

variable {l : Local Key Write} (hJ : Stable cfg J)

include hJ

theorem external_found {x : External} :
    wp (engine cfg) (rules cfg J allow) c (external x)
      (fun _ l w' => l = .idle ∧ Found cfg J c [] w w') .idle w := by
  rw [← Prog.bind_ret (external x)]
  refine wp_external (fun w' hf => ?_) fun w' hf _ w'' hr hi => ⟨rfl, hf.trans ⟨hr, hi.1, hi.2⟩⟩
  have hout := hf.out hJ (x.uuid_le w'.out)
  cases (x.eval w'.out).1 with
  | ok a => exact fun w'' hr hi => ⟨rfl, hout.trans ⟨hr, hi.1, hi.2⟩⟩
  | error e => exact fun w'' hr hi => ⟨rfl, hout.trans ⟨hr, hi.1, hi.2⟩⟩

theorem external_found_tx {x : External} :
    wp (engine cfg) (rules cfg J allow) c (external x)
      (fun _ l w' => l = ⟨some ws, ks⟩ ∧ Found cfg J c ks w w') ⟨some ws, ks⟩ w := by
  rw [← Prog.bind_ret (external x)]
  refine wp_external_tx (fun w' hf => ?_) fun w' hf _ w'' hr hi => ⟨rfl, hf.trans ⟨hr, hi.1, hi.2⟩⟩
  have hout := hf.out hJ (x.uuid_le w'.out)
  cases (x.eval w'.out).1 with
  | ok a => exact fun w'' hr hi => ⟨rfl, hout.trans ⟨hr, hi.1, hi.2⟩⟩
  | error e => exact fun w'' hr hi => ⟨rfl, hout.trans ⟨hr, hi.1, hi.2⟩⟩

theorem wp_quietly {p : Op Unit} {f : Unit → Op β}
    (hp : wp (engine cfg) (rules cfg J allow) c p
      (fun _ l' w' => l' = l ∧ Found cfg J c l.held w w') l w)
    (h : ∀ w', Found cfg J c l.held w w' →
      wp (engine cfg) (rules cfg J allow) c (f ()) Q l w') :
    wp (engine cfg) (rules cfg J allow) c ((quietly p).bind f) Q l w := by
  have hP : (rules cfg J allow).Lawful (engine cfg) := rules_lawful hJ
  refine wp_bind hP (wp_tryCatch hP (wp_mono hp ?_))
  rintro (e | a) l' w' - ⟨rfl, hf⟩
  · exact fun w'' hr hi => h w'' (hf.trans ⟨hr, hi.1, hi.2⟩)
  · exact h w' hf

theorem wp_delByPattern {turfId : TurfId} {f : Unit → Op β}
    (h : ∀ w', Found cfg J c [] w w' →
      wp (engine cfg) (rules cfg J allow) c (f ()) Q .idle w') :
    wp (engine cfg) (rules cfg J allow) c ((delByPattern turfId).bind f) Q .idle w :=
  wp_quietly hJ (external_found hJ) h

end

end TurfSync
