import TurfSync.Guarantees.Charges
import TurfSync.Protocol.Catalogue
import TurfSync.Protocol.CouponAdmin

/-! What is booked, charged and recorded while turfs and coupons are edited. The price is
read once, by `create`, so an edit changes no amount. The name of the turf is read again by
every `createPaymentIntent`, and Stripe rejects a key that comes back with another name. -/

namespace TurfSync.Catalogue

open Txn

/-! ### The stages of the calls -/

/-- The edits ask Stripe for nothing and insert no payment. -/
def charging (cfg : Config) : Automaton Stmt Stmt.Reply Err Stage := (TurfSync.charging cfg).lift.lift

/-- A write that can be held back. -/
def Write.Proper (x : Write) : Prop := ∃ y, x = .coupon (.base y) ∧ TurfSync.Write.Proper y

section

variable (cfg : Config)

theorem charging_answered : (charging cfg).Answered (engine cfg) :=
  answered (TurfSync.act_answers cfg) (TurfSync.charging_answered cfg)

theorem charging_gated : (charging cfg).Gated (· ≠ .other) := (TurfSync.charging_gated cfg).lift.lift

theorem charging_withholds :
    (charging cfg).Withholds (engine cfg) (· ≠ .other) Write.Proper := by
  intro g s hg hmay view w x hx
  rcases s with (s | s) | s
  · obtain ⟨y, hy, rfl⟩ := List.mem_map.mp hx
    obtain ⟨z, hz, rfl⟩ := List.mem_map.mp hy
    have hproper := TurfSync.charging_withholds cfg (E := TurfSync.engine cfg) rfl g s hg hmay
    exact ⟨z, rfl, hproper _ _ z hz⟩
  · obtain rfl : g = .fresh := hmay
    exact absurd nofun hg
  · obtain rfl : g = .fresh := hmay
    exact absurd nofun hg

theorem body_obeys_charging (c : Call) :
    (c.body cfg).Obeys (charging cfg) .fresh fun _ _ => True :=
  body_obeys (TurfSync.body_obeys_charging cfg) c

end

/-! ### Steps -/

/-- The tables that are copied from, and what Stripe has been asked, stay as they are; of
the coupons nothing is copied. -/
structure World.Alike (w w' : World) : Prop where
  turfs : w'.db.turfs = w.db.turfs
  slots : w'.db.slots = w.db.slots
  bookings : w'.db.bookings = w.db.bookings
  payments : w'.db.payments = w.db.payments
  requests : w'.out.intentRequests = w.out.intentRequests

theorem World.Alike.refl (w : World) : w.Alike w := ⟨rfl, rfl, rfl, rfl, rfl⟩

/-- A session is about to use the booking `d` that it has read. -/
def Reading (g : ℕ → Stage) (t : Sys) (d : BookingDetail) : Prop :=
  ∃ (i : ℕ) (u : Thread Stmt Stmt.Reply Err Key Write Call Reply),
    t.threads[i]? = some u ∧ u.prog.result? = none ∧ g i = .read d

/-- A step of session `i`, to the stage `next`: it copies, it commits what it has held back,
or it writes something else. -/
inductive Advance (cfg : Config) (g : ℕ → Stage) (t : Sys) (a : Act) (t' : Sys) : (ℕ → Stage) → Prop
  | rests (alike : t.world.Alike t'.world) (reading : ∀ d, Reading g t' d → Reading g t d) :
      Advance cfg g t a t' g
  | copies (i : ℕ) (next : Stage) (w' : TurfSync.World) (ws : List TurfSync.Write)
      (out : w'.db = t.world.db) (copies : Copies cfg (g i) next ⟨t.world.db, t.world.out, []⟩ w' ws)
      (db : t'.world.db = t.world.db.applyAll ws)
      (requests : t'.world.out.intentRequests = w'.out.intentRequests)
      (live : ∀ d, g i = .read d → Reading g t d)
      (reading : ∀ d, Reading (Function.update g i next) t' d → Reading g t d ∨ next = .read d) :
      Advance cfg g t a t' (Function.update g i next)
  | edits (i : ℕ) (u : Thread Stmt Stmt.Reply Err Key Write Call Reply) (id : TurfId) (now : Time)
      (ch : TurfChange) (k : Except Err Turf → Op Reply) (action : a = .run i)
      (thread : t.threads[i]? = some u) (prog : u.prog = .call (.stmt (.inr (.turfUpdate id ch))) k)
      (free : ¬ NameTaken t.world.db id ch) (db : t'.world.db = Catalogue.apply t.world.db (.turfSet id now ch))
      (requests : t'.world.out.intentRequests = t.world.out.intentRequests)
      (reading : ∀ d, Reading g t' d → Reading g t d) : Advance cfg g t a t' g

theorem applyAll_base (db : Db) (ws : List TurfSync.Write) :
    ((ws.map CouponAdmin.Write.base).map Write.coupon).foldl Catalogue.apply db = db.applyAll ws := by
  induction ws generalizing db with
  | nil => rfl
  | cons x ws ih => exact ih _

/-- What is held back and committed. -/
theorem foldl_proper (db : Db) {ws : List Write} (hws : ∀ x ∈ ws, x.Proper) :
    ∃ ys : List TurfSync.Write, (∀ y ∈ ys, y.Proper) ∧ ws.foldl Catalogue.apply db = db.applyAll ys := by
  induction ws generalizing db with
  | nil => exact ⟨[], by simp, rfl⟩
  | cons x ws ih =>
    obtain ⟨y, rfl, hy⟩ := hws x List.mem_cons_self
    obtain ⟨ys, hys, hfold⟩ := ih (db.apply y) fun z hz => hws z (List.mem_cons_of_mem _ hz)
    refine ⟨y :: ys, fun z hz => ?_, hfold⟩
    rcases List.mem_cons.mp hz with rfl | hz
    · exact hy
    · exact hys z hz

section

variable {cfg : Config} {g : ℕ → Stage} {t t' : Sys} {i : ℕ} {next : Stage} {w w' : World}

/-- The sessions while turfs and coupons are edited. -/
abbrev Charger (cfg : Config) (g : ℕ → Stage) (t : Sys) : Prop :=
  Buffering (charging cfg) (fun _ _ => True) (· ≠ .other) Write.Proper g t

theorem Reading.of_others (hothers : Others t t' i) {d : BookingDetail}
    (h : Reading (Function.update g i next) t' d) : Reading g t d ∨ next = .read d := by
  obtain ⟨j, u, hu, hlive, hj⟩ := h
  by_cases hji : j = i
  · subst hji
    rw [Function.update_self] at hj
    exact .inr hj
  · rw [Function.update_of_ne hji] at hj
    rw [hothers j hji] at hu
    exact .inl ⟨j, u, hu, hlive, hj⟩

theorem Reading.of_same (hothers : Others t t' i) (hi : ∀ d, g i = .read d → Reading g t d)
    {d : BookingDetail} (h : Reading g t' d) : Reading g t d := by
  rw [← Function.update_eq_self i g] at h
  rcases h.of_others hothers with h | h
  · exact h
  · exact hi d h

/-- What follows a statement that is answered by nothing. -/
theorem next_idle {m : Cmd Stmt} {r : Except Err (m.Reply Stmt.Reply)} (k : Stage)
    (hm : (∀ s, m ≠ .stmt s) ∨ r = .error Err.infrastructure) :
    (charging cfg).next k m r = .other ∨ (charging cfg).next k m r = k := by
  cases m with
  | stmt s =>
    rcases s with (s | s) | s
    · rcases hm with hm | rfl
      · exact absurd rfl (hm _)
      · exact .inl (@next_error cfg k (.stmt s) _)
    · exact .inr rfl
    · exact .inr rfl
  | _ => exact .inl rfl

theorem World.Alike.coupon {cfg : Config} (s : CouponAdmin.AdminStmt) (w : World) : w.Alike
    ⟨(act cfg (.inl (.inr s)) w w).writes.foldl Catalogue.apply (act cfg (.inl (.inr s)) w w).world.db,
      (act cfg (.inl (.inr s)) w w).world.out⟩ := by
  cases s with
  | find q => exact .refl w
  | change u =>
    simp only [act, CouponAdmin.act]
    rcases u.plan_cases w.db w.out.uuid with ⟨e, ks, hplan⟩ | ⟨c, id', x, hplan, -, hx⟩
    · rw [hplan]
      exact ⟨rfl, rfl, rfl, rfl, rfl⟩
    · rw [hplan]
      cases hx <;> exact ⟨rfl, rfl, rfl, rfl, rfl⟩

/-- Every step is one of these. -/
theorem advance_of_traced {a : Act} (h : Charger cfg g t)
    (ht : Traced (service cfg) (charging cfg) (fun _ _ => True) (· ≠ .other) Write.Proper g t a) :
    ∃ g', Charger cfg g' ((service cfg).step t a) ∧ Advance cfg g t a ((service cfg).step t a) g' := by
  cases ht with
  | rests idle world sessions buffering =>
    refine ⟨g, buffering, .rests ?_ ?_⟩
    · rcases world with hw | ⟨v, hw⟩
      · rw [hw]
        exact .refl _
      · rw [hw]
        cases v <;> exact ⟨rfl, rfl, rfl, rfl, rfl⟩
    · rintro d ⟨j, u, hu, hlive, hj⟩
      rcases sessions j u hu with hu | hj'
      · exact ⟨j, u, hu, hlive, hj⟩
      · rw [h.later j (Nat.le_of_eq hj')] at hj
        cases hj
  | acts i u st k action thread prog may committed all world others buffering =>
    have hlive : ∀ d, g i = .read d → Reading g t d := fun d hd =>
      ⟨i, u, thread, by rw [prog]; rfl, hd⟩
    have hworld : ((service cfg).step t a).world =
        ⟨(act cfg st t.world t.world).writes.foldl Catalogue.apply (act cfg st t.world t.world).world.db,
          (act cfg st t.world t.world).world.out⟩ := by
      rw [world]
      split_ifs with hws
      · have hnone : (act cfg st t.world t.world).writes = [] := hws
        rw [hnone]
        rfl
      · rfl
    refine ⟨_, buffering, ?_⟩
    rcases st with (s | s) | s
    · refine .copies i _ _ _ (act_db cfg s _ _) (copies_of_may may) ?_ (by rw [hworld]; rfl) hlive
        fun d hd => hd.of_others others
      rw [hworld]
      exact applyAll_base _ _
    · have hsame : (charging cfg).next (g i) (.stmt (.inl (.inr s)))
          ((service cfg).act (.inl (.inr s)) t.world t.world).reply = g i := rfl
      rw [hsame, Function.update_eq_self]
      exact .rests (hworld ▸ World.Alike.coupon s t.world) fun d hd => hd.of_same others hlive
    · have hsame : (charging cfg).next (g i) (.stmt (.inr s))
          ((service cfg).act (.inr s) t.world t.world).reply = g i := rfl
      rw [hsame, Function.update_eq_self]
      have hreading : ∀ d, Reading g ((service cfg).step t a) d → Reading g t d :=
        fun d hd => hd.of_same others hlive
      cases s with
      | turfFindUnique id => exact .rests (hworld ▸ .refl t.world) hreading
      | turfUpdate id ch =>
        simp only [act] at hworld
        split at hworld
        · exact .rests (hworld ▸ .refl t.world) hreading
        · split_ifs at hworld with hfree
          · exact .rests (hworld ▸ .refl t.world) hreading
          · exact .edits i u id t.world.out.now ch k action thread prog hfree (by rw [hworld]; rfl)
              (by rw [hworld]) hreading
  | holds i u st view thread inside may idle world others buffering =>
    have hg := not_not.mp inside
    rw [hg] at may
    rcases st with (s | s) | s
    · have hs := ordinary_of_other may
      refine ⟨_, buffering, ?_⟩
      obtain ⟨hdb, hrequests, -⟩ := @act_ordinary cfg s ⟨view.db, view.out, []⟩
        ⟨t.world.db, t.world.out, []⟩ hs
      refine .copies i _ _ [] hdb (.ordinary (@next_ordinary cfg _ _ hs _) (by simp) hrequests) (by rw [world]; rfl)
        (by rw [world]; rfl) (fun d hd => ?_) fun d hd => hd.of_others others
      rw [hg] at hd
      cases hd
    · cases may
    · cases may
  | commits i u ws thread may committed held world others buffering =>
    obtain ⟨ys, hys, hfold⟩ := foldl_proper t.world.db held
    refine ⟨_, buffering, .copies i _ ⟨t.world.db, t.world.out, []⟩ ys rfl (.ordinary rfl hys rfl) ?_
      (by rw [world]; rfl) (fun d hd => ?_) fun d hd => hd.of_others others⟩
    · rw [world]
      exact hfold
    · rw [hd] at may
      rcases may with may | may
      · cases may
      · cases may
  | moves i u m r thread prog may cause idle world others buffering =>
    have hlive : ∀ d, g i = .read d → Reading g t d := fun d hd => ⟨i, u, thread, prog, hd⟩
    refine ⟨_, buffering, ?_⟩
    have hidle : (charging cfg).next (g i) m r = .other ∨ (charging cfg).next (g i) m r = g i :=
      next_idle (g i) cause
    rcases hidle with hnext | hnext
    · rw [hnext] at buffering ⊢
      exact .copies i _ ⟨t.world.db, t.world.out, []⟩ [] rfl (.ordinary rfl (by simp) rfl) (by rw [world]; rfl)
        (by rw [world]) hlive fun d hd => hd.of_others others
    · rw [hnext, Function.update_eq_self]
      exact .rests (world ▸ .refl t.world) fun d hd => hd.of_same others hlive

end

/-! ### Amounts -/

section

variable {cfg : Config} {g g' : ℕ → Stage} {s t t' : Sys} {a : Act} {as : List Act}

theorem Advance.charged (ha : Advance cfg g t a t' g') (h : Charged cfg
      (fun d => ∃ i, (g i).detail? = some d) t.world.db t.world.out.intentRequests) :
    Charged cfg (fun d => ∃ i, (g' i).detail? = some d) t'.world.db t'.world.out.intentRequests := by
  cases ha with
  | rests alike =>
    rw [alike.requests]
    exact h.of_tables alike.bookings alike.slots alike.payments
  | copies i next w' ws out copies db requests =>
    have hcopies := Charged.copies (w := ⟨t.world.db, t.world.out, []⟩) h (fun d hd => ⟨i, hd⟩) out copies
    rw [out] at hcopies
    rw [db, requests]
    exact hcopies.moved
  | edits i u id now ch k action thread prog free db requests =>
    rw [db, requests]
    exact h.of_tables rfl rfl rfl

theorem charged_always (hs : s.Fresh) : (service cfg).Always (fun t => ∃ g, Charger cfg g t ∧
    Charged cfg (fun d => ∃ i, (g i).detail? = some d) t.world.db t.world.out.intentRequests) s as := by
  refine Service.always_buffering (charging_answered cfg) (body_obeys_charging cfg) (charging_gated cfg)
    (charging_withholds cfg) (M := fun _ _ => True) (fun g t a hg h _ ht => ?_) hs.threads
    (hs.db.charging hs.intentRequests).charged (Service.each_of_forall (fun _ _ => trivial) s as)
  obtain ⟨g', hg', ha⟩ := advance_of_traced hg ht
  exact ⟨g', hg', ha.charged h⟩

/-- A payment has the amount of its booking, and every request to Stripe was for a hundred
times the amount of its booking. -/
structure Accurate (t : Sys) : Prop where
  payments : ∀ p ∈ t.world.db.payments, ∃ b, t.world.db.booking? p.bookingId = some b ∧
    p.amount = b.totalAmount
  requests : ∀ r ∈ t.world.out.intentRequests, ∃ b, t.world.db.booking? r.bookingId = some b ∧
    (r.amount : ℚ) = 100 * b.totalAmount

/-- In every state of every run the booked, charged and recorded amounts are one. -/
theorem amounts_accurate (hs : s.Fresh) : (service cfg).Always Accurate s as := by
  refine (charged_always hs).mono ?_
  rintro t ⟨g, -, h⟩
  refine ⟨fun p hp => ?_, fun r hr => ?_⟩
  · obtain ⟨b, hb, hamount, -⟩ := h.payments p hp
    exact ⟨b, hb, hamount⟩
  · obtain ⟨b, hb, slot, -, hr⟩ := h.requests r hr
    have hcents : InCents b.totalAmount := h.cents b (Db.mem_of_booking? hb).1
    have hamount : r.amount = mathRound (b.totalAmount * 100) := by rw [hr]
    refine ⟨b, hb, ?_⟩
    rw [hamount, mul_comm 100]
    exact hcents

end

namespace Arena

def sys : Sys := ⟨⟨TurfSync.Arena.db, TurfSync.Arena.sys.world.out⟩, []⟩

theorem fresh : sys.Fresh := ⟨rfl, TurfSync.Arena.fresh.db, rfl⟩

/-- Call `i` arrives and executes `n` statements. -/
def first (i : ℕ) (c : Call) (n : ℕ) : List Act := .spawn c :: List.replicate n (.run i)

/-- User 7 books slot 1, the payment fails, and after an edit of the turf it is tried again. -/
def retried (dto : UpdateTurfDto) : List Act :=
  first 0 (.booking (.create (TurfSync.Arena.dto 1 none) 7 0)) 20 ++
    first 1 (.booking (.createPaymentIntent 101 7)) 5 ++
    first 2 (.booking (.handleWebhook (some 2))) 8 ++ first 3 (.updateTurf 1 dto) 2 ++
    first 4 (.booking (.createPaymentIntent 101 7)) 5

end Arena

/-- The price of the turf goes up before the second attempt. -/
theorem amounts_accurate_arena : (service (TurfSync.Arena.cfg true)).Always Accurate Arena.sys
    (Arena.retried { pricePerHour := some 1200 }) := amounts_accurate Arena.fresh

/-! ### Names -/

/-- The booking that a command asks an intent for. -/
def asksFor : Cmd Stmt → Option BookingId
  | .stmt (.inl (.inl (.external (.createIntent r)))) => some r.bookingId
  | _ => none

/-- The turf that a command gives another name. -/
def renames (db : Db) : Cmd Stmt → Option TurfId
  | .stmt (.inr (.turfUpdate id ch)) =>
    if (∃ turf ∈ db.turf? id, ch.name?.getD turf.name ≠ turf.name) ∧ ¬ NameTaken db id ch then some id
    else none
  | _ => none

/-- Stripe has been asked for an intent of the booking, or a session is about to ask. -/
def Sys.Asked (t : Sys) (id : BookingId) : Prop :=
  (∃ r ∈ t.world.out.intentRequests, r.bookingId = id) ∨
    ∃ u ∈ t.threads, ¬ u.prog.Next fun m => asksFor m ≠ some id

instance (t : Sys) (id : BookingId) : Decidable (t.Asked id) :=
  inferInstanceAs (Decidable (_ ∨ ∃ u ∈ t.threads, _))

/-- A turf that is given another name has no booking that an intent has been asked for. -/
def Steady (t : Sys) : Act → Prop
  | .run i => ∀ u ∈ t.threads[i]?, u.prog.Next fun m => ∀ id ∈ renames t.world.db m,
      ∀ b ∈ t.world.db.bookings, b.turfId = id → ¬ t.Asked b.id
  | _ => True

instance (t : Sys) : (a : Act) → Decidable (Steady t a)
  | .run i => inferInstanceAs (Decidable (∀ u ∈ t.threads[i]?, _))
  | .spawn _ => inferInstanceAs (Decidable True)
  | .fault _ => inferInstanceAs (Decidable True)
  | .env _ => inferInstanceAs (Decidable True)

section

variable {cfg : Config} {g g' : ℕ → Stage} {s t t' : Sys} {a : Act} {as : List Act}

/-- What a session has read it is about to ask for. -/
theorem Reading.asked (hg : Charger cfg g t) {d : BookingDetail} (h : Reading g t d) :
    t.Asked d.booking.id := by
  obtain ⟨i, u, hu, hlive, hd⟩ := h
  have hobeys := hg.obeys i u hu
  refine .inr ⟨u, List.mem_of_getElem? hu, ?_⟩
  cases hp : u.prog with
  | ret a => rw [hp] at hlive; cases hlive
  | throw e => rw [hp] at hlive; cases hlive
  | call m k =>
    rw [hp] at hobeys
    have hmay : (charging cfg).may (.read d) m := hd ▸ hobeys.1
    have hnot : ∀ m' : Cmd TurfSync.Stmt, (TurfSync.charging cfg).may (.read d) m' →
        m' = .stmt (.external (.createIntent (intentRequest cfg d))) := fun _ => eq_of_may_read
    cases m with
    | stmt st =>
      rcases st with (st | st) | st
      · obtain rfl := Cmd.stmt.inj (hnot (.stmt st) hmay)
        exact fun hnext => hnext rfl
      · cases hmay
      · cases hmay
    | begin => cases hnot .begin hmay
    | commit => cases hnot .commit hmay
    | rollback => cases hnot .rollback hmay

/-- The name of the turf stays, but for the turf that the command renames. -/
theorem names_edits {db : Db} {r : IntentRequest} (h : db.Names r) (id : TurfId) (now : Time)
    (ch : TurfChange) (hkeep : ∀ b, db.booking? r.bookingId = some b → b.turfId = id →
      ∀ turf, db.turf? id = some turf → ch.name?.getD turf.name = turf.name) :
    (Catalogue.apply db (.turfSet id now ch)).Names r := by
  obtain ⟨b, hb, turf, hturf, hr⟩ := h
  have hlookup : (Catalogue.apply db (.turfSet id now ch)).turf? b.turfId =
      if b.turfId ∈ [id] then (db.turf? b.turfId).map (ch.set now) else db.turf? b.turfId :=
    Rows.lookup_update (ch.set_id now)
  by_cases hid : b.turfId = id
  · refine ⟨b, hb, ch.set now turf, ?_, ?_⟩
    · rw [hlookup, if_pos (List.mem_singleton.mpr hid), hturf]
      rfl
    · rw [ch.set_name, hkeep b hb hid turf (hid ▸ hturf)]
      exact hr
  · refine ⟨b, hb, turf, ?_, hr⟩
    rw [hlookup, if_neg (fun hm => hid (List.mem_singleton.mp hm))]
    exact hturf

theorem Advance.named (hg : Charger cfg g t) (ha : Advance cfg g t a t' g') (hsteady : Steady t a)
    (h : Named cfg (Reading g t) t.world.db t.world.out.intentRequests) :
    Named cfg (Reading g' t') t'.world.db t'.world.out.intentRequests := by
  cases ha with
  | rests alike reading =>
    rw [alike.requests]
    exact (h.retains (.of_tables alike.bookings alike.slots) alike.turfs).mono reading
  | copies i next w' ws out copies db requests live reading =>
    have hcopies := Named.copies (w := ⟨t.world.db, t.world.out, []⟩) h live out copies
    rw [out] at hcopies
    rw [db, requests]
    exact hcopies.mono reading
  | edits i u id now ch k action thread prog free db requests reading =>
    subst action
    have hnext := hsteady u thread
    rw [prog] at hnext
    rw [db, requests]
    -- what has been asked for, or will be, keeps its name
    have hkept : ∀ r, t.Asked r.bookingId → t.world.db.Names r →
        (Catalogue.apply t.world.db (.turfSet id now ch)).Names r := by
      intro r hasked hr
      refine names_edits hr id now ch fun b hb hid turf hturf => ?_
      by_contra hname
      have hrenames : renames t.world.db (.stmt (.inr (.turfUpdate id ch))) = some id :=
        if_pos ⟨⟨turf, hturf, hname⟩, free⟩
      obtain ⟨hm, hbid⟩ := Db.mem_of_booking? hb
      exact hnext id hrenames b hm hid (hbid ▸ hasked)
    exact ⟨fun d hd => hkept _ ((reading d hd).asked hg) (h.seen d (reading d hd)),
      fun r hr => hkept r (.inl ⟨r, hr, rfl⟩) (h.requests r hr)⟩

/-- Two requests to Stripe with one key are the same. -/
def Repeats (t : Sys) : Prop := ∀ r ∈ t.world.out.intentRequests, ∀ r' ∈ t.world.out.intentRequests,
  r.bookingId = r'.bookingId → r = r'

instance (t : Sys) : Decidable (Repeats t) :=
  inferInstanceAs (Decidable (∀ r ∈ t.world.out.intentRequests, ∀ r' ∈ t.world.out.intentRequests, _))

/-- In every run in which no turf is renamed once an intent has been asked for one of its
bookings, the requests to Stripe repeat themselves. -/
theorem requests_repeat (hs : s.Fresh) (hM : (service cfg).Each Steady s as) :
    (service cfg).Always Repeats s as := by
  have halways : (service cfg).Always (fun t => ∃ g, Charger cfg g t ∧
      (Charged cfg (fun d => ∃ i, (g i).detail? = some d) t.world.db t.world.out.intentRequests ∧
        Named cfg (Reading g t) t.world.db t.world.out.intentRequests)) s as := by
    refine Service.always_buffering (charging_answered cfg) (body_obeys_charging cfg)
      (charging_gated cfg) (charging_withholds cfg) (fun g t a hg h hm ht => ?_) hs.threads ?_ hM
    · obtain ⟨g', hg', ha⟩ := advance_of_traced hg ht
      exact ⟨g', hg', ha.charged h.1, ha.named hg hm h.2⟩
    · have hfresh := (hs.db.charging hs.intentRequests : Charging cfg _ _ _)
      refine ⟨hfresh.charged, hfresh.named.mono ?_⟩
      rintro d ⟨i, -, -, -, hd⟩
      exact ⟨i, hd⟩
  refine halways.mono ?_
  rintro t ⟨g, -, hc, hn⟩ r hr r' hr' hid
  exact (hc.requests r hr).eq (hc.requests r' hr') (hn.requests r hr) (hn.requests r' hr') hid

end

theorem requests_repeat_arena : (service (TurfSync.Arena.cfg true)).Always Repeats Arena.sys
    (Arena.retried { pricePerHour := some 1200 }) :=
  requests_repeat Arena.fresh (by decide +kernel)

/-- The turf gets another name before the second attempt, which Stripe rejects. -/
theorem requests_repeat_fails :
    let t := (service (TurfSync.Arena.cfg true)).run Arena.sys
      (Arena.retried { name := some "Stadium" })
    Arena.sys.Fresh ∧ ¬ Repeats t ∧
      t.Ended 4 (.booking (.createPaymentIntent 101 7)) (.error .stripe) :=
  ⟨Arena.fresh, by decide +kernel, by decide +kernel⟩

end TurfSync.Catalogue
