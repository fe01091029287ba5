import TurfSync.Protocol.Confirmed
import TurfSync.Protocol.Footprints
import TurfSync.Txn.Automaton

/-! Where the calls are when they tell a customer of a booking. A booking is CONFIRMED under
its lock, and the job for it is queued before the commit; `cancel` queues its job after the
commit. -/

namespace TurfSync

open Txn

namespace Job

/-- The booking that the customer is told is confirmed. -/
def confirms : Job → Option BookingId
  | .bookingConfirmed id _ _ _ _ => some id
  | .paymentSuccess _ _ booking => some booking.id
  | _ => none

/-- The booking of a booking-confirmed job. -/
def books : Job → Option BookingId
  | .bookingConfirmed id _ _ _ _ => some id
  | _ => none

/-- The booking of a payment-success job. -/
def pays : Job → Option BookingId
  | .paymentSuccess _ _ booking => some booking.id
  | _ => none

/-- The booking that the customer is told is cancelled. -/
def cancels : Job → Option BookingId
  | .bookingCancelled booking => some booking.id
  | _ => none

theorem confirms_iff {job : Job} {id : BookingId} :
    id ∈ job.confirms ↔ id ∈ job.books ∨ id ∈ job.pays := by
  cases job <;> simp [confirms, books, pays]

end Job

/-- The job that a command puts on the queue. -/
def put? : Cmd Stmt → Option Job
  | .stmt (.external (.queueAdd job)) => some job
  | _ => none

def isCommit : Cmd Stmt → Bool
  | .commit => true
  | _ => false

/-! ### The stages of a call -/

/-- Where a call is: outside any transaction; in one that has registered an event at most; with
a PENDING booking under its lock; with the booking set CONFIRMED, and with the customer told
so; with a booking set CANCELLED, and with that committed; or anywhere else in a transaction. -/
inductive Telling where
  | out
  | opened
  | locked (id : BookingId)
  | confirmed (id : BookingId)
  | told (id : BookingId)
  | cancelling (id : BookingId)
  | cancelled (id : BookingId)
  | other
  deriving DecidableEq

namespace Telling

/-- A PENDING booking has been locked. -/
def lock (id : BookingId) : Telling → Telling
  | .opened => .locked id
  | g => g

/-- A write that is not listed. -/
def write : Telling → Telling
  | .opened => .other
  | g => g

def confirm (id : BookingId) : Telling → Telling
  | .locked _ => .confirmed id
  | g => g.write

def cancel (id : BookingId) : Telling → Telling
  | .opened => .cancelling id
  | .locked _ => .cancelling id
  | g => g

def tell : Telling → Telling
  | .confirmed id => .told id
  | g => g

def commit : Telling → Telling
  | .cancelling id => .cancelled id
  | _ => .out

end Telling

/-- A booking is CONFIRMED under its lock, and the customer told of it next; the customer is
told of a cancellation after the commit. -/
def telling : Automaton Stmt Stmt.Reply Err Telling where
  init := .out
  may g m := (∀ id, g = .told id → isCommit m = true) ∧ match m with
    | .stmt (.update (.bookingUpdate id .CONFIRMED)) => g = .locked id
    | .stmt (.external (.queueAdd (.paymentSuccess _ _ booking))) => g = .confirmed booking.id
    | .stmt (.external (.queueAdd (.bookingCancelled booking))) => g = .cancelled booking.id
    | _ => True
  answers
    | .stmt (.query (.bookingFindUnique id)), .ok (some b) => b.id = id
    | .stmt (.query (.paymentByIntent _)), .ok (some (p, b)) => b.id = p.bookingId
    | _, _ => True
  next g
    | .begin, .ok _ => .opened
    | .begin, .error _ => g
    | .commit, .ok _ => g.commit
    | .commit, .error _ => .out
    | .rollback, _ => .out
    | .stmt (.lock (.booking id)), .ok (some b) => if b.status = .PENDING then g.lock id else g
    | .stmt (.update (.webhookEventCreate _)), _ => g
    | .stmt (.update (.bookingUpdate id .CONFIRMED)), .ok _ => g.confirm id
    | .stmt (.update (.bookingUpdate id .CANCELLED)), .ok _ => g.cancel id
    | .stmt (.update _), _ => g.write
    | .stmt (.external (.queueAdd (.paymentSuccess _ _ _))), .ok _ => g.tell
    | _, _ => g

/-- What the stage says of the session and of the database. -/
def Telling.Sits (l : Local Key Write) (w : World) : Telling → Prop
  | .out => True
  | .opened => ∃ ws, l.tx = some ws ∧ ∀ x ∈ ws, ∃ id, x = .eventInsert id
  | .locked id => l.tx.isSome ∧ .booking id ∈ l.held ∧ ∃ b, w.db.booking? id = some b ∧ b.status = .PENDING
  | .confirmed id | .told id => (∃ ws, l.tx = some ws ∧ .bookingSet [id] .CONFIRMED ∈ ws) ∧
    .booking id ∈ l.held ∧ ∃ b, w.db.booking? id = some b ∧ b.status = .PENDING
  | .cancelling id => ∃ ws, l.tx = some ws ∧ .bookingSet [id] .CANCELLED ∈ ws
  | .cancelled id => w.Made .CANCELLED id
  | .other => True

section

variable {cfg : Config} {g : Telling} {l : Local Key Write} {w w' : World} {s : Stmt}

/-- What the others do leaves a session where it is. -/
theorem Telling.Sits.rely {n : ℕ} (h : g.Sits l w) (hr : w.Rely n l.held w') : g.Sits l w' := by
  have hrow : ∀ id, Key.booking id ∈ l.held → w'.db.booking? id = w.db.booking? id :=
    fun id hk => hr.db.bookingLock id hk
  cases g with
  | locked id => exact ⟨h.1, h.2.1, by rw [hrow id h.2.1]; exact h.2.2⟩
  | confirmed id => exact ⟨h.1, h.2.1, by rw [hrow id h.2.1]; exact h.2.2⟩
  | told id => exact ⟨h.1, h.2.1, by rw [hrow id h.2.1]; exact h.2.2⟩
  | cancelled id => exact World.Made.mono h hr.history
  | _ => exact h

/-- A session that goes on in its transaction. -/
theorem Telling.Sits.extend {l' : Local Key Write} (h : g.Sits l w)
    (htx : ∀ ws, l.tx = some ws → ∃ ws', l'.tx = some (ws ++ ws') ∧
      (g = .opened → ∀ x ∈ ws', ∃ id, x = .eventInsert id))
    (hheld : ∀ key ∈ l.held, key ∈ l'.held) (hdb : l.tx.isSome → w'.db = w.db)
    (hhistory : ∀ e ∈ w.history, e ∈ w'.history) : g.Sits l' w' := by
  cases g with
  | out => trivial
  | other => trivial
  | opened =>
    obtain ⟨ws, hws, hevents⟩ := h
    obtain ⟨ws', hws', hevents'⟩ := htx ws hws
    refine ⟨ws ++ ws', hws', fun x hx => ?_⟩
    rcases List.mem_append.mp hx with hx | hx
    · exact hevents x hx
    · exact hevents' rfl x hx
  | locked id =>
    obtain ⟨hsome, hkey, hrow⟩ := h
    obtain ⟨ws, hws⟩ := Option.isSome_iff_exists.mp hsome
    obtain ⟨ws', hws', -⟩ := htx ws hws
    exact ⟨by rw [hws']; rfl, hheld _ hkey, by rw [hdb hsome]; exact hrow⟩
  | confirmed id | told id =>
    obtain ⟨⟨ws, hws, hx⟩, hkey, hrow⟩ := h
    obtain ⟨ws', hws', -⟩ := htx ws hws
    exact ⟨⟨ws ++ ws', hws', List.mem_append_left _ hx⟩, hheld _ hkey,
      by rw [hdb (by rw [hws]; rfl)]; exact hrow⟩
  | cancelling id =>
    obtain ⟨ws, hws, hx⟩ := h
    obtain ⟨ws', hws', -⟩ := htx ws hws
    exact ⟨ws ++ ws', hws', List.mem_append_left _ hx⟩
  | cancelled id => exact World.Made.mono h hhistory

/-- A statement of a call. -/
theorem Telling.Sits.stmt (h : g.Sits l w) (c : Session Call) (s : Stmt)
    (hevents : g = .opened → ∀ view, ∀ x ∈ (Stmt.act cfg s view w).writes, ∃ id, x = .eventInsert id) :
    g.Sits ((engine cfg).exec l w (.stmt s)).loc ((engine cfg).after c ((engine cfg).exec l w (.stmt s))) := by
  cases htx : l.tx with
  | none =>
    have hloc : ((engine cfg).exec l w (.stmt s)).loc = l := by rw [Engine.exec_auto htx]
    rw [hloc, Engine.after_auto htx]
    have hhistory : (Stmt.act cfg s w w).world.history = w.history := by cases s <;> rfl
    refine h.extend (fun ws hws => ?_) (fun key hkey => hkey) (fun hsome => ?_) fun e he => ?_
    · rw [htx] at hws
      cases hws
    · rw [htx] at hsome
      cases hsome
    · split_ifs
      · exact hhistory ▸ he
      · exact List.mem_append_left _ (hhistory ▸ he)
  | some ws =>
    rw [Engine.after_tx htx, Engine.exec_tx htx]
    refine h.extend (fun ws₀ hws₀ => ?_) (fun key hkey => List.mem_append_right _ hkey) (fun _ => ?_)
      fun e he => ?_
    · rw [htx] at hws₀
      obtain rfl := Option.some.inj hws₀
      exact ⟨_, rfl, fun hg => hevents hg _⟩
    · cases s <;> rfl
    · cases s <;> exact he

/-- A statement that writes nothing. -/
theorem Telling.Sits.read (h : g.Sits l w) (c : Session Call) (s : Stmt)
    (hs : ∀ view, (Stmt.act cfg s view w).writes = []) :
    g.Sits ((engine cfg).exec l w (.stmt s)).loc ((engine cfg).after c ((engine cfg).exec l w (.stmt s))) := by
  refine h.stmt c s fun _ view x hx => ?_
  rw [hs view] at hx
  cases hx

theorem Telling.sits_write (h : g ≠ .opened → g.Sits l w) : g.write.Sits l w := by
  cases g with
  | opened => trivial
  | _ => exact h nofun

theorem bookings_of_events {ws : List Write} (hws : ∀ x ∈ ws, ∃ id, x = .eventInsert id) (db : Db) :
    (db.applyAll ws).bookings = db.bookings := by
  induction ws generalizing db with
  | nil => rfl
  | cons x ws ih =>
    obtain ⟨id, rfl⟩ := hws x List.mem_cons_self
    exact ih (fun y hy => hws y (List.mem_cons_of_mem _ hy)) _

/-- The lock of a booking shows its row, as long as nothing but events has been written. -/
theorem Telling.Sits.lock (h : g.Sits l w) (c : Session Call) (id : BookingId) :
    (telling.next g (.stmt (.lock (.booking id))) ((engine cfg).exec l w (.stmt (.lock (.booking id)))).reply).Sits
      ((engine cfg).exec l w (.stmt (.lock (.booking id)))).loc
      ((engine cfg).after c ((engine cfg).exec l w (.stmt (.lock (.booking id))))) := by
  have hstay := @Telling.Sits.read cfg g l w h c (.lock (.booking id)) fun _ => rfl
  cases hr : ((engine cfg).exec l w (.stmt (.lock (.booking id)))).reply with
  | error e => exact hstay
  | ok found =>
    cases found with
    | none => exact hstay
    | some b =>
      show Telling.Sits _ _ (if b.status = .PENDING then g.lock id else g)
      split_ifs with hpending
      swap
      · exact hstay
      cases g with
      | opened =>
        obtain ⟨ws, hws, hevents⟩ := h
        have hview : ((engine cfg).view ws w).db.booking? id = w.db.booking? id := by
          rw [view_db, Db.booking?, bookings_of_events hevents]
          rfl
        simp only [Engine.exec, hws] at hr ⊢
        have hreply : ((RowLock.booking id).eval ((engine cfg).view ws w).db).1 = some b := Except.ok.inj hr
        simp only [RowLock.eval, hview] at hreply
        cases hrow : w.db.booking? id with
        | none =>
          simp only [hrow] at hreply
          cases hreply
        | some b' =>
          simp only [hrow] at hreply
          obtain rfl := Option.some.inj hreply
          have hlocks : ((engine cfg).act (.lock (.booking id)) ((engine cfg).view ws w) w).locks =
              [.booking id] := by
            show ((RowLock.booking id).eval ((engine cfg).view ws w).db).2 = _
            simp only [RowLock.eval, hview, hrow]
          exact ⟨rfl, by rw [hlocks]; exact List.mem_cons_self, b', hrow, hpending⟩
      | _ => exact hstay

/-- What a status update leaves in the transaction. -/
theorem exec_bookingUpdate {ws : List Write} (hws : l.tx = some ws) (id : BookingId)
    (status : BookingStatus) (hr : ∃ a, ((engine cfg).exec l w (.stmt (.update (.bookingUpdate id status)))).reply = .ok a) :
    ((engine cfg).exec l w (.stmt (.update (.bookingUpdate id status)))).loc.tx =
      some (ws ++ [.bookingSet [id] status]) := by
  simp only [Engine.exec, hws] at hr ⊢
  rcases plan_bookingUpdate cfg id status ((engine cfg).view ws w).db w.out.uuid w.out.now with hplan | hplan
  · obtain ⟨a, ha⟩ := hr
    have hreply : ((Update.bookingUpdate id status).plan cfg ((engine cfg).view ws w).db w.out.uuid
        w.out.now).reply = .ok a := ha
    rw [hplan] at hreply
    cases hreply
  · have hwrites : ((engine cfg).act (.update (.bookingUpdate id status)) ((engine cfg).view ws w) w).writes =
        [.bookingSet [id] status] := congrArg Planned.writes hplan
    rw [hwrites]

theorem Telling.Sits.update (h : g.Sits l w) (c : Session Call) (v : Update)
    (hmay : telling.may g (.stmt (.update v))) :
    (telling.next g (.stmt (.update v)) ((engine cfg).exec l w (.stmt (.update v))).reply).Sits
      ((engine cfg).exec l w (.stmt (.update v))).loc
      ((engine cfg).after c ((engine cfg).exec l w (.stmt (.update v)))) := by
  have hstay : g ≠ .opened → g.Sits ((engine cfg).exec l w (.stmt (.update v))).loc
      ((engine cfg).after c ((engine cfg).exec l w (.stmt (.update v)))) :=
    fun hg => h.stmt c (.update v) fun ho => absurd ho hg
  have hwrite := Telling.sits_write hstay
  cases v with
  | webhookEventCreate id =>
    refine h.stmt c _ fun _ view x hx => ⟨id, ?_⟩
    rcases PaymentService.plan_webhookEventCreate cfg view.db w.out.uuid w.out.now id with ⟨-, hplan⟩ | ⟨-, hplan⟩
    · have hwrites : (Stmt.act cfg (.update (.webhookEventCreate id)) view w).writes = [] :=
        congrArg Planned.writes hplan
      rw [hwrites] at hx
      cases hx
    · have hwrites : (Stmt.act cfg (.update (.webhookEventCreate id)) view w).writes = [.eventInsert id] :=
        congrArg Planned.writes hplan
      rw [hwrites] at hx
      exact List.mem_singleton.mp hx
  | bookingUpdate id status =>
    cases hr : ((engine cfg).exec l w (.stmt (.update (.bookingUpdate id status)))).reply with
    | error e =>
      cases status <;> exact hwrite
    | ok _ =>
      cases status with
      | PENDING => exact hwrite
      | COMPLETED => exact hwrite
      | CONFIRMED =>
        obtain rfl : g = .locked id := hmay.2
        have hlocked := hstay nofun
        obtain ⟨ws, hws⟩ := Option.isSome_iff_exists.mp h.1
        exact ⟨⟨_, exec_bookingUpdate hws id .CONFIRMED ⟨_, hr⟩, by simp⟩, hlocked.2⟩
      | CANCELLED =>
        show (g.cancel id).Sits _ _
        cases g with
        | opened =>
          obtain ⟨ws, hws, -⟩ := h
          exact ⟨_, exec_bookingUpdate hws id .CANCELLED ⟨_, hr⟩, by simp⟩
        | locked id' =>
          obtain ⟨ws, hws⟩ := Option.isSome_iff_exists.mp h.1
          exact ⟨_, exec_bookingUpdate hws id .CANCELLED ⟨_, hr⟩, by simp⟩
        | _ => exact hstay nofun
  | _ => exact hwrite

theorem next_query (q : Query) (r : Except Err q.Reply) : telling.next g (.stmt (.query q)) r = g := rfl

/-- Of the row locks, only those of bookings count. -/
theorem next_lockRow {row : RowLock} (hrow : ∀ id, row ≠ .booking id) (r : Except Err row.Reply) :
    telling.next g (.stmt (.lock row)) r = g := by
  cases row with
  | booking id => exact absurd rfl (hrow id)
  | _ => rfl

/-- Only the put of a payment-success job counts. -/
theorem next_external {x : External} (hx : ∀ id amount booking, x ≠ .queueAdd (.paymentSuccess id amount booking))
    (r : Except Err x.Reply) : telling.next g (.stmt (.external x)) r = g := by
  cases x with
  | queueAdd job =>
    cases job with
    | paymentSuccess id amount booking => exact absurd rfl (hx id amount booking)
    | _ => rfl
  | _ => rfl

/-- A command of a call. -/
theorem Telling.Sits.step (h : g.Sits l w) (c : Session Call) (m : Cmd Stmt) (hmay : telling.may g m) :
    (telling.next g m ((engine cfg).exec l w m).reply).Sits ((engine cfg).exec l w m).loc
      ((engine cfg).after c ((engine cfg).exec l w m)) := by
  cases m with
  | begin => exact ⟨[], rfl, fun _ hx => absurd hx List.not_mem_nil⟩
  | rollback => trivial
  | commit =>
    show g.commit.Sits _ _
    cases g with
    | cancelling id =>
      obtain ⟨ws, hws, hx⟩ := h
      refine ⟨⟨c, l.tx.getD [], w.db⟩, List.mem_append_right _ List.mem_cons_self,
        .bookingSet [id] .CANCELLED, ?_, rfl, List.mem_cons_self⟩
      rw [hws]
      exact hx
    | _ => trivial
  | stmt s =>
    cases s with
    | query q =>
      rw [next_query]
      exact h.read c (.query q) fun _ => rfl
    | lock r =>
      by_cases hr : ∃ id, r = .booking id
      · obtain ⟨id, rfl⟩ := hr
        exact h.lock c id
      · rw [next_lockRow fun id he => hr ⟨id, he⟩]
        exact h.read c (.lock r) fun _ => rfl
    | external x =>
      have hstay := @Telling.Sits.read cfg g l w h c (.external x) fun _ => rfl
      by_cases hx : ∃ id amount booking, x = .queueAdd (.paymentSuccess id amount booking)
      · obtain ⟨paymentId, amount, booking, rfl⟩ := hx
        obtain rfl : g = .confirmed booking.id := hmay.2
        generalize ((engine cfg).exec l w
          (.stmt (.external (.queueAdd (.paymentSuccess paymentId amount booking))))).reply = r
        cases r with
        | error e => exact hstay
        | ok _ => exact hstay
      · rw [next_external fun id amount booking he => hx ⟨id, amount, booking, he⟩]
        exact hstay
    | update v => exact h.update c v hmay

/-- A command that fails. -/
theorem Telling.Sits.fail (h : g.Sits l w) (m : Cmd Stmt) (e : Err) :
    (telling.next g m (.error e)).Sits (Engine.failed l m) w := by
  cases m with
  | begin => exact h
  | commit => trivial
  | rollback => trivial
  | stmt s =>
    cases s with
    | query q => exact h
    | lock r => cases r <;> exact h
    | external x =>
      cases x with
      | queueAdd job => cases job <;> exact h
      | _ => exact h
    | update v =>
      cases v with
      | webhookEventCreate id => exact h
      | bookingUpdate id status => cases status <;> exact Telling.sits_write fun _ => h
      | _ => exact Telling.sits_write fun _ => h

end

/-! ### The calls -/

theorem telling_answered (cfg : Config) : telling.Answered (engine cfg) where
  exec l w m := by
    have hact : ∀ s view, telling.answers (.stmt s) (Stmt.act cfg s view w).reply := by
      intro s view
      cases s with
      | query q =>
        cases q with
        | bookingFindUnique id =>
          cases hfound : view.db.booking? id with
          | none =>
            simp only [Stmt.act, Query.eval, hfound]
            trivial
          | some b =>
            simp only [Stmt.act, Query.eval, hfound]
            exact (Db.mem_of_booking? hfound).2
        | paymentByIntent intent =>
          cases hfound : (Query.paymentByIntent intent).eval view.db with
          | none =>
            simp only [Stmt.act, hfound]
            trivial
          | some row =>
            simp only [Stmt.act, hfound]
            simp only [Query.eval, Option.bind_eq_bind, Option.bind_eq_some_iff] at hfound
            obtain ⟨p, -, b, hb, hrow⟩ := hfound
            obtain rfl := Option.some.inj hrow
            exact (Db.mem_of_booking? hb).2
        | _ => trivial
      | _ => trivial
    cases m with
    | stmt s => exact Engine.exec_reply (hact s) l
    | _ => trivial
  fault m := by
    cases m with
    | stmt s =>
      cases s with
      | query q => cases q <;> trivial
      | _ => trivial
    | _ => trivial

/-- A statement that leads to no confirmation and tells of none, nor of a cancellation. -/
def Stmt.quiet : Stmt → Bool
  | .update (.bookingUpdate _ .CONFIRMED) => false
  | .external (.queueAdd (.paymentSuccess _ _ _)) => false
  | .external (.queueAdd (.bookingCancelled _)) => false
  | _ => true

/-- Anything may come next. -/
def Telling.Open (g : Telling) : Prop := ∀ id, g ≠ .told id

namespace Telling

theorem open_out : Open .out := nofun

theorem open_opened : Open .opened := nofun

theorem open_locked (id : BookingId) : Open (.locked id) := nofun

theorem open_cancelling (id : BookingId) : Open (.cancelling id) := nofun

theorem open_cancelled (id : BookingId) : Open (.cancelled id) := nofun

end Telling

section

variable {g : Telling} {α β : Type} {Q : Telling → Except Err β → Prop}

theorem may_quiet {s : Stmt} (hs : s.quiet = true) (hg : g.Open) : telling.may g (.stmt s) := by
  refine ⟨fun id hid => absurd hid (hg id), ?_⟩
  cases s with
  | update v =>
    cases v with
    | bookingUpdate id status => cases status <;> trivial
    | _ => trivial
  | external x =>
    cases x with
    | queueAdd job => cases job <;> trivial
    | _ => trivial
  | _ => trivial

theorem open_quiet {s : Stmt} (hs : s.quiet = true) (hg : g.Open) (r : Except Err s.Reply) :
    (telling.next g (.stmt s) r).Open := by
  have hlock : ∀ id, (g.lock id).Open := fun id => by cases g <;> first | exact hg | exact nofun
  have hwrite : g.write.Open := by cases g <;> first | exact hg | exact nofun
  have hcancel : ∀ id, (g.cancel id).Open := fun id => by cases g <;> first | exact hg | exact nofun
  cases s with
  | query q => exact hg
  | lock l =>
    cases l with
    | booking id =>
      cases r with
      | error e => exact hg
      | ok found =>
        cases found with
        | none => exact hg
        | some b =>
          show (if b.status = .PENDING then g.lock id else g).Open
          split_ifs
          · exact hlock id
          · exact hg
    | _ => exact hg
  | update v =>
    cases v with
    | webhookEventCreate id => exact hg
    | bookingUpdate id status =>
      cases r with
      | error e => cases status <;> exact hwrite
      | ok _ =>
        cases status with
        | CONFIRMED => cases hs
        | CANCELLED => exact hcancel id
        | _ => exact hwrite
    | _ => exact hwrite
  | external x =>
    cases x with
    | queueAdd job => cases job <;> first | exact hg | cases hs
    | _ => exact hg

theorem open_bracket {m : Cmd Stmt} (hm : ∀ s, m ≠ .stmt s) (hg : g.Open)
    (r : Except Err (m.Reply Stmt.Reply)) : (telling.next g m r).Open := by
  cases m with
  | stmt s => exact absurd rfl (hm s)
  | begin =>
    cases r with
    | error e => exact hg
    | ok _ => exact nofun
  | rollback => exact nofun
  | commit =>
    cases r with
    | error e => exact nofun
    | ok _ =>
      show g.commit.Open
      cases g <;> exact nofun

/-- A program of quiet statements. -/
theorem obeys_of_quiet {p : Op α} (hp : Stays Stmt.quiet p) (hg : g.Open) :
    p.Obeys telling g fun g' _ => g'.Open := by
  refine Script.obeys_mono (Script.obeys_of_uses (J := Telling.Open) ?_ hp hg) fun _ _ h => h.1
  intro g m hm hg
  cases m with
  | stmt s => exact ⟨may_quiet hm hg, open_quiet hm hg⟩
  | _ => exact ⟨⟨fun id hid => absurd hid (hg id), trivial⟩, open_bracket (fun _ => nofun) hg⟩

theorem obeys_quiet {s : Stmt} (hs : s.quiet = true) (hg : g.Open) {f : s.Reply → Op β}
    (hok : ∀ a, (f a).Obeys telling (telling.next g (.stmt s) (.ok a)) Q)
    (herr : ∀ e, Q (telling.next g (.stmt s) (.error e)) (.error e)) :
    Script.Obeys telling g (Prog.bind (Script.perform s) f) Q :=
  Script.obeys_stmt (may_quiet hs hg) (fun a _ => hok a) herr

/-- Calls other than these two. -/
theorem quiet_of_issues {c : Call} (hcancel : ∀ id userId, c ≠ .cancel id userId)
    (hwebhook : ∀ event, c ≠ .handleWebhook event) {s : Stmt} (h : c.issues s = true) : s.quiet = true := by
  cases s with
  | update v =>
    cases v with
    | bookingUpdate id status =>
      cases status with
      | CONFIRMED =>
        cases c with
        | handleWebhook event => exact absurd rfl (hwebhook event)
        | _ => cases h
      | _ => rfl
    | _ => rfl
  | external x =>
    cases x with
    | queueAdd job =>
      cases job with
      | paymentSuccess id amount booking =>
        cases c with
        | handleWebhook event => exact absurd rfl (hwebhook event)
        | _ => cases h
      | bookingCancelled booking =>
        cases c with
        | cancel id userId => exact absurd rfl (hcancel id userId)
        | _ => cases h
      | _ => rfl
    | _ => rfl
  | _ => rfl

/-- The lock of a booking at the start of a transaction. -/
theorem next_lock (id : BookingId) (b : Booking) :
    telling.next .opened (.stmt (.lock (.booking id))) (.ok (some b)) =
      if b.status = .PENDING then .locked id else .opened := rfl

theorem closes_error_telling {P : α → Telling → Prop} (hg : g.Open) (e : Err) :
    Script.Closes telling (fun g r => ∀ a, r = .ok a → P a g) g (.error e) :=
  ⟨⟨fun id hid => absurd hid (hg id), trivial⟩, fun _ => nofun⟩

theorem cancelTx_obeys_telling (id : BookingId) :
    (BookingService.cancelTx id).Obeys telling .opened
      (Script.Closes telling fun g r => ∀ a, r = .ok a → g = .cancelled id) := by
  refine obeys_quiet rfl Telling.open_opened (fun row => ?_) (closes_error_telling Telling.open_opened)
  cases row with
  | none => exact closes_error_telling Telling.open_opened _
  | some txBooking =>
    rw [next_lock]
    have hopen : (if txBooking.status = .PENDING then Telling.locked id else .opened).Open := by
      split_ifs <;> exact nofun
    have hcancel : (if txBooking.status = .PENDING then Telling.locked id else .opened).cancel id =
        .cancelling id := by split_ifs <;> rfl
    generalize (if txBooking.status = .PENDING then Telling.locked id else .opened) = g at hopen hcancel
    dsimp only
    split_ifs
    · exact closes_error_telling hopen _
    refine obeys_quiet rfl hopen (fun _ => ?_) fun e => closes_error_telling (open_quiet rfl hopen _) e
    have hnext : telling.next g (.stmt (.update (.bookingUpdate id .CANCELLED))) (.ok ()) = .cancelling id :=
      hcancel
    rw [hnext]
    have herror : ∀ e, Script.Closes telling (fun g (r : Except Err Unit) => ∀ a, r = .ok a → g = .cancelled id)
        (.cancelling id) (.error e) := closes_error_telling (Telling.open_cancelling id)
    refine obeys_quiet rfl (Telling.open_cancelling id) (fun _ => ?_) herror
    refine obeys_quiet rfl (Telling.open_cancelling id) (fun activeBookings => ?_) herror
    have hcommit : Script.Closes telling (fun g r => ∀ a, r = .ok a → g = .cancelled id) (.cancelling id)
        (.ok () : Except Err Unit) := ⟨⟨nofun, trivial⟩, fun _ _ => rfl, fun _ => nofun⟩
    split_ifs
    · refine ⟨may_quiet rfl (Telling.open_cancelling id), fun r _ => ?_⟩
      cases r with
      | ok _ => exact hcommit
      | error e => exact herror e
    · exact hcommit

theorem cancel_obeys_telling (id : BookingId) (userId : UserId) :
    (BookingService.cancel id userId).Obeys telling .out fun _ _ => True := by
  refine Script.obeys_stmt (may_quiet rfl Telling.open_out) (fun found hfound => ?_) fun _ => trivial
  cases found with
  | none => trivial
  | some booking =>
    obtain rfl : booking.id = id := hfound
    dsimp only
    split_ifs
    · trivial
    · trivial
    refine Script.obeys_bind (Script.obeys_mono (Script.obeys_transaction ⟨nofun, trivial⟩
      (cancelTx_obeys_telling booking.id) fun _ => nofun) fun g r hg => ?_)
    cases r with
    | error e => trivial
    | ok a =>
      obtain rfl := hg a rfl
      have hqueue : Script.Obeys telling (.cancelled booking.id)
          ((quietly (external (.queueAdd (.bookingCancelled booking)))).bind fun _ =>
            .ret (.message "Booking cancelled successfully") : Op Reply) fun _ _ => True := by
        refine Script.obeys_bind (Script.obeys_tryCatch ⟨⟨nofun, rfl⟩, fun r _ => ?_⟩)
        cases r <;> trivial
      refine Script.obeys_bind (Script.obeys_tryCatch
        ⟨may_quiet rfl (Telling.open_cancelled booking.id), fun r _ => ?_⟩)
      cases r <;> exact hqueue

/-- The confirmation of a booking: the customer is told of it before the commit. -/
theorem paymentSuccessTx_obeys_telling (eventId : EventId) (event : StripeEvent) (payment : Payment)
    (booking : Booking) (hid : booking.id = payment.bookingId) :
    (PaymentService.paymentSuccessTx eventId event payment booking).Obeys telling .opened
      (Script.Closes telling fun _ _ => True) := by
  have herror : ∀ {g : Telling}, g.Open → ∀ e : Err,
      Script.Closes telling (fun _ (_ : Except Err Unit) => True) g (.error e) :=
    fun hg e => ⟨⟨fun id hid => absurd hid (hg id), trivial⟩, fun _ => trivial⟩
  have hok : ∀ g : Telling, Script.Closes telling (fun _ (_ : Except Err Unit) => True) g (.ok ()) :=
    fun g => ⟨⟨fun _ _ => rfl, trivial⟩, trivial, fun _ => trivial⟩
  refine obeys_quiet rfl Telling.open_opened (fun _ => ?_) (herror Telling.open_opened)
  show Script.Obeys telling .opened _ _
  refine obeys_quiet rfl Telling.open_opened (fun row => ?_) (herror Telling.open_opened)
  cases row with
  | none => exact herror Telling.open_opened _
  | some txBooking =>
    rw [next_lock]
    dsimp only
    by_cases hpending : txBooking.status = .PENDING
    · rw [if_pos hpending, if_neg (not_not.mpr hpending)]
      have hlocked := Telling.open_locked payment.bookingId
      refine obeys_quiet rfl hlocked (fun paidAt => ?_) (herror hlocked)
      refine obeys_quiet rfl hlocked (fun _ => ?_) (herror hlocked)
      refine Script.obeys_stmt ⟨nofun, rfl⟩ (fun _ _ => ?_) (herror hlocked)
      refine Script.obeys_tryCatch ⟨⟨nofun, ?_⟩, fun r _ => ?_⟩
      · show Telling.confirmed payment.bookingId = .confirmed booking.id
        rw [hid]
      · cases r <;> exact hok _
    · rw [if_neg hpending, if_pos hpending]
      refine obeys_quiet rfl Telling.open_opened (fun paidAt => ?_) (herror Telling.open_opened)
      refine ⟨may_quiet rfl Telling.open_opened, fun r _ => ?_⟩
      cases r with
      | ok _ => exact hok _
      | error e => exact ⟨⟨nofun, trivial⟩, fun _ => trivial⟩

theorem handleEvent_obeys_telling (eventId : EventId) (event : StripeEvent) :
    (PaymentService.handleEvent eventId event).Obeys telling .out fun _ _ => True := by
  have hquiet : ∀ {p : Op Unit}, Stays Stmt.quiet p → p.Obeys telling .out fun _ _ => True :=
    fun hp => Script.obeys_mono (obeys_of_quiet hp Telling.open_out) fun _ _ _ => trivial
  unfold PaymentService.handleEvent
  split
  · refine Script.obeys_stmt (may_quiet rfl Telling.open_out) (fun found hfound => ?_) fun _ => trivial
    cases found with
    | none => trivial
    | some row =>
      obtain ⟨payment, booking⟩ := row
      dsimp only
      split_ifs
      · trivial
      · exact Script.obeys_transaction ⟨nofun, trivial⟩
          (paymentSuccessTx_obeys_telling eventId event payment booking hfound) fun _ => trivial
  · refine hquiet (stays_bind (stays_query rfl) fun found => ?_)
    split
    · trivial
    · exact stays_bind (stays_transaction (stays_bind (stays_update rfl) fun _ => stays_update rfl))
        fun _ => stays_quietly (stays_external rfl)
  · exact hquiet (stays_transaction (stays_bind (stays_update rfl) fun _ => stays_update rfl))
  · trivial

theorem body_obeys_telling (cfg : Config) (c : Call) :
    (c.body cfg).Obeys telling .out fun _ _ => True := by
  by_cases hcancel : ∃ id userId, c = .cancel id userId
  · obtain ⟨id, userId, rfl⟩ := hcancel
    exact cancel_obeys_telling id userId
  by_cases hwebhook : ∃ event, c = .handleWebhook event
  · obtain ⟨event, rfl⟩ := hwebhook
    cases event with
    | none => trivial
    | some eventId =>
      refine Script.obeys_bind (Script.obeys_tryCatch (Script.obeys_mono
        (handleEvent_obeys_telling eventId (cfg.event eventId)) fun g r _ => ?_))
      cases r with
      | ok a => trivial
      | error e => cases e <;> trivial
  · refine Script.obeys_mono (obeys_of_quiet (Script.uses_mono (c.body_stays cfg) ?_) nofun) fun _ _ _ => trivial
    intro m hm
    cases m with
    | stmt s => exact quiet_of_issues (fun id userId h => hcancel ⟨id, userId, h⟩) (fun event h => hwebhook ⟨event, h⟩) hm
    | _ => trivial

end

end TurfSync
