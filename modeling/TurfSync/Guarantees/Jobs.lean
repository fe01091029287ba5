import TurfSync.Txn.Assuming
import TurfSync.Guarantees.Completion

/-! The two periodic jobs get their work done. When a clean-up ends without an error,
no booking that was stale when it began is PENDING any more; when an auto-completion
does, no booking whose slot was over is CONFIRMED. Whatever runs beside them, a booking
leaves those statuses for good, so it is enough to follow the ids that a job has still
to deal with. -/

namespace TurfSync

open Txn

variable {cfg : Config} {J : World → Prop} {c : Session Call} {w w' : World}

/-! ### Commits that are known to be those of the protocol -/

/-- The steps whose commits the protocol lists. -/
def Assumed (cfg : Config) (J : World → Prop) :
    Session Call → Local Key Write → World → Cmd Stmt → Bool → Prop :=
  ((rules cfg J fun _ _ _ _ _ => True).assuming (engine cfg)).allow

section

variable {α β : Type} {Q : Post Err Key Write World β} {ws : List Write} {ks : List Key}

theorem wp_ret_assumed {a : β}
    (h : ∀ w', Found cfg J c ks w w' → Commits cfg c w' ws →
      ∀ w'', Found cfg J c [] (Commits.result c ws w') w'' → Q (.ok a) .idle w'')
    (hf : ∀ e w', Q (.error e) .idle w') :
    wp (engine cfg) (rules cfg J (Assumed cfg J)) c (.ret a)
      (TxPost (engine cfg) (rules cfg J (Assumed cfg J)) c Q) ⟨some ws, ks⟩ w :=
  @wp_ret_assuming _ _ _ _ _ _ _ _ (engine cfg) (rules cfg J fun _ _ _ _ _ => True) c a Q ws ks w
    (fun w' hr hi hpost w'' hr' hi' =>
      h w' ⟨hr, hi.1, hi.2⟩ hpost.1 w'' ⟨hr', hi'.1, hi'.2⟩)
    fun _ _ _ w'' _ _ => hf _ w''

/-- An update of one row outside of a transaction. -/
theorem wp_row_assumed {u : Update} {a : u.Reply} {locks : List Key} {f : u.Reply → Op β}
    (hne : ws ≠ [])
    (hplan : ∀ db uuid now, u.plan cfg db uuid now = .fail .P2025 [] ∨
      u.plan cfg db uuid now = ⟨.ok a, locks, ws, 0⟩)
    (h : ∀ w', Found cfg J c [] w w' → Commits cfg c w' ws →
      wp (engine cfg) (rules cfg J (Assumed cfg J)) c (f a) Q .idle (Commits.result c ws w'))
    (hf : ∀ e w', Q (.error e) .idle w') :
    wp (engine cfg) (rules cfg J (Assumed cfg J)) c ((update u).bind f) Q .idle w := by
  refine @wp_stmt_assuming _ _ _ _ _ _ _ _ (engine cfg) (rules cfg J fun _ _ _ _ _ => True) c
    (.update u) f Q w (fun w' hr hi => ?_) fun _ _ _ w'' _ _ => hf _ w''
  simp only [act_update]
  rcases hplan w'.db w'.out.uuid w'.out.now with hp | hp
  · rw [hp]
    exact ⟨fun _ w'' _ _ => hf _ w'', fun hw => absurd rfl hw⟩
  · rw [hp]
    exact ⟨fun hw => absurd hw hne, fun _ hpost => h w' ⟨hr, hi.1, hi.2⟩ hpost.1⟩

end

/-! ### What is left of the work -/

/-- Once a booking has a status that is not `p`, it stays so. -/
def Passes (p : BookingStatus → Prop) : Prop :=
  ∀ b b' : Booking, b.Ages b' → p b'.status → p b.status

theorem passes_pending : Passes (· = .PENDING) := fun _ _ h hp => h.pending hp

/-- The statuses of bookings that are not over. -/
def Live (status : BookingStatus) : Prop := status = .PENDING ∨ status = .CONFIRMED

theorem passes_live : Passes Live := fun _ _ h ha => h.active ha

/-- Booking `id` is there, and if it is still `p` then it is one of `left`. -/
def Handled (p : BookingStatus → Prop) (left : List BookingId) (db : Db) (id : BookingId) : Prop :=
  ∃ b, db.booking? id = some b ∧ (p b.status → id ∈ left)

namespace Handled

variable {p : BookingStatus → Prop} {left : List BookingId} {db db' : Db} {ks : List Key}
  {id : BookingId}

theorem later (hp : Passes p) (h : Handled p left db id) (hr : db.Rely ks db') :
    Handled p left db' id := by
  obtain ⟨b, hb, hleft⟩ := h
  obtain ⟨b', hb', hages⟩ := hr.booking id b hb
  exact ⟨b', hb', fun hs => hleft (hp b b' hages hs)⟩

theorem mono {left' : List BookingId} (h : Handled p left db id) (hl : ∀ i ∈ left, i ∈ left') :
    Handled p left' db id := by
  obtain ⟨b, hb, hleft⟩ := h
  exact ⟨b, hb, fun hs => hl id (hleft hs)⟩

/-- Some of what is left is set to another status. -/
theorem set {status : BookingStatus} {ids left' : List BookingId} (hs : ¬ p status)
    (h : Handled p left db id) (hl : id ∈ left → id ∈ ids ∨ id ∈ left') :
    Handled p left' (db.apply (.bookingSet ids status)) id := by
  obtain ⟨b, hb, hleft⟩ := h
  have hlook := Db.booking?_set (show (db.apply (.bookingSet ids status)).bookings =
    Db.setBookings ids status db.bookings from rfl) id
  rw [hb] at hlook
  split_ifs at hlook with hm
  · exact ⟨{ b with status := status }, hlook, fun hp => absurd hp hs⟩
  · exact ⟨b, hlook, fun hp => (hl (hleft hp)).resolve_left hm⟩

theorem release {freed : List SlotId} (h : Handled p left db id) :
    Handled p left (db.applyAll (TurfSync.release freed)) id := by
  unfold TurfSync.release
  split_ifs
  · exact h
  · exact h

end Handled
/-! ### The clean-up -/

namespace BookingService

variable {id : BookingId} {candidateIds : List BookingId}

/-- Once its turn has come, booking `id` is handled but for the rows that were locked. -/
structure Tried (id : BookingId) (candidateIds past : List BookingId) (rows : List Booking)
    (l : Local Key Write) (w : World) : Prop where
  tx : l.tx = some []
  listed : Handled (· = .PENDING) candidateIds w.db id
  handled : id ∈ past → Handled (· = .PENDING) (rows.map (·.id)) w.db id

theorem Tried.found {past : List BookingId} {rows : List Booking} {l : Local Key Write}
    (h : Tried id candidateIds past rows l w) (hf : Found cfg J c l.held w w') :
    Tried id candidateIds past rows l w' where
  tx := h.tx
  listed := h.listed.later passes_pending hf.rely.db
  handled hid := (h.handled hid).later passes_pending hf.rely.db

/-- When all have been tried, the rows that were locked are left. -/
theorem Tried.rows {rows : List Booking} {l : Local Key Write}
    (h : Tried id candidateIds candidateIds rows l w) :
    Handled (· = .PENDING) (rows.map (·.id)) w.db id := by
  obtain ⟨b, hb, hlisted⟩ := h.listed
  by_cases hp : b.status = .PENDING
  · exact h.handled (hlisted hp)
  · exact ⟨b, hb, fun h => absurd h hp⟩

theorem tried_wp {past : List BookingId} {rows : List Booking} {l : Local Key Write}
    {candidate : BookingId} (h : Tried id candidateIds past rows l w) :
    wp (engine cfg) (rules cfg J (Assumed cfg J)) c (lockRow (.pendingBooking candidate))
      (Keeps (fun row => Tried id candidateIds (past ++ [candidate]) (rows ++ row.toList))
        fun _ _ _ => True) l w := by
  obtain ⟨tx, ks⟩ := l
  obtain rfl : tx = some [] := h.tx
  rw [← Prog.bind_ret (lockRow _)]
  refine wp_lock_tx (fun w₁ h₁ _ => ?_) fun _ _ _ _ _ _ => trivial
  have h₁ := h.found h₁
  have hlast : ∀ row, ((RowLock.pendingBooking candidate).eval w₁.db).1 = row →
      id ∈ past ++ [candidate] → Handled (· = .PENDING) ((rows ++ row.toList).map (·.id)) w₁.db id := by
    intro row hrow hid
    rcases List.mem_append.mp hid with hid | hid
    · exact (h₁.handled hid).mono fun i hi => by simp only [List.map_append, List.mem_append, hi,
        true_or]
    · obtain rfl := List.mem_singleton.mp hid
      obtain ⟨b, hb, -⟩ := h₁.listed
      refine ⟨b, hb, fun hp => ?_⟩
      simp only [RowLock.eval, hb, hp, if_true] at hrow
      simp [← hrow, (Db.mem_of_booking? hb).2]
  simp only [Db.applyAll_nil]
  exact fun w₂ hr hi => Tried.found ⟨rfl, h₁.listed, hlast _ rfl⟩ ⟨hr, hi.1, hi.2⟩

/-- The bulk update finds every locked row that is still PENDING. -/
theorem handled_updated {db : Db} {ids : List BookingId} (h : Handled (· = .PENDING) ids db id) :
    Handled (· = .PENDING)
      ((db.bookings.filter fun b => b.id ∈ ids ∧ b.status = .PENDING).map (·.id)) db id := by
  obtain ⟨b, hb, hleft⟩ := h
  obtain ⟨hm, rfl⟩ := Db.mem_of_booking? hb
  refine ⟨b, hb, fun hp => List.mem_map.mpr ⟨b, List.mem_filter.mpr ⟨hm, ?_⟩, rfl⟩⟩
  exact decide_eq_true ⟨hleft hp, hp⟩

theorem cleanupTx_settles (hJ : Stable cfg J)
    (hid : Handled (· = .PENDING) candidateIds w.db id) :
    wp (engine cfg) (rules cfg J (Assumed cfg J)) c (Script.transaction (cleanupTx candidateIds))
      (Keeps (fun _ l w' => l = .idle ∧ Handled (· = .PENDING) [] w'.db id) fun _ _ _ => True)
      .idle w := by
  have hP : (rules cfg J (Assumed cfg J)).Lawful (engine cfg) := rules_lawful hJ
  refine wp_tx (fun w₀ h₀ => ?_) fun _ _ _ _ _ _ => trivial
  unfold cleanupTx
  simp only [Prog.bind_eq, Prog.pure_eq]
  have hstart : Tried id candidateIds [] [] ⟨some [], []⟩ w₀ :=
    ⟨rfl, hid.later passes_pending h₀.rely.db, by simp⟩
  refine wp_bind hP (wp_mono (wp_collect_past hP (J := Tried id candidateIds)
    (Z := fun _ _ _ => True) (fun _ _ past rows l w h => tried_wp h)
    (fun past rows l w w' h hr hi => h.found ⟨hr, hi.1, hi.2⟩) hstart) ?_)
  rintro (e | rows) l w₁ - hq
  · exact fun _ _ _ => trivial
  obtain ⟨tx, ks⟩ := l
  have hq : Tried id candidateIds candidateIds rows ⟨tx, ks⟩ w₁ := hq
  obtain rfl : tx = some [] := hq.tx
  simp only []
  split_ifs with hempty
  · subst hempty
    refine wp_ret_assumed (fun w₂ h₂ _ w₃ h₃ => ⟨rfl, ?_⟩) fun _ _ => trivial
    have hdone : Handled (· = .PENDING) [] (Commits.result c [] w₂).db id :=
      hq.rows.later passes_pending h₂.rely.db
    exact hdone.later passes_pending h₃.rely.db
  refine wp_update_tx (fun w₂ h₂ => ?_) fun _ _ _ => wp_throw_tx fun _ _ => trivial
  have hids := handled_updated (hq.found h₂).rows
  simp only [Update.plan, Db.applyAll_nil, resume_ok, World.took_zero, List.nil_append]
  generalize (w₂.db.bookings.filter fun b =>
    b.id ∈ rows.map (·.id) ∧ b.status = .PENDING).map (·.id) = ids at hids ⊢
  -- the transaction holds the write that deals with `ids`, and locks the slots
  refine wp_bind hP (wp_mono (wp_forEach hP
    (J := fun _ l w => l.tx = some [.bookingSet ids .CANCELLED] ∧
      Handled (· = .PENDING) ids w.db id)
    (Z := fun _ _ _ => True) (fun slotId _ past l w h => ?_)
    (fun past l w w' h hr hi => ⟨h.1, h.2.later passes_pending hr.db⟩) ⟨rfl, hids⟩) ?_)
  · obtain ⟨tx, ks⟩ := l
    obtain ⟨htx, h⟩ := h
    obtain rfl : tx = _ := htx
    rw [← Prog.bind_ret (lockRow _)]
    refine wp_lock_tx (fun w₁ h₁ _ w₂ hr hi => ⟨rfl, ?_⟩) fun _ _ _ _ _ _ => trivial
    exact (h.later passes_pending h₁.rely.db).later passes_pending hr.db
  rintro (e | _) l w₃ - hs
  · exact fun _ _ _ => trivial
  obtain ⟨tx, ks'⟩ := l
  obtain ⟨htx, hids₃⟩ : tx = some [.bookingSet ids .CANCELLED] ∧
    Handled (· = .PENDING) ids w₃.db id := hs
  subst htx
  have hcommit : ∀ (freed : List SlotId) (w₄ w₅ : World), Found cfg J c [] w₃ w₄ →
      Found cfg J c [] (Commits.result c (.bookingSet ids .CANCELLED :: release freed) w₄) w₅ →
      Handled (· = .PENDING) [] w₅.db id := by
    intro freed w₄ w₅ h₄ h₅
    have hset : Handled (· = .PENDING) [] (w₄.db.apply (.bookingSet ids .CANCELLED)) id :=
      (hids₃.later passes_pending h₄.rely.db).set (by decide) .inl
    have hdone : Handled (· = .PENDING) []
      (Commits.result c (.bookingSet ids .CANCELLED :: release freed) w₄).db id := hset.release
    exact hdone.later passes_pending h₅.rely.db
  refine wp_query_tx (fun w₄ h₄ => ?_) fun _ _ _ => wp_throw_tx fun _ _ => trivial
  generalize (Query.bookingFindActive (rows.map (·.slotId)) (rows.map (·.id))).eval
    (w₄.db.applyAll [.bookingSet ids .CANCELLED]) = active
  generalize (rows.map (·.slotId)).filter (fun id => id ∉ active.map (·.slotId)) = freed
  split_ifs with hfreed
  · refine wp_ret_assumed (fun w₅ h₅ _ w₆ h₆ => ⟨rfl, ?_⟩) fun _ _ => trivial
    exact hcommit [] w₅ w₆ (h₄.forget.trans h₅.forget) h₆
  · refine wp_update_tx (fun w₅ h₅ => ?_) fun _ _ _ => wp_throw_tx fun _ _ => trivial
    refine wp_ret_assumed (fun w₆ h₆ _ w₇ h₇ => ⟨rfl, ?_⟩) fun _ _ => trivial
    refine hcommit freed w₆ w₇ (h₄.forget.trans (h₅.forget.trans h₆.forget)) ?_
    unfold release
    rw [if_neg hfreed]
    exact h₇

/-- A clean-up that ends without an error leaves no booking PENDING that was stale when it
began. -/
theorem cleanup_settles (hJ : Stable cfg J) {now : Time} {b : Booking}
    (hb : w.db.booking? id = some b) (hage : b.createdAt < now - 15 * 60 * 1000) :
    wp (engine cfg) (rules cfg J (Assumed cfg J)) c (cleanupStalePendingBookings now)
      (Keeps (fun _ _ w' => Handled (· = .PENDING) [] w'.db id) fun _ _ _ => True) .idle w := by
  have hP : (rules cfg J (Assumed cfg J)).Lawful (engine cfg) := rules_lawful hJ
  unfold cleanupStalePendingBookings
  simp only [Prog.bind_eq, Prog.pure_eq]
  refine wp_query (fun w₁ h₁ => ?_) fun w' _ _ => wp_throw fun _ _ => trivial
  generalize hrows : (Query.bookingFindStale (now - 15 * 60 * 1000)).eval w₁.db = rows
  have hlisted : Handled (· = .PENDING) (rows.map (·.id)) w₁.db id := by
    obtain ⟨b', hb', hages⟩ := h₁.rely.db.booking id b hb
    obtain ⟨hm, hid⟩ := Db.mem_of_booking? hb'
    refine ⟨b', hb', fun hp => hid ▸ List.mem_map_of_mem ?_⟩
    rw [← hrows, Query.eval, List.mem_filter, decide_eq_true_eq, hages.createdAt]
    exact ⟨hm, hp, hage⟩
  split_ifs with hempty
  · subst hempty
    exact fun w₂ hr hi => hlisted.later passes_pending hr.db
  refine wp_bind hP (wp_mono (cleanupTx_settles hJ hlisted) ?_)
  rintro (e | stale) l w₂ - hq
  · trivial
  obtain ⟨rfl, hdone⟩ : l = .idle ∧ Handled (· = .PENDING) [] w₂.db id := hq
  refine wp_bind hP (wp_mono (wp_forEach hP
    (J := fun _ l w => l = .idle ∧ Handled (· = .PENDING) [] w.db id)
    (Z := fun _ _ _ => True) (fun turfId _ past l w h => ?_)
    (fun past l w w' h hr hi => ⟨h.1, h.2.later passes_pending hr.db⟩) ⟨rfl, hdone⟩) ?_)
  · obtain ⟨rfl, h⟩ := h
    rw [← Prog.bind_ret (delByPattern turfId)]
    refine wp_delByPattern hJ fun w₃ h₃ w₄ hr hi => ⟨rfl, ?_⟩
    exact (h.later passes_pending h₃.rely.db).later passes_pending hr.db
  · rintro (e | _) l w₃ - hq
    · trivial
    · exact fun w₄ hr _ => hq.2.later passes_pending hr.db

end BookingService
/-! ### The slots -/

/-- A slot apart from its flag. -/
def Slot.bare (s : Slot) : Slot := { s with isBooked := false }

/-- The slots but for their flags. -/
def Db.timetable (db : Db) : List Slot := db.slots.map Slot.bare

theorem timetable_apply (db : Db) (x : Write) : (db.apply x).timetable = db.timetable := by
  cases x with
  | slotSet ids v => exact Rows.keys_update fun _ => rfl
  | _ => rfl

theorem timetable_applyAll (db : Db) (ws : List Write) :
    (db.applyAll ws).timetable = db.timetable := by
  induction ws generalizing db with
  | nil => rfl
  | cons x ws ih => rw [Db.applyAll_cons, ih, timetable_apply]

/-- The slots are `slots`, but for their flags. -/
def OnTimetable (slots : List Slot) (w : World) : Prop := w.db.timetable = slots

theorem stable_timetable (slots : List Slot) : Stable cfg (OnTimetable slots) where
  out _ _ h := h
  commit _ h _ := (timetable_applyAll _ _).trans h

theorem slot?_bare (db : Db) (id : SlotId) :
    (db.slot? id).map Slot.bare = Rows.lookup (·.id) id db.timetable := by
  rw [Db.timetable, Rows.lookup, List.find?_map]
  rfl

/-- The same timetable has the same slots under the same ids. -/
theorem slot?_of_timetable {db db' : Db} (h : db'.timetable = db.timetable) {id : SlotId}
    {s : Slot} (hs : db.slot? id = some s) : ∃ s', db'.slot? id = some s' ∧ s'.bare = s.bare := by
  have hmap : (db'.slot? id).map Slot.bare = some s.bare := by
    rw [slot?_bare, h, ← slot?_bare, hs]
    rfl
  exact Option.map_eq_some_iff.mp hmap

/-! ### The auto-completion -/

namespace BookingCompleteJob

/-- The slot of booking `b` is over, as the job sees it. -/
def SlotOver (now : Time) (db : Db) (b : Booking) : Prop :=
  ∃ slot, db.slot? b.slotId = some slot ∧ slot.date ≤ now ∧ slotDate slot < now

theorem SlotOver.later {now : Time} {db db' : Db} {b b' : Booking} (h : SlotOver now db b)
    (ht : db'.timetable = db.timetable) (hb : b'.slotId = b.slotId) : SlotOver now db' b' := by
  obtain ⟨slot, hslot, hdate, hend⟩ := h
  obtain ⟨slot', hslot', hbare⟩ := slot?_of_timetable ht hslot
  have hsame : slot'.date = slot.date ∧ slot'.endTime = slot.endTime :=
    ⟨(congrArg Slot.date hbare : _), (congrArg Slot.endTime hbare : _)⟩
  refine ⟨slot', hb ▸ hslot', hsame.1 ▸ hdate, ?_⟩
  rw [slotDate, hsame.1, hsame.2]
  exact hend

/-- Where the loop over `rows` is with booking `id`, once it has done the rows `past`. -/
structure Doing (id : BookingId) (now : Time) (rows past : List (Booking × Slot))
    (l : Local Key Write) (w : World) : Prop where
  idle : l = .idle
  listed : Handled Live (completedIds now rows) w.db id
  handled : id ∈ completedIds now past → Handled Live [] w.db id

theorem Doing.later {id : BookingId} {now : Time} {rows past : List (Booking × Slot)}
    {l : Local Key Write} {ks : List Key} (h : Doing id now rows past l w)
    (hr : w.db.Rely ks w'.db) : Doing id now rows past l w' where
  idle := h.idle
  listed := h.listed.later passes_live hr
  handled hid := (h.handled hid).later passes_live hr

theorem mem_completedIds_snoc {now : Time} {past : List (Booking × Slot)} {row : Booking × Slot}
    {id : BookingId} : id ∈ completedIds now (past ++ [row]) ↔
      id ∈ completedIds now past ∨ Over now row ∧ row.1.id = id := by
  unfold completedIds
  by_cases h : Over now row
  · simp [List.filter_append, h, eq_comm]
  · simp [List.filter_append, h]

theorem doing_wp {id : BookingId} {now : Time} {rows past : List (Booking × Slot)}
    {row : Booking × Slot} {l : Local Key Write} (h : Doing id now rows past l w) :
    wp (engine cfg) (rules cfg J (Assumed cfg J)) c (complete now row)
      (Keeps (fun _ => Doing id now rows (past ++ [row])) fun _ _ _ => True) l w := by
  obtain rfl := h.idle
  unfold complete
  split_ifs with hover
  · rw [← Prog.bind_ret (update _)]
    refine wp_row_assumed (by simp) (plan_bookingUpdate cfg row.1.id .COMPLETED)
      (fun w₁ h₁ _ w₂ hr _ => Doing.later ?_ hr.db) fun _ _ => trivial
    have h₁ := h.later h₁.rely.db
    have hlive : ¬ Live .COMPLETED := by simp [Live]
    refine ⟨rfl, h₁.listed.set hlive .inr, fun hid => ?_⟩
    rcases mem_completedIds_snoc.mp hid with hid | ⟨-, rfl⟩
    · exact (h₁.handled hid).set hlive .inr
    · exact h₁.listed.set hlive fun _ => .inl (List.mem_singleton.mpr rfl)
  · refine fun w₁ hr _ => Doing.later ?_ hr.db
    refine ⟨rfl, h.listed, fun hid => ?_⟩
    exact h.handled ((mem_completedIds_snoc.mp hid).resolve_right fun h => hover h.1)

/-- An auto-completion that ends without an error leaves no booking CONFIRMED whose slot was
over when it began. -/
theorem autoComplete_settles {slots : List Slot} (ht : OnTimetable slots w) {now : Time}
    {id : BookingId} {b : Booking} (hb : w.db.booking? id = some b)
    (hconfirmed : b.status = .CONFIRMED) (hover : SlotOver now w.db b) :
    wp (engine cfg) (rules cfg (OnTimetable slots) (Assumed cfg (OnTimetable slots))) c
      (autoCompleteBookings now)
      (Keeps (fun _ _ w' => Handled Live [] w'.db id) fun _ _ _ => True) .idle w := by
  have hP : (rules cfg (OnTimetable slots) (Assumed cfg (OnTimetable slots))).Lawful (engine cfg) :=
    rules_lawful (stable_timetable slots)
  unfold autoCompleteBookings
  simp only [Prog.bind_eq, Prog.pure_eq]
  refine wp_query (fun w₁ h₁ => ?_) fun w' _ _ => wp_throw fun _ _ => trivial
  generalize hrows : (Query.bookingFindExpired now).eval w₁.db = rows
  have hstart : Doing id now rows [] .idle w₁ := by
    obtain ⟨b', hb', hages⟩ := h₁.rely.db.booking id b hb
    obtain ⟨hm, hid⟩ := Db.mem_of_booking? hb'
    refine ⟨rfl, ⟨b', hb', fun hp => ?_⟩, by simp [completedIds]⟩
    -- it was CONFIRMED and has not been completed or cancelled, so it still is
    have hstill : b'.status = .CONFIRMED := by
      refine hp.resolve_left fun hpend => ?_
      rw [hages.pending hpend] at hconfirmed
      cases hconfirmed
    obtain ⟨slot, hslot, hdate, hend⟩ := hover.later (Eq.trans h₁.extra ht.symm) hages.slotId
    refine List.mem_map.mpr ⟨(b', slot), List.mem_filter.mpr ⟨?_, decide_eq_true hend⟩, hid⟩
    simp only [← hrows, Query.eval, List.mem_filter, List.mem_filterMap, decide_eq_true_eq]
    exact ⟨⟨b', hm, by rw [hslot]; rfl⟩, hstill, hdate⟩
  refine wp_bind hP (wp_mono (wp_forEach hP (J := Doing id now rows) (Z := fun _ _ _ => True)
    (fun row _ past l w h => doing_wp h) (fun _ _ _ _ h hr _ => h.later hr.db) hstart) ?_)
  rintro (e | _) l w₂ - hq
  · trivial
  · have hq : Doing id now rows rows l w₂ := hq
    obtain ⟨b', hb', hleft⟩ := hq.listed
    have hdone : Handled Live [] w₂.db id := by
      by_cases hp : Live b'.status
      · exact hq.handled (hleft hp)
      · exact ⟨b', hb', fun h => absurd h hp⟩
    exact fun w₃ hr _ => hdone.later passes_live hr.db

end BookingCompleteJob

/-! ### Runs -/

/-- Booking `b` is work for the job. -/
def Call.Due (db : Db) (b : Booking) : Call → Prop
  | .cleanupStalePendingBookings now =>
    b.status = .PENDING ∧ b.createdAt < now - 15 * 60 * 1000
  | .autoCompleteBookings now => b.status = .CONFIRMED ∧ BookingCompleteJob.SlotOver now db b
  | _ => False

/-- What a job promises, when it begins in a world where a booking is due. -/
theorem due_settled {slots : List Slot} (ht : OnTimetable slots w) {b : Booking}
    (hb : w.db.booking? b.id = some b) (hdue : c.call.Due w.db b) :
    wp (engine cfg) (rules cfg (OnTimetable slots) (Assumed cfg (OnTimetable slots))) c
      (c.call.body cfg)
      (Keeps (fun _ _ w' => Handled (· = b.status) [] w'.db b.id) fun _ _ _ => True) .idle w := by
  cases hc : c.call with
  | cleanupStalePendingBookings now =>
    rw [hc] at hdue
    rw [hdue.1]
    exact BookingService.cleanup_settles (stable_timetable slots) hb hdue.2
  | autoCompleteBookings now =>
    rw [hc] at hdue
    refine wp_mono (BookingCompleteJob.autoComplete_settles ht hb hdue.1 hdue.2) ?_
    rintro (e | r) l w' - hq
    · trivial
    · obtain ⟨b', hb', hlive⟩ := hq
      exact ⟨b', hb', fun h => hlive (.inr (h.trans hdue.1))⟩
  | _ =>
    rw [hc] at hdue
    exact hdue.elim

/-- When a job has ended without an error, no booking that was due when it began has still
the status it had. -/
theorem job_settles {s : Sys} {pre post : List Act} {job : Call} {r : Reply} (hs : s.Initial cfg)
    (hacc : (service cfg).accepts job ((service cfg).run s pre).world = true)
    (he : ((service cfg).run s (pre ++ .spawn job :: post)).Ended
      ((service cfg).run s pre).threads.length job (.ok r)) :
    ∀ b ∈ ((service cfg).run s pre).world.db.bookings,
      job.Due ((service cfg).run s pre).world.db b →
      ∃ b', ((service cfg).run s (pre ++ .spawn job :: post)).world.db.booking? b.id = some b' ∧
        b'.status ≠ b.status := by
  intro b hb hdue
  generalize hslots : s.world.db.timetable = slots
  have hJ := @stable_timetable cfg slots
  have hkeeps : Sys.Keeps cfg (OnTimetable slots) ((service cfg).run s pre) :=
    (hs.always hJ hslots).last
  rw [Service.run_append, Service.run_cons] at he ⊢
  generalize (service cfg).run s pre = t at *
  have hspawn : Sys.Keeps cfg (OnTimetable slots) ((service cfg).step t (.spawn job)) :=
    hkeeps.run hJ [.spawn job]
  have hthread : ((service cfg).step t (.spawn job)).threads[t.threads.length]? =
      some ⟨⟨t.threads.length, job⟩, job.body cfg, .idle⟩ := by
    rw [Service.step, if_pos hacc]
    exact List.getElem?_concat_length
  have hworld : ((service cfg).step t (.spawn job)).world = t.world := by
    rw [Service.step, if_pos hacc]
  have hwp := @due_settled cfg ⟨t.threads.length, job⟩ t.world slots hkeeps.inv.2 b
    (hkeeps.inv.1.valid.booking?_of_mem hb) hdue
  obtain ⟨l, b', hb', hleft⟩ := Service.ends_assuming hspawn (rules_lawful hJ) (starts hJ)
    (Service.each_of_forall permits_any _ post) hthread (hworld ▸ hwp) he
  exact ⟨b', hb', fun h => by simpa using hleft h⟩

/-- The day after the slot that user 7 has booked and paid. -/
def Arena.dayAfter : List Act := sold ++ [.env (.tick 518400000)]

/-- The booking of user 7. -/
def Arena.played : Booking := ⟨101, 7, 1, 1, 1000, .CONFIRMED, none, 0⟩

theorem job_settles_day_after : ∃ b', ((service (Arena.cfg true)).run Arena.sys
    (Arena.dayAfter ++ .spawn (.autoCompleteBookings (6 * dayMs)) ::
      ([.run 3, .run 3] : List Act))).world.db.booking? 101 = some b' ∧ b'.status ≠ .CONFIRMED :=
  job_settles (r := .done) Arena.fresh.initial (by decide +kernel) (by decide +kernel) Arena.played
    (by decide +kernel)
    ⟨rfl, { Arena.slot 1 with isBooked := true }, by decide +kernel, by decide +kernel, by decide +kernel⟩

end TurfSync
