import TurfSync.Guarantees.Slots
import TurfSync.Protocol.Telling

/-! What the jobs on the notification queue tell the customers, and what has been committed.
`create` queues the job that calls a booking confirmed while it is PENDING, and the webhook
queues its job before it commits; the job of `cancel` follows its commit. -/

namespace TurfSync

open Txn

/-! ### What the jobs tell -/

/-- Every job on the queue tells what has been committed, and one payment is told of once. -/
structure World.Truthful (w : World) : Prop where
  confirmed : ∀ job ∈ w.out.jobs, ∀ id ∈ job.confirms, w.Made .CONFIRMED id
  once : (w.out.jobs.filterMap Job.pays).Nodup
  cancelled : ∀ job ∈ w.out.jobs, ∀ id ∈ job.cancels, w.Made .CANCELLED id

/-- The job that a step puts on the queue. -/
def Sys.puts (s : Sys) : Act → Option Job
  | .run i => s.threads[i]?.bind fun t => match t.prog with
    | .call m _ => put? m
    | _ => none
  | _ => none

/-- A booking-confirmed job is put for a booking whose payment a delivery has registered, and
which was not cancelled while it was PENDING. -/
def AfterReport (cfg : Config) (s : Sys) (a : Act) : Prop :=
  ∀ job ∈ s.puts a, ∀ id ∈ job.books, s.world.db.Reported cfg id ∧ ¬ s.world.Dropped id

instance (cfg : Config) (s : Sys) (a : Act) : Decidable (AfterReport cfg s a) :=
  inferInstanceAs (Decidable (∀ job ∈ s.puts a, _))

/-- No commit fails after its payment-success job has been put. -/
def Kept (s : Sys) : Act → Prop
  | .fault i => ∀ t ∈ s.threads[i]?, t.prog.Next (isCommit · = true) → ∀ ws ∈ t.loc.tx, ∀ x ∈ ws,
    ∀ job ∈ s.world.out.jobs, ∀ id ∈ job.pays, ¬ x.Sets .CONFIRMED id
  | _ => True

instance (s : Sys) : (a : Act) → Decidable (Kept s a)
  | .fault i => inferInstanceAs (Decidable (∀ t ∈ s.threads[i]?, _))
  | .run _ => inferInstanceAs (Decidable True)
  | .spawn _ => inferInstanceAs (Decidable True)
  | .env _ => inferInstanceAs (Decidable True)

/-! ### One step -/

section

variable {cfg : Config} {g g' : ℕ → Telling} {s : Sys} {a : Act}

theorem act_jobs (cfg : Config) (s : Stmt) (view w : World) :
    (Stmt.act cfg s view w).world.out.jobs = w.out.jobs ++ (put? (.stmt s)).toList := by
  cases s with
  | external x =>
    cases x with
    | queueAdd job => rfl
    | acquireLock slotId =>
      simp only [Stmt.act, External.eval]
      split_ifs <;> exact (List.append_nil _).symm
    | releaseLock slotId value =>
      simp only [Stmt.act, External.eval]
      split_ifs <;> exact (List.append_nil _).symm
    | createRefund intent =>
      simp only [Stmt.act, External.eval]
      split_ifs <;> exact (List.append_nil _).symm
    | _ => exact (List.append_nil _).symm
  | _ => exact (List.append_nil _).symm

theorem after_jobs (cfg : Config) (c : Session Call) (l : Local Key Write) (w : World) (m : Cmd Stmt) :
    ((engine cfg).after c ((engine cfg).exec l w m)).out.jobs = w.out.jobs ++ (put? m).toList := by
  cases m with
  | stmt s =>
    cases htx : l.tx with
    | none =>
      rw [Engine.after_auto htx]
      split_ifs <;> exact act_jobs cfg s w w
    | some ws =>
      rw [Engine.after_tx htx]
      exact act_jobs cfg s _ w
  | _ => exact (List.append_nil _).symm

theorem cmd_of_put {m : Cmd Stmt} {job : Job} (h : put? m = some job) :
    m = .stmt (.external (.queueAdd job)) := by
  unfold put? at h
  split at h
  · rw [Option.some.inj h]
  · cases h

theorem exec_queueAdd (cfg : Config) (l : Local Key Write) (w : World) (job : Job) :
    ((engine cfg).exec l w (.stmt (.external (.queueAdd job)))).reply = .ok () := by
  simp only [Engine.exec]
  split <;> rfl

/-- A step puts the job of its command on the queue, and no other. -/
theorem jobs_step (cfg : Config) (s : Sys) (a : Act) :
    ((service cfg).step s a).world.out.jobs = s.world.out.jobs ++ (s.puts a).toList := by
  cases a with
  | spawn c =>
    simp only [Service.step]
    split_ifs <;> exact (List.append_nil _).symm
  | env v => cases v <;> exact (List.append_nil _).symm
  | fault i =>
    simp only [Service.step, Service.interrupt]
    split
    · exact (List.append_nil _).symm
    · split <;> exact (List.append_nil _).symm
  | run i =>
    cases ht : s.threads[i]? with
    | none => simp [Service.step, Service.advance, Sys.puts, ht]
    | some t =>
      cases hp : t.prog with
      | ret r => simp [Service.step, Service.advance, Sys.puts, ht, hp]
      | throw e => simp [Service.step, Service.advance, Sys.puts, ht, hp]
      | call m k =>
        have hputs : s.puts (.run i) = put? m := by simp only [Sys.puts, ht, Option.bind_some, hp]
        simp only [Service.step, Service.advance, ht, hp]
        rw [hputs]
        split_ifs with hfree
        · exact after_jobs cfg t.session t.loc s.world m
        · -- a put waits for no lock
          cases hjob : put? m with
          | none => exact (List.append_nil _).symm
          | some job =>
            obtain rfl := cmd_of_put hjob
            refine absurd (fun key hkey => ?_) hfree
            simp only [Engine.exec] at hkey
            split at hkey <;> cases hkey

/-- Every session is where its stage says. -/
def Seated (g : ℕ → Telling) (s : Sys) : Prop :=
  ∀ (i : ℕ) (t : Thread Stmt Stmt.Reply Err Key Write Call Reply), s.threads[i]? = some t →
    (g i).Sits t.loc s.world

/-- What a step does to the stages, to the queue and to the history. -/
structure Moved (cfg : Config) (g g' : ℕ → Telling) (s : Sys) (a : Act) : Prop where
  jobs : ((service cfg).step s a).world.out.jobs = s.world.out.jobs ++ (s.puts a).toList
  history : ∀ e ∈ s.world.history, e ∈ ((service cfg).step s a).world.history
  puts : ∀ job ∈ s.puts a, ∃ i t, s.threads[i]? = some t ∧ (∀ id ∈ job.cancels, g i = .cancelled id) ∧
    ∀ id ∈ job.pays, g i = .confirmed id ∧ g' i = .told id
  stays : ∀ i id, g i = .told id → g' i = .told id ∨
    ((service cfg).step s a).world.Made .CONFIRMED id ∨
    a = .fault i ∧ ∃ t, s.threads[i]? = some t ∧ t.prog.Next (isCommit · = true)

/-- One session has moved, and the others sit where they sat. -/
theorem seated_set {s' : Sys} {i : ℕ} {v : Telling} {t' : Thread Stmt Stmt.Reply Err Key Write Call Reply}
    (hset : s'.threads = s.threads.set i t') (hv : v.Sits t'.loc s'.world)
    (hothers : ∀ (j : ℕ) u, s.threads[j]? = some u → j ≠ i → (g j).Sits u.loc s'.world) :
    Seated (Function.update g i v) s' := by
  intro j u hu
  rw [hset] at hu
  rcases getElem?_put hu with ⟨rfl, rfl⟩ | ⟨hji, hu⟩
  · rw [Function.update_self]
    exact hv
  · rw [Function.update_of_ne hji]
    exact hothers j u hu hji

/-- A payment is told of past its confirmation, a cancellation past its commit. -/
theorem put_may {g : Telling} {m : Cmd Stmt} {job : Job} {l : Local Key Write} {w : World}
    (may : telling.may g m) (hput : put? m = some job) :
    (∀ id ∈ job.cancels, g = .cancelled id) ∧
      ∀ id ∈ job.pays, g = .confirmed id ∧ telling.next g m ((engine cfg).exec l w m).reply = .told id := by
  obtain rfl := cmd_of_put hput
  refine ⟨fun id hid => ?_, fun id hid => ?_⟩
  · cases job with
    | bookingCancelled booking =>
      obtain rfl := Option.some.inj hid
      exact may.2
    | _ => cases hid
  · cases job with
    | paymentSuccess paymentId amount booking =>
      obtain rfl := Option.some.inj hid
      have hconfirmed : g = .confirmed booking.id := may.2
      have hreply := exec_queueAdd cfg l w (.paymentSuccess paymentId amount booking)
      refine ⟨hconfirmed, ?_⟩
      rw [hconfirmed]
      exact congrArg (telling.next _ _) hreply
    | _ => cases hid

/-- Where a payment has been told of, the next command is the commit of its booking. -/
theorem told_commits {g : Telling} {m : Cmd Stmt} {id : BookingId} {w : World}
    {t : Thread Stmt Stmt.Reply Err Key Write Call Reply} (may : telling.may g m) (hid : g = .told id)
    (hsits : g.Sits t.loc w) :
    ((engine cfg).after t.session ((engine cfg).exec t.loc w m)).Made .CONFIRMED id := by
  have hm := may.1 id hid
  subst hid
  cases m with
  | commit =>
    obtain ⟨⟨ws, hws, hx⟩, -, -⟩ := hsits
    refine ⟨⟨t.session, t.loc.tx.getD [], w.db⟩, List.mem_append_right _ List.mem_cons_self,
      .bookingSet [id] .CONFIRMED, ?_, rfl, List.mem_cons_self⟩
    rw [hws]
    exact hx
  | _ => cases hm

theorem seated_step (h : Obeying telling (fun _ _ => True) g s) (hkeeps : s.Keeps cfg (World.Confirms cfg))
    (hseated : Seated g s) (a : Act) : ∃ g', Obeying telling (fun _ _ => True) g' ((service cfg).step s a) ∧
      Seated g' ((service cfg).step s a) ∧ Moved cfg g g' s a := by
  have hJ := stable_confirms cfg
  have hjobs := jobs_step cfg s a
  have hhistory : ∀ e ∈ s.world.history, e ∈ ((service cfg).step s a).world.history := by
    rcases hkeeps.step_cases hJ a with ⟨-, -, hh⟩ | ⟨cm, -, -, hh, -, -, -, hw⟩
    · rw [hh]
      exact fun e he => he
    · rw [hw]
      exact fun e he => List.mem_append_left _ (hh ▸ he)
  have hothers : ∀ (j : ℕ) u, s.threads[j]? = some u → a ≠ .run j →
      (g j).Sits u.loc ((service cfg).step s a).world := fun j u hu hja =>
    (hseated j u hu).rely (hkeeps.others (rules_lawful hJ) (starts hJ) (permits_any s a) hu hja)
  have hanswered : telling.Answered (service cfg).toEngine := telling_answered cfg
  have hbody : ∀ c, ((service cfg).body c).Obeys telling telling.init fun _ _ => True :=
    body_obeys_telling cfg
  have hstepped := h.step hanswered hbody a
  cases hstepped with
  | rests idle world sessions obeying =>
    have hputs : s.puts a = none := by
      rw [world] at hjobs
      simpa using hjobs
    refine ⟨g, obeying, fun i t ht => ?_, hjobs, hhistory, fun job hjob => ?_,
      fun i id hid => .inl hid⟩
    · rcases sessions i t ht with ht | ⟨hi, hidle⟩
      · rw [world]
        exact hseated i t ht
      · rw [h.later i (Nat.le_of_eq hi)]
        trivial
    · rw [hputs] at hjob
      cases hjob
  | evolves v idle step obeying =>
    have hputs : s.puts a = none := by
      have hout : (v.evolve s.world.out).jobs = s.world.out.jobs := by cases v <;> rfl
      rw [step] at hjobs
      simpa [service, hout] using hjobs
    refine ⟨g, obeying, fun i t ht => ?_, hjobs, hhistory, fun job hjob => ?_,
      fun i id hid => .inl hid⟩
    · rw [step] at ht ⊢
      refine (hseated i t ht).rely (rely_out i t.loc.held ?_)
      cases v <;> exact Nat.le_refl _
    · rw [hputs] at hjob
      cases hjob
  | fails i t m k action thread prog may idle step obeying =>
    subst action
    refine ⟨_, obeying, seated_set (by rw [step]) ?_ ?_, hjobs, hhistory, nofun,
      fun j id hid => ?_⟩
    · rw [step]
      exact (hseated i t thread).fail m _
    · exact fun j u hu _ => hothers j u hu nofun
    · by_cases hji : j = i
      · subst hji
        refine .inr (.inr ⟨rfl, t, thread, ?_⟩)
        rw [prog]
        exact may.1 id hid
      · rw [Function.update_of_ne hji]
        exact .inl hid
  | runs i t m k action thread prog may free committed step obeying =>
    subst action
    have hputs : s.puts (.run i) = put? m := by simp only [Sys.puts, thread, Option.bind_some, prog]
    refine ⟨_, obeying, seated_set (by rw [step]) ?_ ?_, hjobs, hhistory,
      fun job hjob => ?_, fun j id hid => ?_⟩
    · rw [step]
      exact (hseated i t thread).step t.session m may
    · exact fun j u hu hji => hothers j u hu fun ha => hji (Action.run.inj ha).symm
    · obtain ⟨hcancels, hpays⟩ := @put_may cfg (g i) m job t.loc s.world may
        (hputs.symm.trans hjob)
      refine ⟨i, t, thread, hcancels, fun id hid => ⟨(hpays id hid).1, ?_⟩⟩
      rw [Function.update_self]
      exact (hpays id hid).2
    · by_cases hji : j = i
      · subst hji
        refine .inr (.inl ?_)
        rw [step]
        exact told_commits may hid (hseated j t thread)
      · rw [Function.update_of_ne hji]
        exact .inl hid

end

/-! ### Runs -/

/-- The sessions keep to the protocol, each where its stage says. -/
structure Placed (cfg : Config) (g : ℕ → Telling) (s : Sys) : Prop where
  keeps : s.Keeps cfg (World.Confirms cfg)
  obeying : Obeying telling (fun _ _ => True) g s
  seated : Seated g s

namespace Placed

variable {cfg : Config} {g g' : ℕ → Telling} {s : Sys} {a : Act} {as : List Act} {i j : ℕ}
  {id : BookingId}

theorem start (hs : s.Fresh) : Placed cfg (fun _ => .out) s where
  keeps := hs.initial.sound hs.confirms
  obeying := .nil hs.threads
  seated i t ht := by simp [hs.threads] at ht

theorem step (h : Placed cfg g s) (a : Act) :
    ∃ g', Placed cfg g' ((service cfg).step s a) ∧ Moved cfg g g' s a := by
  obtain ⟨g', hobeying, hseated, hmoved⟩ := seated_step h.obeying h.keeps h.seated a
  exact ⟨g', ⟨h.keeps.run (stable_confirms cfg) [a], hobeying, hseated⟩, hmoved⟩

/-- What every step keeps, together with the stages, holds along the run. -/
theorem always {I : (ℕ → Telling) → Sys → Prop} {M : Sys → Act → Prop} (hs : s.Fresh)
    (hstep : ∀ g g' s a, Placed cfg g s → Moved cfg g g' s a → M s a → I g s →
      I g' ((service cfg).step s a))
    (h : I (fun _ => .out) s) (hM : (service cfg).Each M s as) :
    (service cfg).Always (fun s => ∃ g, Placed cfg g s ∧ I g s) s as := by
  refine Service.always_of_step ?_ ⟨_, .start hs, h⟩ hM
  rintro s a ⟨g, hg, hi⟩ hm
  obtain ⟨g', hg', hmoved⟩ := hg.step a
  exact ⟨g', hg', hstep g g' s a hg hmoved hm hi⟩

theorem thread (h : Placed cfg g s) (hi : g i ≠ .out) : ∃ t, s.threads[i]? = some t := by
  by_contra hnone
  refine hi (h.obeying.later i (not_lt.mp fun hlt => hnone ⟨_, List.getElem?_eq_getElem hlt⟩))

/-- A booking on its way to CONFIRMED is locked, and PENDING. -/
theorem locked (h : Placed cfg g s) (hi : g i = .confirmed id ∨ g i = .told id) :
    ∃ t ws, s.threads[i]? = some t ∧ t.loc.tx = some ws ∧ .bookingSet [id] .CONFIRMED ∈ ws ∧
      .booking id ∈ t.loc.held ∧ ∃ b, s.world.db.booking? id = some b ∧ b.status = .PENDING := by
  obtain ⟨t, ht⟩ := h.thread (i := i) (by rcases hi with hi | hi <;> rw [hi] <;> nofun)
  have hsits : ((∃ ws, t.loc.tx = some ws ∧ .bookingSet [id] .CONFIRMED ∈ ws) ∧
      .booking id ∈ t.loc.held ∧ ∃ b, s.world.db.booking? id = some b ∧ b.status = .PENDING) := by
    have hsits := h.seated i t ht
    rcases hi with hi | hi <;> rw [hi] at hsits <;> exact hsits
  obtain ⟨⟨ws, hws, hx⟩, hkey, hrow⟩ := hsits
  exact ⟨t, ws, ht, hws, hx, hkey, hrow⟩

theorem unmade (h : Placed cfg g s) (hi : g i = .confirmed id ∨ g i = .told id) :
    ¬ s.world.Made .CONFIRMED id := by
  intro hmade
  obtain ⟨-, -, -, -, -, -, b, hb, hpending⟩ := h.locked hi
  obtain ⟨b', hb', hleft⟩ := h.keeps.inv.2.left id hmade
  rw [hb] at hb'
  obtain rfl := Option.some.inj hb'
  exact hleft hpending

/-- Two sessions never confirm one booking at the same time. -/
theorem alone (h : Placed cfg g s) (hi : g i = .confirmed id) (hj : g j = .told id) : False := by
  obtain ⟨t, -, ht, -, -, hkey, -⟩ := h.locked (.inl hi)
  obtain ⟨u, -, hu, -, -, hkey', -⟩ := h.locked (.inr hj)
  have hji : j ≠ i := by
    rintro rfl
    rw [hi] at hj
    cases hj
  exact h.keeps.excl i t ht _ hkey (System.mem_heldByOthers.mpr ⟨j, u, hji, hu, hkey'⟩)

/-- A payment-success job is put before the booking is CONFIRMED. -/
theorem early (h : Placed cfg g s) (a : Act) {job : Job} (hjob : job ∈ s.puts a) (hid : id ∈ job.pays) :
    ¬ s.world.Made .CONFIRMED id := by
  obtain ⟨g', -, hmoved⟩ := h.step a
  obtain ⟨i, -, -, -, hpays⟩ := hmoved.puts job hjob
  exact h.unmade (.inl (hpays id hid).1)

/-- The booking-confirmed jobs that are put after the report are those whose booking a commit has
CONFIRMED. -/
theorem afterReport_iff (h : Placed cfg g s) (a : Act) : AfterReport cfg s a ↔
    ∀ job ∈ s.puts a, ∀ id ∈ job.books, s.world.Made .CONFIRMED id := by
  simp only [AfterReport, h.keeps.inv.2.made]

end Placed

section

variable {cfg : Config} {g g' : ℕ → Telling} {s : Sys} {a : Act}

theorem Moved.mem_jobs (h : Moved cfg g g' s a) {job : Job} :
    job ∈ ((service cfg).step s a).world.out.jobs ↔ job ∈ s.world.out.jobs ∨ job ∈ s.puts a := by
  simp only [h.jobs, List.mem_append, Option.mem_toList, Option.mem_def]

/-- A cancellation is told of after its commit. -/
theorem Moved.cancelled (h : Moved cfg g g' s a) (hg : Placed cfg g s)
    (hi : ∀ job ∈ s.world.out.jobs, ∀ id ∈ job.cancels, s.world.Made .CANCELLED id) :
    ∀ job ∈ ((service cfg).step s a).world.out.jobs, ∀ id ∈ job.cancels,
      ((service cfg).step s a).world.Made .CANCELLED id := by
  intro job hjob id hid
  refine World.Made.mono ?_ h.history
  rcases h.mem_jobs.mp hjob with hjob | hjob
  · exact hi job hjob id hid
  · obtain ⟨i, t, ht, hcancels, -⟩ := h.puts job hjob
    have hsits := hg.seated i t ht
    rw [hcancels id hid] at hsits
    exact hsits

/-- A booking that is told of after the report has been CONFIRMED. -/
theorem Moved.books (h : Moved cfg g g' s a) (hg : Placed cfg g s) (hm : AfterReport cfg s a)
    (hi : ∀ job ∈ s.world.out.jobs, ∀ id ∈ job.books, s.world.Made .CONFIRMED id) :
    ∀ job ∈ ((service cfg).step s a).world.out.jobs, ∀ id ∈ job.books,
      ((service cfg).step s a).world.Made .CONFIRMED id := by
  intro job hjob id hid
  refine World.Made.mono ?_ h.history
  rcases h.mem_jobs.mp hjob with hjob | hjob
  · exact hi job hjob id hid
  · exact (hg.afterReport_iff a).mp hm job hjob id hid

/-- One payment-success job is put for a booking, and its commit is made or comes next. -/
structure Paying (g : ℕ → Telling) (s : Sys) : Prop where
  once : (s.world.out.jobs.filterMap Job.pays).Nodup
  made : ∀ job ∈ s.world.out.jobs, ∀ id ∈ job.pays, s.world.Made .CONFIRMED id ∨ ∃ i, g i = .told id

theorem Moved.paying (h : Moved cfg g g' s a) (hg : Placed cfg g s) (hm : Kept s a)
    (hi : Paying g s) : Paying g' ((service cfg).step s a) where
  once := by
    rw [h.jobs, List.filterMap_append]
    refine List.nodup_append.mpr ⟨hi.once, ?_, ?_⟩
    · cases s.puts a with
      | none => exact List.nodup_nil
      | some job => cases hpays : job.pays <;> simp [hpays]
    · intro id hid id' hid' heq
      subst heq
      obtain ⟨old, hold, hpays⟩ := List.mem_filterMap.mp hid
      obtain ⟨new, hnew, hpays'⟩ := List.mem_filterMap.mp hid'
      obtain ⟨i, -, -, -, hput⟩ := h.puts new (Option.mem_toList.mp hnew)
      obtain ⟨hconfirmed, -⟩ := hput id hpays'
      rcases hi.made old hold id hpays with hmade | ⟨j, hj⟩
      · exact hg.unmade (.inl hconfirmed) hmade
      · exact hg.alone hconfirmed hj
  made job hjob id hid := by
    rcases h.mem_jobs.mp hjob with hold | hnew
    · rcases hi.made job hold id hid with hmade | ⟨i, hi'⟩
      · exact .inl (hmade.mono h.history)
      · rcases h.stays i id hi' with htold | hmade | ⟨rfl, t, ht, hnext⟩
        · exact .inr ⟨i, htold⟩
        · exact .inl hmade
        · -- the commit that fails is one after a put
          obtain ⟨t', ws, ht', hws, hx, -⟩ := hg.locked (.inr hi')
          rw [ht] at ht'
          obtain rfl := Option.some.inj ht'
          exact absurd ⟨rfl, List.mem_singleton_self id⟩ (hm t ht hnext ws hws _ hx job hold id hid)
    · obtain ⟨i, -, -, -, hput⟩ := h.puts job hnew
      exact .inr ⟨i, (hput id hid).2⟩

end

/-- A payment is told of once, and its commit is there by the time nothing runs. -/
theorem pays_once {s : Sys} (hs : s.Fresh) (hjobs : s.world.out.jobs = []) {cfg : Config}
    {as : List Act} (hM : (service cfg).Each Kept s as) : (service cfg).Always (fun t =>
      (t.world.out.jobs.filterMap Job.pays).Nodup ∧
      (t.Quiet → ∀ job ∈ t.world.out.jobs, ∀ id ∈ job.pays, t.world.Made .CONFIRMED id)) s as := by
  have hpaying : (service cfg).Always (fun t => ∃ g, Placed cfg g t ∧ Paying g t) s as :=
    Placed.always hs (fun _ _ _ _ hg h hm hi => h.paying hg hm hi)
      ⟨by simp [hjobs], by simp [hjobs]⟩ hM
  refine hpaying.mono ?_
  rintro t ⟨g, hg, hi⟩
  refine ⟨hi.once, fun hquiet job hjob id hid => ?_⟩
  rcases hi.made job hjob id hid with hmade | ⟨i, htold⟩
  · exact hmade
  · obtain ⟨u, ws, hu, hws, -⟩ := hg.locked (.inr htold)
    rw [hquiet u (List.mem_of_getElem? hu)] at hws
    cases hws

/-- A booking-confirmed job tells what has been committed iff it is put after the report of the
payment. A payment-success job never does, as its commit follows; but as long as no commit fails
after it, it is put once for each booking, and the booking is CONFIRMED by the time nothing
runs. Cancellations are told of after their commit. -/
theorem notifications_truthful {s : Sys} (hs : s.Fresh) (hjobs : s.world.out.jobs = []) (cfg : Config)
    (as : List Act) :
    ((service cfg).Each (AfterReport cfg) s as ↔ (service cfg).Each (fun (t : Sys) a =>
      ∀ job ∈ t.puts a, ∀ id ∈ job.books, t.world.Made .CONFIRMED id) s as) ∧
    (service cfg).Each (fun (t : Sys) a =>
      ∀ job ∈ t.puts a, ∀ id ∈ job.pays, ¬ t.world.Made .CONFIRMED id) s as ∧
    ((service cfg).Each Kept s as → (service cfg).Always (fun t =>
      (t.world.out.jobs.filterMap Job.pays).Nodup ∧
      (t.Quiet → ∀ job ∈ t.world.out.jobs, ∀ id ∈ job.pays, t.world.Made .CONFIRMED id)) s as) ∧
    (service cfg).Always (fun t => ∀ job ∈ t.world.out.jobs, ∀ id ∈ job.cancels,
      t.world.Made .CANCELLED id) s as ∧
    ((service cfg).Each (AfterReport cfg) s as → (service cfg).Each Kept s as →
      (service cfg).Always (fun t => t.Quiet → t.world.Truthful) s as) := by
  have hcancelled : (service cfg).Always (fun t => ∃ g, Placed cfg g t ∧ ∀ job ∈ t.world.out.jobs,
      ∀ id ∈ job.cancels, t.world.Made .CANCELLED id) s as :=
    Placed.always (M := fun _ _ => True) hs (fun _ _ _ _ hg h _ hi => h.cancelled hg hi) (by simp [hjobs])
      (Service.each_of_forall (fun _ _ => trivial) s as)
  refine ⟨?_, hcancelled.each ?_, pays_once hs hjobs, hcancelled.mono ?_, fun hM hK => ?_⟩
  · refine Service.each_congr hcancelled ?_
    rintro t a ⟨g, hg, -⟩
    exact hg.afterReport_iff a
  · rintro t a ⟨g, hg, -⟩ job hjob id hid
    exact hg.early a hjob hid
  · rintro t ⟨-, -, hi⟩
    exact hi
  · have hbooks : (service cfg).Always (fun t => ∃ g, Placed cfg g t ∧ ∀ job ∈ t.world.out.jobs,
        ∀ id ∈ job.books, t.world.Made .CONFIRMED id) s as :=
      Placed.always hs (fun _ _ _ _ hg h hm hi => h.books hg hm hi) (by simp [hjobs]) hM
    refine ((hbooks.and (pays_once hs hjobs hK)).and hcancelled).mono ?_
    rintro t ⟨⟨⟨-, -, hbooks⟩, honce, hpays⟩, -, -, hcancels⟩ hquiet
    refine ⟨fun job hjob id hid => ?_, honce, hcancels⟩
    rcases Job.confirms_iff.mp hid with hid | hid
    · exact hbooks job hjob id hid
    · exact hpays hquiet job hjob id hid

/-- The payment is reported while `create` is still at work, and the customer cancels later. -/
theorem notifications_truthful_late :
    let late := Arena.first 0 (.create (Arena.dto 1 none) 7 0) 8 ++
      Arena.first 1 (.createPaymentIntent 101 7) 5 ++ Arena.first 2 (.handleWebhook (some 1)) 12 ++
      List.replicate 4 (.run 0) ++ Arena.first 3 (.cancel 101 7) 12
    let t := (service (Arena.cfg true)).run Arena.sys late
    (service (Arena.cfg true)).Each (fun (t : Sys) a =>
      ∀ job ∈ t.puts a, ∀ id ∈ job.books, t.world.Made .CONFIRMED id) Arena.sys late ∧
    (service (Arena.cfg true)).Always (fun t => t.Quiet → t.world.Truthful) Arena.sys late ∧
    t.Quiet ∧ (t.world.out.jobs.filterMap Job.books, t.world.out.jobs.filterMap Job.pays,
      t.world.out.jobs.filterMap Job.cancels) = ([101], [101], [101]) := by
  intro late t
  have hafter : (service (Arena.cfg true)).Each (AfterReport (Arena.cfg true)) Arena.sys late := by
    decide +kernel
  have htold := notifications_truthful Arena.fresh rfl (Arena.cfg true) late
  exact ⟨htold.1.mp hafter, htold.2.2.2.2 hafter (by decide +kernel), by decide +kernel,
    by decide +kernel⟩

/-- User 7 is told that booking 101 is confirmed while it is PENDING. When the commit of the
payment fails and Stripe reports it once more, the payment is told of twice. -/
theorem told_too_early :
    let created := (service (Arena.cfg true)).run Arena.sys (Arena.first 0 (.create (Arena.dto 1 none) 7 0) 20)
    let resent := (service (Arena.cfg true)).run Arena.sys (Arena.first 0 (.create (Arena.dto 1 none) 7 0) 20 ++
      Arena.first 1 (.createPaymentIntent 101 7) 5 ++ Arena.first 2 (.handleWebhook (some 1)) 8 ++
      [.fault 2] ++ List.replicate 3 (.run 2) ++ Arena.first 3 (.handleWebhook (some 1)) 12)
    (created.world.out.jobs.filterMap Job.confirms = [101] ∧
      created.world.db.bookings.map (fun b => (b.id, b.status)) = [(101, .PENDING)] ∧
      ¬ created.world.Truthful) ∧
    resent.world.out.jobs.filterMap Job.pays = [101, 101] ∧ ¬ resent.world.Truthful := by
  refine ⟨⟨by decide +kernel, by decide +kernel, fun h => ?_⟩, by decide +kernel, fun h => ?_⟩
  · exact absurd h.confirmed (by decide +kernel)
  · exact absurd h.once (by decide +kernel)

end TurfSync
