import TurfSync.Txn.Rely

/-! Every run of a service keeps what its calls were proved to keep. -/

namespace TurfSync.Txn

variable {S : Type} {R : S → Type} {ε K W D C V α : Type}

theorem System.mem_heldByOthers {s : System S R ε K W D C α} {i : ℕ} {key : K} :
    key ∈ s.heldByOthers i ↔ ∃ j t, j ≠ i ∧ s.threads[j]? = some t ∧ key ∈ t.loc.held := by
  simp only [System.heldByOthers, List.mem_flatMap, List.mem_eraseIdx_iff_getElem?]
  constructor
  · rintro ⟨t, ⟨j, hj, ht⟩, hk⟩
    exact ⟨j, t, hj, ht, hk⟩
  · rintro ⟨j, t, hj, ht, hk⟩
    exact ⟨t, ⟨j, hj, ht⟩, hk⟩

/-- The invariant of every run: `Q c` is the postcondition of session `c`. -/
structure Sound (srv : Service S R ε K W D C V α) (P : Rules S K W D C)
    (Q : Session C → Post ε K W D α) (s : System S R ε K W D C α) : Prop where
  inv : P.inv s.world
  starts : ∀ n, s.threads.length ≤ n → P.start n s.world
  ids : ∀ (i : ℕ) (t : Thread S R ε K W C α), s.threads[i]? = some t → t.session.id = i
  excl : ∀ (i : ℕ) (t : Thread S R ε K W C α), s.threads[i]? = some t →
    ∀ key ∈ t.loc.held, key ∉ s.heldByOthers i
  wps : ∀ (i : ℕ) (t : Thread S R ε K W C α), s.threads[i]? = some t →
    wp srv.toEngine P t.session t.prog (Q t.session) t.loc s.world

/-- What `allow` lets an action do: the next statement of a session is executed, or it
fails. -/
def Permits [DecidableEq K] (srv : Service S R ε K W D C V α)
    (allow : Session C → Local K W → D → Cmd S → Bool → Prop) (s : System S R ε K W D C α) :
    Action C V → Prop
  | .run i => (srv.advance s i).isSome → ∀ t ∈ s.threads[i]?,
    t.prog.Next fun m => allow t.session t.loc s.world m false
  | .fault i => ∀ t ∈ s.threads[i]?, t.prog.Next fun m => allow t.session t.loc s.world m true
  | _ => True

instance [DecidableEq K] (srv : Service S R ε K W D C V α)
    (allow : Session C → Local K W → D → Cmd S → Bool → Prop)
    [∀ c l w m f, Decidable (allow c l w m f)] (s : System S R ε K W D C α) (a : Action C V) :
    Decidable (Permits srv allow s a) :=
  match a with
  | .run i => inferInstanceAs (Decidable ((srv.advance s i).isSome → ∀ t ∈ s.threads[i]?, _))
  | .fault i => inferInstanceAs (Decidable (∀ t ∈ s.threads[i]?, _))
  | .spawn _ => inferInstanceAs (Decidable True)
  | .env _ => inferInstanceAs (Decidable True)

theorem permits_any [DecidableEq K] {srv : Service S R ε K W D C V α}
    (s : System S R ε K W D C α) (a : Action C V) : Permits srv (fun _ _ _ _ _ => True) s a := by
  have hnext : ∀ p : Script S R ε α, p.Next fun _ => True := by
    intro p
    cases p <;> trivial
  cases a with
  | run i => exact fun _ t _ => hnext t.prog
  | fault i => exact fun t _ => hnext t.prog
  | spawn c => trivial
  | env v => trivial

/-- The surroundings keep to the rules, and every call that arrives starts with its
weakest precondition. -/
structure Starts (srv : Service S R ε K W D C V α) (P : Rules S K W D C)
    (Q : Session C → Post ε K W D α) : Prop where
  evolve_inv : ∀ v {w}, P.inv w → P.inv (srv.evolve v w)
  evolve_rely : ∀ v {w} n ks, P.inv w → P.rely n ks w (srv.evolve v w)
  body : ∀ n c w, P.inv w → P.start n w → srv.accepts c w = true →
    wp srv.toEngine P ⟨n, c⟩ (srv.body c) (Q ⟨n, c⟩) .idle w

/-- What a sound system is at the end of a session's program. -/
theorem Sound.post {srv : Service S R ε K W D C V α} {P : Rules S K W D C}
    {Q : Session C → Post ε K W D α} {s : System S R ε K W D C α} (h : Sound srv P Q s)
    (hP : P.Lawful srv.toEngine) {i : ℕ} {c : C} {r : Except ε α} (he : s.Ended i c r) :
    ∃ l, Q ⟨i, c⟩ r l s.world := by
  obtain ⟨t, ht, rfl, hr⟩ := he
  have hwp := h.wps i t ht
  rw [← h.ids i t ht]
  cases hp : t.prog with
  | ret a =>
    rw [hp] at hr hwp
    obtain rfl := Option.some.inj hr
    exact ⟨t.loc, hwp s.world (hP.refl _ _ _) h.inv⟩
  | throw e =>
    rw [hp] at hr hwp
    obtain rfl := Option.some.inj hr
    exact ⟨t.loc, hwp s.world (hP.refl _ _ _) h.inv⟩
  | call m k =>
    rw [hp] at hr
    cases hr

/-! ### Sessions already begun

For a session in the middle of its program another postcondition can be shown. The
rules are the same, except that only later sessions start. -/

/-- The rules once `m` sessions have begun. -/
def Rules.later (P : Rules S K W D C) (m : ℕ) : Rules S K W D C :=
  { P with start := fun n w => m ≤ n ∧ P.start n w }

theorem wp_later {E : Engine S R ε K W D C} {P : Rules S K W D C} {m : ℕ} {c : Session C}
    {p : Script S R ε α} {Q : Post ε K W D α} {l : Local K W} {w : D} :
    wp E (P.later m) c p Q l w ↔ wp E P c p Q l w := by
  induction p generalizing l w with
  | ret a => rfl
  | throw e => rfl
  | call s k ih => simp only [wp, ih]; rfl

theorem Rules.Lawful.later {E : Engine S R ε K W D C} {P : Rules S K W D C} (hP : P.Lawful E)
    (m : ℕ) : (P.later m).Lawful E where
  refl := hP.refl
  trans := hP.trans
  start h hr := ⟨h.1, hP.start h.2 hr⟩
  act_inv := hP.act_inv
  act_rely := hP.act_rely
  commit_inv := hP.commit_inv
  commit_rely := hP.commit_rely

/-- The postconditions `Q`, with another one for session `i`. -/
def replacePost (Q : Session C → Post ε K W D α) (i : ℕ) (Q' : Post ε K W D α) (c : Session C) :
    Post ε K W D α := if c.id = i then Q' else Q c

theorem Starts.later {srv : Service S R ε K W D C V α} {P : Rules S K W D C}
    {Q : Session C → Post ε K W D α} (h : Starts srv P Q) {m i : ℕ} (hi : i < m)
    (Q' : Post ε K W D α) : Starts srv (P.later m) (replacePost Q i Q') where
  evolve_inv := h.evolve_inv
  evolve_rely := h.evolve_rely
  body n c w hw hn hc := by
    have hne : n ≠ i := by have := hn.1; omega
    rw [replacePost, if_neg hne]
    exact wp_later.mpr (h.body n c w hw hn.2 hc)

theorem Sound.later {srv : Service S R ε K W D C V α} {P : Rules S K W D C}
    {Q : Session C → Post ε K W D α} {s : System S R ε K W D C α} (h : Sound srv P Q s) {i : ℕ}
    {t : Thread S R ε K W C α} (ht : s.threads[i]? = some t) {Q' : Post ε K W D α}
    (hwp : wp srv.toEngine P t.session t.prog Q' t.loc s.world) :
    Sound srv (P.later s.threads.length) (replacePost Q i Q') s where
  inv := h.inv
  starts n hn := ⟨hn, h.starts n hn⟩
  ids := h.ids
  excl := h.excl
  wps j u hu := by
    rw [wp_later, replacePost, h.ids j u hu]
    by_cases hj : j = i
    · subst hj
      obtain rfl := Option.some.inj (hu.symm.trans ht)
      rw [if_pos rfl]
      exact hwp
    · rw [if_neg hj]
      exact h.wps j u hu

section

variable [DecidableEq K] {srv : Service S R ε K W D C V α} {P : Rules S K W D C}
  {Q : Session C → Post ε K W D α} {s : System S R ε K W D C α}

omit [DecidableEq K] in
/-- One session moves: it takes no lock of another, and the others can rely on what
it did to the world. -/
theorem Sound.set (h : Sound srv P Q s) (hP : P.Lawful srv.toEngine) {i : ℕ}
    {t t' : Thread S R ε K W C α} {w : D} (ht : s.threads[i]? = some t)
    (hid : t'.session = t.session) (hinv : P.inv w)
    (hrely : ∀ j u, j ≠ i → s.threads[j]? = some u → P.rely j u.loc.held s.world w)
    (hstart : ∀ n, s.threads.length ≤ n → P.rely n [] s.world w)
    (hheld : ∀ key ∈ t'.loc.held, key ∉ s.heldByOthers i)
    (hwp : wp srv.toEngine P t'.session t'.prog (Q t'.session) t'.loc w) :
    Sound srv P Q ⟨w, s.threads.set i t'⟩ := by
  have hlt : i < s.threads.length := (List.getElem?_eq_some_iff.mp ht).1
  have hget : ∀ j, (s.threads.set i t')[j]? = if j = i then some t' else s.threads[j]? := by
    intro j
    split_ifs with hj
    · rw [hj, List.getElem?_set_self hlt]
    · exact List.getElem?_set_ne (Ne.symm hj)
  have hothers : ∀ j key, key ∈ (⟨w, s.threads.set i t'⟩ : System S R ε K W D C α).heldByOthers j →
      key ∈ s.heldByOthers j ∨ (j ≠ i ∧ key ∈ t'.loc.held) := by
    intro j key hk
    obtain ⟨m, u, hm, hu, hk⟩ := System.mem_heldByOthers.mp hk
    simp only [hget] at hu
    split_ifs at hu with hmi
    · cases hu
      exact .inr ⟨fun e => hm (hmi.trans e.symm), hk⟩
    · exact .inl (System.mem_heldByOthers.mpr ⟨m, u, hm, hu, hk⟩)
  refine ⟨hinv, fun n hn => ?_, fun j u hu => ?_, fun j u hu key hk hk' => ?_, fun j u hu => ?_⟩
  · have hn : s.threads.length ≤ n := by simpa using hn
    exact hP.start (h.starts n hn) (hstart n hn)
  · simp only [hget] at hu
    split_ifs at hu with hji
    · cases hu
      rw [hid, hji]
      exact h.ids i t ht
    · exact h.ids j u hu
  · simp only [hget] at hu
    split_ifs at hu with hji
    · cases hu
      subst hji
      rcases hothers j key hk' with h1 | h1
      · exact hheld key hk h1
      · exact h1.1 rfl
    · rcases hothers j key hk' with h1 | h1
      · exact h.excl j u hu key hk h1
      · exact hheld key h1.2 (System.mem_heldByOthers.mpr ⟨j, u, hji, hu, hk⟩)
  · simp only [hget] at hu
    split_ifs at hu with hji
    · cases hu
      exact hwp
    · exact wp_rely hP (h.wps j u hu) (h.ids j u hu ▸ hrely j u hji hu)

omit [DecidableEq K] in
/-- The effects of a command outside the store. -/
theorem Rules.Lawful.base {E : Engine S R ε K W D C} (hP : P.Lawful E) {w : D} (hw : P.inv w)
    (l : Local K W) (m : Cmd S) :
    P.inv (E.exec l w m).base ∧ ∀ n ks, P.rely n ks w (E.exec l w m).base := by
  cases m with
  | stmt st =>
    exact Engine.exec_base (P := fun w' => P.inv w' ∧ ∀ n ks, P.rely n ks w w')
      (fun view => ⟨hP.act_inv _ _ hw, fun n ks => hP.act_rely _ _ _ _ hw⟩) l
  | _ => exact ⟨hw, fun n ks => hP.refl _ _ _⟩

/-- What a statement of a sound system does: the locks it takes are free, a commit
meets `post`, and the session goes on with its weakest precondition. -/
theorem Sound.advance (h : Sound srv P Q s) (hP : P.Lawful srv.toEngine) {i : ℕ}
    (ha : Permits srv P.allow s (.run i)) {s' o} (hadv : srv.advance s i = some (s', o)) :
    Sound srv P Q s' ∧ ∀ cm, o = some cm → P.inv cm.base ∧ (∀ n ks, P.rely n ks s.world cm.base) ∧
      (∃ held, P.post cm.session held cm.writes cm.base) ∧
      s'.world = srv.commit cm.session cm.writes cm.base := by
  obtain ⟨t, m, k, ht, hp, hfree, rfl, rfl⟩ := srv.advance_eq hadv
  have hwp := h.wps i t ht
  rw [hp] at hwp
  have hallow := ha (by rw [hadv]; rfl) t ht
  rw [hp] at hallow
  obtain ⟨hpost, hk⟩ := (hwp s.world (hP.refl _ _ _) h.inv).1 hallow
  have hbase := hP.base h.inv t.loc m
  have hheld : ∀ key ∈ (srv.exec t.loc s.world m).loc.held, key ∉ s.heldByOthers i := by
    intro key hkey
    cases m with
    | stmt st =>
      simp only [Engine.exec] at hkey hfree
      split at hkey
      · rename_i ws htx
        rw [htx] at hfree
        rcases List.mem_append.mp hkey with h1 | h1
        · exact hfree key h1
        · exact h.excl i t ht key h1
      · exact h.excl i t ht key hkey
    | begin => exact h.excl i t ht key hkey
    | commit => simp [Engine.exec] at hkey
    | rollback => simp [Engine.exec] at hkey
  have hfull : ∀ key ∈ (srv.exec t.loc s.world m).needs ++ t.loc.held, key ∉ s.heldByOthers i := by
    intro key hkey
    rcases List.mem_append.mp hkey with h1 | h1
    · exact hfree key h1
    · exact h.excl i t ht key h1
  cases hd : (srv.exec t.loc s.world m).done with
  | none =>
    have hafter : srv.after t.session (srv.exec t.loc s.world m) =
        (srv.exec t.loc s.world m).base := by simp [Engine.after, hd]
    rw [hafter] at hk ⊢
    exact ⟨h.set hP ht rfl hbase.1 (fun j u _ _ => hbase.2 _ _) (fun n _ => hbase.2 _ _) hheld hk,
      by simp⟩
  | some ws =>
    have hafter : srv.after t.session (srv.exec t.loc s.world m) =
        srv.commit t.session ws (srv.exec t.loc s.world m).base := by simp [Engine.after, hd]
    rw [hafter] at hk ⊢
    have hpost := hpost ws hd
    have hi : t.session.id = i := h.ids i t ht
    have hlt : i < s.threads.length := (List.getElem?_eq_some_iff.mp ht).1
    refine ⟨h.set hP ht rfl (hP.commit_inv hbase.1 hpost) (fun j u hj hu => ?_) (fun n hn => ?_)
      hheld hk, ?_⟩
    · refine hP.trans (hbase.2 _ _) (hP.commit_rely hbase.1 hpost (by omega) fun key hkey hmem => ?_)
      exact hfull key hmem (System.mem_heldByOthers.mpr ⟨j, u, hj, hu, hkey⟩)
    · exact hP.trans (hbase.2 _ _) (hP.commit_rely hbase.1 hpost (by omega) (by simp))
    · rintro cm hcm
      simp only [Option.map_some, Option.some.injEq] at hcm
      subst hcm
      exact ⟨hbase.1, hbase.2, ⟨_, hpost⟩, rfl⟩

/-- What a commit of a sound system meets. -/
theorem Sound.commit_post (h : Sound srv P Q s) (hP : P.Lawful srv.toEngine) {a : Action C V}
    (ha : Permits srv P.allow s a) {cm : Commit C W D} (hc : srv.committed s a = some cm) :
    P.inv cm.base ∧ (∀ n ks, P.rely n ks s.world cm.base) ∧
      (∃ held, P.post cm.session held cm.writes cm.base) ∧
      (srv.step s a).world = srv.commit cm.session cm.writes cm.base := by
  cases a with
  | run i =>
    rcases srv.run_eq s i with ⟨-, hn⟩ | ⟨s', o, hadv, hs, ho⟩
    · rw [hn] at hc; cases hc
    · rw [hs]
      exact (h.advance hP ha hadv).2 cm (ho ▸ hc)
  | _ => cases hc

/-- A session that commits is one of the threads, and has not ended. -/
theorem Sound.running (h : Sound srv P Q s) {a : Action C V} {cm : Commit C W D}
    (hc : srv.committed s a = some cm) : ∃ t, s.threads[cm.session.id]? = some t ∧
      t.session = cm.session ∧ t.prog.result? = none := by
  cases a with
  | run i =>
    rcases srv.run_eq s i with ⟨-, hn⟩ | ⟨s', o, hadv, -, ho⟩
    · rw [hn] at hc
      cases hc
    · obtain ⟨t, m, k, ht, hp, -, -, rfl⟩ := srv.advance_eq hadv
      rw [ho] at hc
      obtain ⟨ws, -, rfl⟩ := Option.map_eq_some_iff.mp hc
      exact ⟨t, by rw [h.ids i t ht]; exact ht, rfl, by rw [hp]; rfl⟩
  | _ => cases hc

/-- What a step does to the world, the sessions that do not execute it can rely on. -/
theorem Sound.others (h : Sound srv P Q s) (hP : P.Lawful srv.toEngine) (hS : Starts srv P Q)
    {a : Action C V} (ha : Permits srv P.allow s a) {j : ℕ} {u : Thread S R ε K W C α}
    (hu : s.threads[j]? = some u) (hja : a ≠ .run j) :
    P.rely j u.loc.held s.world (srv.step s a).world := by
  cases a with
  | spawn c =>
    simp only [Service.step]
    split_ifs <;> exact hP.refl _ _ _
  | env v => exact hS.evolve_rely v _ _ h.inv
  | fault i =>
    simp only [Service.step, Service.interrupt]
    split
    · exact hP.refl _ _ _
    · split <;> exact hP.refl _ _ _
  | run i =>
    have hj : j ≠ i := fun hji => hja (by rw [hji])
    rcases srv.run_eq s i with ⟨hs, -⟩ | ⟨s', o, hadv, hs, -⟩
    · rw [hs]
      exact hP.refl _ _ _
    obtain ⟨t, m, k, ht, hp, hfree, rfl, rfl⟩ := srv.advance_eq hadv
    rw [hs]
    have hwp := h.wps i t ht
    rw [hp] at hwp
    have hallow := ha (by rw [hadv]; rfl) t ht
    rw [hp] at hallow
    obtain ⟨hpost, -⟩ := (hwp s.world (hP.refl _ _ _) h.inv).1 hallow
    have hbase := hP.base h.inv t.loc m
    simp only [Engine.after]
    split
    · rename_i ws hd
      have hi : j ≠ t.session.id := by rw [h.ids i t ht]; exact hj
      refine hP.trans (hbase.2 _ _) (hP.commit_rely hbase.1 (hpost ws hd) hi fun key hkey hmem => ?_)
      have hother : key ∈ s.heldByOthers i := System.mem_heldByOthers.mpr ⟨j, u, hj, hu, hkey⟩
      rcases List.mem_append.mp hmem with hneed | hheld
      · exact hfree key hneed hother
      · exact h.excl i t ht key hheld hother
    · exact hbase.2 _ _

/-- One step keeps a system sound. -/
theorem Sound.step (h : Sound srv P Q s) (hP : P.Lawful srv.toEngine) (hS : Starts srv P Q)
    {a : Action C V} (ha : Permits srv P.allow s a) : Sound srv P Q (srv.step s a) := by
  cases a with
  | spawn c =>
    simp only [Service.step]
    split_ifs with hacc
    · have hget : ∀ j, (s.threads ++ [(⟨⟨s.threads.length, c⟩, srv.body c, .idle⟩ :
          Thread S R ε K W C α)])[j]? = if j = s.threads.length then
            some ⟨⟨s.threads.length, c⟩, srv.body c, .idle⟩ else s.threads[j]? := by
        intro j
        rw [List.getElem?_append]
        split_ifs with h1 h2 h2
        · omega
        · rfl
        · simp [h2]
        · rw [List.getElem?_eq_none (by omega : s.threads.length ≤ j),
            List.getElem?_eq_none (by simp; omega)]
      refine ⟨h.inv, fun n hn => ?_, fun j u hu => ?_, fun j u hu key hk hk' => ?_,
        fun j u hu => ?_⟩
      · exact h.starts n (by simp at hn; omega)
      · simp only [hget] at hu
        split_ifs at hu with hj
        · cases hu; exact hj.symm
        · exact h.ids j u hu
      · simp only [hget] at hu
        obtain ⟨m, v, hm, hv, hkv⟩ := System.mem_heldByOthers.mp hk'
        simp only [hget] at hv
        split_ifs at hu with hj
        · cases hu; simp at hk
        · split_ifs at hv with hj'
          · cases hv; simp at hkv
          · exact h.excl j u hu key hk (System.mem_heldByOthers.mpr ⟨m, v, hm, hv, hkv⟩)
      · simp only [hget] at hu
        split_ifs at hu with hj
        · cases hu
          exact hS.body _ _ _ h.inv (h.starts _ (Nat.le_refl _)) hacc
        · exact h.wps j u hu
    · exact h
  | run i =>
    rcases srv.run_eq s i with ⟨hs, -⟩ | ⟨s', o, hadv, hs, -⟩
    · rw [hs]; exact h
    · rw [hs]; exact (h.advance hP ha hadv).1
  | fault i =>
    simp only [Service.step, Service.interrupt]
    split
    · exact h
    · rename_i t ht
      split
      · rename_i m k hp
        have hwp := h.wps i t ht
        rw [hp] at hwp
        have hallow := ha t ht
        rw [hp] at hallow
        have hk := (hwp s.world (hP.refl _ _ _) h.inv).2 hallow
        refine h.set hP ht rfl h.inv (fun j u _ _ => hP.refl _ _ _) (fun n _ => hP.refl _ _ _)
          (fun key hkey => ?_) hk
        refine h.excl i t ht key ?_
        cases m with
        | commit => simp [Engine.failed] at hkey
        | rollback => simp [Engine.failed] at hkey
        | begin => exact hkey
        | stmt st => exact hkey
      · exact h
  | env v =>
    refine ⟨hS.evolve_inv v h.inv, fun n hn => ?_, h.ids, h.excl, fun j u hu => ?_⟩
    · exact hP.start (h.starts n hn) (hS.evolve_rely v _ _ h.inv)
    · exact wp_rely hP (h.wps j u hu) (hS.evolve_rely v _ _ h.inv)

end

end TurfSync.Txn
