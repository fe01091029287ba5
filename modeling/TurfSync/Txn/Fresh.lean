import TurfSync.Txn.Automaton

/-! Values drawn from a counter. A program holds the value it drew last and spends it at
most once. If a drawn value is one that nobody has seen, and a value becomes known by
being spent only, then the values that the sessions hold are different and unknown, and
in every run a value is still unknown when it is spent. -/

namespace TurfSync.Txn

variable {S : Type} {R : S → Type} {ε K W D C V α β : Type}

/-- Which value a statement draws, by its reply, and which it spends. -/
structure Drawing (S : Type) (R : S → Type) where
  draws : (s : S) → R s → Option ℕ
  spends : S → Option ℕ

/-- A program without transactions that spends only the value it holds, and then holds
none. -/
def Drawing.automaton (d : Drawing S R) : Automaton S R ε (Option ℕ) where
  init := none
  may o
    | .stmt s => ∀ x, d.spends s = some x → o = some x
    | _ => False
  answers _ _ := True
  next o
    | .stmt s, .ok a => if (d.spends s).isSome then none else (d.draws s a).or o
    | .stmt s, .error _ => if (d.spends s).isSome then none else o
    | _, _ => o

theorem Drawing.plain (d : Drawing S R) : (d.automaton (ε := ε)).Plain := by
  intro o m hm
  cases m with
  | stmt s => exact ⟨s, rfl⟩
  | _ => exact hm.elim

theorem Drawing.answered (d : Drawing S R) (E : Engine S R ε K W D C) :
    d.automaton.Answered E := ⟨fun _ _ _ => trivial, fun _ => trivial⟩

namespace Script

variable {d : Drawing S R} {o : Option ℕ}

/-- A program that holds the value `o`. -/
abbrev Owns (d : Drawing S R) (o : Option ℕ) (p : Script S R ε α) : Prop :=
  Obeys d.automaton o p fun _ _ => True

/-- One statement that does not spend. -/
theorem owns_draw {s : S} {f : R s → Script S R ε β} (hspends : d.spends s = none)
    (hf : ∀ a, Owns d ((d.draws s a).or o) (f a)) : Owns d o ((perform s).bind f) := by
  refine obeys_stmt (fun x hx => ?_) (fun a _ => ?_) fun _ => trivial
  · rw [hspends] at hx
    cases hx
  · simp only [Drawing.automaton, hspends, Option.isSome_none, Bool.false_eq_true, if_false]
    exact hf a

/-- One statement that neither draws nor spends. -/
theorem owns_perform {s : S} {f : R s → Script S R ε β} (hspends : d.spends s = none)
    (hdraws : ∀ a, d.draws s a = none) (hf : ∀ a, Owns d o (f a)) :
    Owns d o ((perform s).bind f) :=
  owns_draw hspends fun a => by
    rw [hdraws, Option.none_or]
    exact hf a

theorem owns_spend {s : S} {x : ℕ} {f : R s → Script S R ε β} (hspends : d.spends s = some x)
    (hf : ∀ a, Owns d none (f a)) : Owns d (some x) ((perform s).bind f) := by
  refine obeys_stmt (fun y hy => hspends.symm.trans hy) (fun a _ => ?_) fun _ => trivial
  simp only [Drawing.automaton, hspends, Option.isSome_some, if_true]
  exact hf a

end Script

section

variable [DecidableEq K] (d : Drawing S R) (srv : Service S R ε K W D C V α) (bound : D → ℕ)
  (Known : D → ℕ → Prop)

/-- Drawn values come from the counter `bound`, and only spending makes a value known. -/
structure Drawing.Lawful : Prop where
  act : ∀ s w, bound w ≤ bound (srv.act s w w).world ∧
    ∀ x, Known (srv.act s w w).world x → Known w x
  draws : ∀ s w a x, (srv.act s w w).reply = .ok a → d.draws s a = some x →
    bound w ≤ x ∧ x < bound (srv.act s w w).world
  commit : ∀ c s w,
    bound (srv.commit c (srv.act s w w).writes (srv.act s w w).world) = bound (srv.act s w w).world ∧
    ∀ x, Known (srv.commit c (srv.act s w w).writes (srv.act s w w).world) x →
      Known w x ∨ d.spends s = some x
  evolve : ∀ v w, bound w ≤ bound (srv.evolve v w) ∧
    ∀ x, Known (srv.evolve v w) x → Known w x
  body : ∀ c, (srv.body c).Owns d none

/-- The values that the sessions hold, `o i` by session `i`, in the world `w`. -/
structure Drawing.Held (o : ℕ → Option ℕ) (w : D) : Prop where
  known : ∀ x, Known w x → x < bound w
  unknown : ∀ i x, o i = some x → x < bound w ∧ ¬ Known w x
  differ : ∀ i j x, o i = some x → o j = some x → i = j

variable {d srv bound Known} {o : ℕ → Option ℕ} {w w' : D} {i : ℕ} {o' : Option ℕ}

namespace Drawing.Held

/-- A session goes on with another value: none, the same, or one drawn now. What becomes
known is the value it held, if it gives that up. -/
theorem set (h : Drawing.Held bound Known o w) (hbound : bound w ≤ bound w')
    (hknown : ∀ x, Known w' x → Known w x ∨ o i = some x ∧ o' ≠ some x)
    (ho' : ∀ x, o' = some x → o i = some x ∨ bound w ≤ x ∧ x < bound w') :
    Drawing.Held bound Known (Function.update o i o') w' where
  known x hx := by
    rcases hknown x hx with hx | ⟨hx, -⟩
    · exact Nat.lt_of_lt_of_le (h.known x hx) hbound
    · exact Nat.lt_of_lt_of_le (h.unknown i x hx).1 hbound
  unknown j x hx := by
    by_cases hji : j = i
    · subst hji
      rw [Function.update_self] at hx
      rcases ho' x hx with hold | ⟨hle, hlt⟩
      · refine ⟨Nat.lt_of_lt_of_le (h.unknown j x hold).1 hbound, fun hk => ?_⟩
        rcases hknown x hk with hk | ⟨-, hne⟩
        · exact (h.unknown j x hold).2 hk
        · exact hne hx
      · refine ⟨hlt, fun hk => ?_⟩
        rcases hknown x hk with hk | ⟨-, hne⟩
        · exact absurd (h.known x hk) (Nat.not_lt.mpr hle)
        · exact hne hx
    · rw [Function.update_of_ne hji] at hx
      refine ⟨Nat.lt_of_lt_of_le (h.unknown j x hx).1 hbound, fun hk => ?_⟩
      rcases hknown x hk with hk | ⟨hk, -⟩
      · exact (h.unknown j x hx).2 hk
      · exact hji (h.differ j i x hx hk)
  differ := by
    -- a value drawn now is held by nobody else
    have hnew : ∀ j x, j ≠ i → o' = some x → o j ≠ some x := by
      intro j x hji hx hj
      rcases ho' x hx with hold | ⟨hle, -⟩
      · exact hji (h.differ j i x hj hold)
      · exact absurd (h.unknown j x hj).1 (Nat.not_lt.mpr hle)
    intro j j' x hj hj'
    by_cases hji : j = i <;> by_cases hj'i : j' = i
    · rw [hji, hj'i]
    · rw [hji, Function.update_self] at hj
      rw [Function.update_of_ne hj'i] at hj'
      exact absurd hj' (hnew j' x hj'i hj)
    · rw [hj'i, Function.update_self] at hj'
      rw [Function.update_of_ne hji] at hj
      exact absurd hj (hnew j x hji hj')
    · rw [Function.update_of_ne hji] at hj
      rw [Function.update_of_ne hj'i] at hj'
      exact h.differ j j' x hj hj'

/-- What only passes the time. -/
theorem rest (h : Drawing.Held bound Known o w) (hbound : bound w ≤ bound w')
    (hknown : ∀ x, Known w' x → Known w x) : Drawing.Held bound Known o w' where
  known x hx := Nat.lt_of_lt_of_le (h.known x (hknown x hx)) hbound
  unknown i x hx := ⟨Nat.lt_of_lt_of_le (h.unknown i x hx).1 hbound,
    fun hk => (h.unknown i x hx).2 (hknown x hk)⟩
  differ := h.differ

omit [DecidableEq K] in
/-- One statement of a session, outside any transaction. -/
theorem stmt (h : Drawing.Held bound Known o w) (hd : d.Lawful srv bound Known) {s : S}
    (hmay : ∀ x, d.spends s = some x → o i = some x) {l : Local K W} (hl : l.tx = none)
    (c : Session C) :
    Drawing.Held bound Known
      (Function.update o i (d.automaton.next (o i) (.stmt s) (srv.exec l w (.stmt s)).reply))
      (srv.after c (srv.exec l w (.stmt s))) := by
  have hafter : bound (srv.after c (srv.exec l w (.stmt s))) = bound (srv.act s w w).world ∧
      ∀ x, Known (srv.after c (srv.exec l w (.stmt s))) x → Known w x ∨ d.spends s = some x := by
    rw [Engine.after_auto hl]
    split_ifs
    · exact ⟨rfl, fun x hx => .inl ((hd.act s w).2 x hx)⟩
    · exact hd.commit c s w
  obtain ⟨hbound, hknown⟩ := hafter
  have hle : bound w ≤ bound (srv.after c (srv.exec l w (.stmt s))) := hbound ▸ (hd.act s w).1
  have hreply : (srv.exec l w (.stmt s)).reply = (srv.act s w w).reply := by
    rw [Engine.exec_auto hl]
  rw [hreply]
  cases hspends : d.spends s with
  | some x =>
    -- the value is given up
    have hnext : ∀ r, (d.automaton (ε := ε)).next (o i) (.stmt s) r = none := by
      intro r
      cases r <;> simp [automaton, hspends]
    rw [hnext]
    refine h.set hle (fun y hy => ?_) fun y hy => nomatch hy
    rcases hknown y hy with hy | hy
    · exact .inl hy
    · exact .inr ⟨hmay y hy, Option.some_ne_none _ ∘ Eq.symm⟩
  | none =>
    have hsame : ∀ y, Known (srv.after c (srv.exec l w (.stmt s))) y → Known w y := fun y hy =>
      (hknown y hy).resolve_right (by simp [hspends])
    refine h.set hle (fun y hy => .inl (hsame y hy)) fun y hy => ?_
    cases hr : (srv.act s w w).reply with
    | error e =>
      rw [hr] at hy
      exact .inl (by simpa [automaton, hspends] using hy)
    | ok a =>
      rw [hr] at hy
      simp only [automaton, hspends, Option.isSome_none, Bool.false_eq_true, if_false] at hy
      rcases Option.or_eq_some_iff.mp hy with hdraw | ⟨-, hold⟩
      · rw [hbound]
        exact .inr (hd.draws s w a y hr hdraw)
      · exact .inl hold

end Drawing.Held

/-- Every session holds the value it drew, if any, and nobody else has seen it. -/
def Drawing.Fresh (d : Drawing S R) (bound : D → ℕ) (Known : D → ℕ → Prop)
    (s : System S R ε K W D C α) : Prop :=
  ∃ o, Obeying d.automaton (fun _ _ => True) o s ∧ Drawing.Held bound Known o s.world

variable {s : System S R ε K W D C α}

namespace Drawing.Fresh

omit [DecidableEq K] in
theorem initial (hthreads : s.threads = []) (hknown : ∀ x, Known s.world x → x < bound s.world) :
    d.Fresh bound Known s :=
  ⟨_, .nil hthreads, hknown, fun _ _ hx => (nomatch hx), fun _ _ _ hx => (nomatch hx)⟩

theorem step (h : d.Fresh bound Known s) (hd : d.Lawful srv bound Known) (a : Action C V) :
    d.Fresh bound Known (srv.step s a) := by
  obtain ⟨o, hobeying, hheld⟩ := h
  cases hobeying.step (d.answered _) hd.body a with
  | rests _ hworld _ hobeying' => exact ⟨o, hobeying', hworld ▸ hheld⟩
  | evolves v _ hstep hobeying' =>
    obtain ⟨hbound, hknown⟩ := hd.evolve v s.world
    refine ⟨o, hobeying', ?_⟩
    rw [hstep]
    exact hheld.rest hbound hknown
  | runs i t m k _ ht hp hmay _ _ hstep hobeying' =>
    refine ⟨_, hobeying', ?_⟩
    rw [hstep]
    obtain ⟨st, rfl⟩ := d.plain _ _ hmay
    exact hheld.stmt hd hmay (hobeying.plain d.plain t (List.mem_of_getElem? ht)) t.session
  | fails i t m k _ ht hp hmay _ hstep hobeying' =>
    refine ⟨_, hobeying', ?_⟩
    rw [hstep]
    obtain ⟨st, rfl⟩ := d.plain _ _ hmay
    refine hheld.set (Nat.le_refl _) (fun x hx => .inl hx) fun x hx => .inl ?_
    simp only [automaton] at hx
    split_ifs at hx
    exact hx

/-- What is spent by a step was not known before it. -/
theorem spend (h : d.Fresh bound Known s) (hd : d.Lawful srv bound Known) {a : Action C V}
    {cm : Commit C W D} (hc : srv.committed s a = some cm) {x : ℕ}
    (hx : ∀ st w, (srv.act st w w).writes = cm.writes → d.spends st = some x) :
    ¬ Known s.world x := by
  obtain ⟨o, hobeying, hheld⟩ := h
  cases hobeying.step (d.answered _) hd.body a with
  | runs i t m k _ ht hp hmay _ hcommitted _ _ =>
    obtain ⟨st, rfl⟩ := d.plain _ _ hmay
    rw [hcommitted, Engine.exec_auto (hobeying.plain d.plain t (List.mem_of_getElem? ht))] at hc
    obtain ⟨ws, hws, rfl⟩ := Option.map_eq_some_iff.mp hc
    split_ifs at hws
    exact (hheld.unknown i x (hmay x (hx st s.world (Option.some.inj hws)))).2
  | rests hnone => cases hnone.symm.trans hc
  | evolves _ hnone => cases hnone.symm.trans hc
  | fails i t m k _ _ _ _ hnone => cases hnone.symm.trans hc

end Drawing.Fresh

end

end TurfSync.Txn
