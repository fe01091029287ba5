import TurfSync.Txn.Runs

/-! A further postcondition for sessions that are known to keep to the rules. That
their commits meet `post` is then an assumption, and no longer to be shown. -/

namespace TurfSync.Txn

variable {S : Type} {R : S → Type} {ε K W D C V α β : Type}

/-- The rules over the steps whose commits meet `post`. -/
def Rules.assuming (P : Rules S K W D C) (E : Engine S R ε K W D C) : Rules S K W D C :=
  { P with
    allow := fun c l w m f => P.allow c l w m f ∧ (f = false → ∀ ws, (E.exec l w m).done = some ws →
      P.post c ((E.exec l w m).needs ++ l.held) ws (E.exec l w m).base) }

section

variable {E : Engine S R ε K W D C} {P : Rules S K W D C} {c : Session C}

theorem Rules.Lawful.assuming (hP : P.Lawful E) : (P.assuming E).Lawful E where
  refl := hP.refl
  trans := hP.trans
  start := hP.start
  act_inv := hP.act_inv
  act_rely := hP.act_rely
  commit_inv := hP.commit_inv
  commit_rely := hP.commit_rely

theorem wp_assuming {p : Script S R ε α} {Q : Post ε K W D α} {l : Local K W} {w : D}
    (h : wp E P c p Q l w) : wp E (P.assuming E) c p Q l w := by
  induction p generalizing l w with
  | ret a => exact h
  | throw e => exact h
  | call m k ih =>
    intro w' hr hi
    obtain ⟨hs, hf⟩ := h w' hr hi
    exact ⟨fun ha => ⟨(hs ha.1).1, ih _ (hs ha.1).2⟩, fun ha => ih _ (hf ha.1)⟩

/-- At the end of the body of a transaction, what follows the commit is left to show. -/
theorem wp_ret_assuming {a : α} {Q : Post ε K W D α} {ws : List W} {ks : List K} {w : D}
    (h : ∀ w', P.rely c.id ks w w' → P.inv w' → P.post c ks ws w' →
      wp E (P.assuming E) c (.ret a) Q .idle (E.commit c ws w'))
    (hf : ∀ w', P.rely c.id ks w w' → P.inv w' →
      wp E (P.assuming E) c (.throw E.fault) Q .idle w') :
    wp E (P.assuming E) c (.ret a) (TxPost E (P.assuming E) c Q) ⟨some ws, ks⟩ w := by
  intro w' hr hi
  refine ⟨fun ha => ?_, fun _ => hf w' hr hi⟩
  have hpost : P.post c ks ws w' := by simpa [Engine.exec] using ha.2 rfl ws (by simp [Engine.exec])
  exact ⟨hpost, h w' hr hi hpost⟩

/-- A write statement by itself. -/
theorem wp_stmt_assuming {s : S} {f : R s → Script S R ε β} {Q : Post ε K W D β} {w : D}
    (h : ∀ w', P.rely c.id [] w w' → P.inv w' →
      ((E.act s w' w').writes = [] →
        wp E (P.assuming E) c (resume (E.act s w' w').reply f) Q .idle (E.act s w' w').world) ∧
      ((E.act s w' w').writes ≠ [] →
        P.post c (E.act s w' w').locks (E.act s w' w').writes (E.act s w' w').world →
        wp E (P.assuming E) c (resume (E.act s w' w').reply f) Q .idle
          (E.commit c (E.act s w' w').writes (E.act s w' w').world)))
    (hf : ∀ w', P.rely c.id [] w w' → P.inv w' →
      wp E (P.assuming E) c (.throw E.fault) Q .idle w') :
    wp E (P.assuming E) c ((Script.perform s).bind f) Q .idle w := by
  refine wp_stmt_auto (fun w' hr hi ha => ⟨(h w' hr hi).1, fun hw => ?_⟩)
    fun w' hr hi _ => hf w' hr hi
  have hpost : P.post c (E.act s w' w').locks (E.act s w' w').writes (E.act s w' w').world := by
    simpa [Engine.exec, hw] using ha.2 rfl (E.act s w' w').writes (by simp [Engine.exec, hw])
  exact ⟨hpost, (h w' hr hi).2 hw hpost⟩

end

section

variable [DecidableEq K] {srv : Service S R ε K W D C V α} {P : Rules S K W D C}
  {Q : Session C → Post ε K W D α} {s : System S R ε K W D C α}

omit [DecidableEq K] in
theorem Starts.assuming (h : Starts srv P Q) : Starts srv (P.assuming srv.toEngine) Q where
  evolve_inv := h.evolve_inv
  evolve_rely := h.evolve_rely
  body n c w hw hn hc := wp_assuming (h.body n c w hw hn hc)

omit [DecidableEq K] in
theorem Sound.assuming (h : Sound srv P Q s) : Sound srv (P.assuming srv.toEngine) Q s where
  inv := h.inv
  starts := h.starts
  ids := h.ids
  excl := h.excl
  wps i t ht := wp_assuming (h.wps i t ht)

/-- What a sound system does meets the assumption. -/
theorem Sound.permits_assuming (h : Sound srv P Q s) (hP : P.Lawful srv.toEngine) {a : Action C V}
    (ha : Permits srv P.allow s a) : Permits srv (P.assuming srv.toEngine).allow s a := by
  cases a with
  | run i =>
    intro hsome t ht
    have hallow := ha hsome t ht
    have hwp := h.wps i t ht
    cases hp : t.prog with
    | call m k =>
      rw [hp] at hallow hwp
      exact ⟨hallow, fun _ => ((hwp s.world (hP.refl _ _ _) h.inv).1 hallow).1⟩
    | _ => trivial
  | fault i =>
    intro t ht
    have hallow := ha t ht
    cases hp : t.prog with
    | call m k =>
      rw [hp] at hallow
      exact ⟨hallow, fun hf => by cases hf⟩
    | _ => trivial
  | _ => trivial

/-- A session of a sound system ends as the rest of its program promises, its commits taken to
meet `post`. -/
theorem Service.ends_assuming {as : List (Action C V)} (h : Sound srv P Q s)
    (hP : P.Lawful srv.toEngine) (hS : Starts srv P Q) (hM : srv.Each (Permits srv P.allow) s as)
    {i : ℕ} {t : Thread S R ε K W C α} (ht : s.threads[i]? = some t) {Q' : Post ε K W D α}
    (hwp : wp srv.toEngine (P.assuming srv.toEngine) t.session t.prog Q' t.loc s.world)
    {c : C} {r : Except ε α} (he : (srv.run s as).Ended i c r) : ∃ l, Q' r l (srv.run s as).world := by
  have hassumed : srv.Each (Permits srv (P.assuming srv.toEngine).allow) s as := by
    clear hwp he ht
    induction as generalizing s with
    | nil => trivial
    | cons a as ih =>
      exact ⟨h.permits_assuming hP hM.1, ih (h.step hP hS hM.1) hM.2⟩
  exact sound_ends h.assuming hP.assuming hS.assuming hassumed ht hwp he

end

end TurfSync.Txn
