import TurfSync.Txn.Journal
import TurfSync.Txn.Solo

/-! Programs by the commands they can issue. `Uses φ Q p` says that every command of `p`
meets `φ`, and what it returns `Q`, whatever the replies are: it follows the syntax of the
program and needs no world. What the commands that meet `φ` keep, one by one, is kept by
the whole program when it runs alone. -/

namespace TurfSync.Txn

variable {S : Type} {R : S → Type} {ε K W D C α β : Type}

namespace Script

/-- Every command that `p` can issue meets `φ`, and every value it can return `Q`. -/
def Uses (φ : Cmd S → Prop) (Q : α → Prop) : Script S R ε α → Prop
  | .ret a => Q a
  | .throw _ => True
  | .call m k => φ m ∧ ∀ r, Uses φ Q (k r)

variable {φ : Cmd S → Prop} {P : α → Prop} {Q : β → Prop} {p : Script S R ε α}
  {f : α → Script S R ε β}

theorem uses_bind (hp : Uses φ P p) (hf : ∀ a, P a → Uses φ Q (f a)) : Uses φ Q (p.bind f) := by
  induction p with
  | ret a => exact hf a hp
  | throw e => trivial
  | call m k ih => exact ⟨hp.1, fun r => ih r (hp.2 r)⟩

theorem uses_mono {ψ : Cmd S → Prop} (hp : Uses φ P p) (h : ∀ m, φ m → ψ m) : Uses ψ P p := by
  induction p with
  | ret a => exact hp
  | throw e => trivial
  | call m k ih => exact ⟨h m hp.1, fun r => ih r (hp.2 r)⟩

theorem uses_any (p : Script S R ε α) : Uses (fun _ => True) (fun _ => True) p := by
  induction p with
  | call m k ih => exact ⟨trivial, ih⟩
  | _ => trivial

theorem uses_perform {s : S} (h : φ (.stmt s)) :
    Uses φ (fun _ => True) (perform s : Script S R ε (R s)) := by
  refine ⟨h, fun r => ?_⟩
  cases r <;> trivial

/-- One statement, whatever it answers. -/
theorem uses_perform_bind {s : S} {f : R s → Script S R ε β} (h : φ (.stmt s))
    (hf : ∀ a, Uses φ Q (f a)) : Uses φ Q ((perform s).bind f) :=
  uses_bind (uses_perform h) fun a _ => hf a

theorem uses_tryCatch {h : ε → Script S R ε α} (hp : Uses φ P p) (hh : ∀ e, Uses φ P (h e)) :
    Uses φ P (p.tryCatch h) := by
  induction p with
  | ret a => exact hp
  | throw e => exact hh e
  | call m k ih => exact ⟨hp.1, fun r => ih r (hp.2 r)⟩

/-- A transaction issues the brackets as well. -/
theorem uses_transaction (hbegin : φ .begin) (hcommit : φ .commit) (hrollback : φ .rollback)
    (hp : Uses φ P p) : Uses φ P (transaction p) := by
  have htx : Uses φ P (inTx p) := by
    induction p with
    | ret a =>
      refine ⟨hcommit, fun r => ?_⟩
      cases r with
      | ok u => exact hp
      | error e => trivial
    | throw e => exact ⟨hrollback, fun _ => trivial⟩
    | call m k ih => exact ⟨hp.1, fun r => ih r (hp.2 r)⟩
  refine ⟨hbegin, fun r => ?_⟩
  cases r with
  | ok u => exact htx
  | error e => trivial

theorem uses_forEach {ι : Type} {f : ι → Script S R ε Unit} {is : List ι}
    (h : ∀ i ∈ is, Uses φ (fun _ => True) (f i)) : Uses φ (fun _ => True) (forEach f is) := by
  induction is with
  | nil => trivial
  | cons i is ih =>
    exact uses_bind (h i (by simp)) fun _ _ => ih fun j hj => h j (List.mem_cons_of_mem i hj)

end Script

/-- What every command that meets `φ` keeps is kept by a program that uses such commands
only. -/
theorem Engine.solo_uses {E : Engine S R ε K W D C} {c : Session C} {φ : Cmd S → Prop}
    {Q : α → Prop} {I : Local K W → D → Prop}
    (hI : ∀ l w m, I l w → φ m → I (E.exec l w m).loc (E.after c (E.exec l w m)))
    {p : Script S R ε α} (hp : Script.Uses φ Q p) {l : Local K W} {w : D} (h : I l w) :
    (∀ a, (E.solo c p l w).1 = .ok a → Q a) ∧ I (E.solo c p l w).2.1 (E.solo c p l w).2.2 := by
  induction p generalizing l w with
  | ret a =>
    refine ⟨fun a' ha => ?_, h⟩
    obtain rfl := Except.ok.inj ha
    exact hp
  | throw e => exact ⟨fun _ ha => (nomatch ha), h⟩
  | call m k ih => exact ih _ (hp.2 _) (hI l w m h hp.1)

/-! ### Journals -/

namespace Journal

variable {B : Type} {E : Engine S R ε K W D C} {journal : D → List (Entry C W B)} {snap : D → B}
  {le : D → D → Prop} {inv : D → Prop} {post : List (Entry C W B) → Entry C W B → Prop}
  {c : Session C} {es : List (Entry C W B)}

/-- A program of statements that keep `J` of the session's entries. -/
theorem holds_uses_bind (hJ : Kept E journal snap le)
    (hP : (rules (S := S) (K := K) journal snap le inv post).Lawful E) {φ : S → Prop}
    {J : List (Entry C W B) → Prop} {p : Script S R ε α} {f : α → Script S R ε β}
    {Q : Post ε K W D β}
    (hp : Script.Uses (fun m => ∃ s, m = .stmt s ∧ φ s) (fun _ => True) p)
    (hentry : ∀ s w, φ s → inv w → J (own c.id (journal w)) → (E.act s w w).writes ≠ [] →
      post (journal w) ⟨c, (E.act s w w).writes, snap (E.act s w w).world⟩ ∧
      J (own c.id (journal w) ++ [⟨c, (E.act s w w).writes, snap (E.act s w w).world⟩]))
    (h : ∀ es a, J es → Holds E journal (rules journal snap le inv post) c es (f a) Q)
    (hf : ∀ es e, J es → Holds E journal (rules journal snap le inv post) c es (.throw e) Q)
    (hes : J es) : Holds E journal (rules journal snap le inv post) c es (p.bind f) Q := by
  induction p generalizing es with
  | ret a => exact h es a hes
  | throw e => exact hf es e hes
  | call m k ih =>
    obtain ⟨⟨s, rfl, hs⟩, hk⟩ := hp
    intro w _ hown w' hr hi
    have hown' := (own_rely hr).trans hown
    refine ⟨fun _ => ?_, fun _ => ih _ (hk _) hes w' hi hown'⟩
    have hjournal := (hJ.act s w' w').1
    have hinv := hP.act_inv s w' hi
    by_cases hw : (E.act s w' w').writes = []
    · have hafter : E.after c (E.exec .idle w' (.stmt s)) = (E.act s w' w').world := by
        simp [Engine.exec, Engine.after, hw]
      refine ⟨by simp [Engine.exec, hw], ?_⟩
      rw [hafter]
      exact ih _ (hk _) hes _ hinv (by rw [hjournal, hown'])
    · have hafter : E.after c (E.exec .idle w' (.stmt s)) =
          E.commit c (E.act s w' w').writes (E.act s w' w').world := by
        simp [Engine.exec, Engine.after, hw]
      obtain ⟨hpost, hJ'⟩ := hentry s w' hs hi.1 (hown' ▸ hes) hw
      rw [← hjournal] at hpost
      refine ⟨fun ws hws => ?_, ?_⟩
      · have hws' : (E.act s w' w').writes = ws := by simpa [Engine.exec, hw] using hws
        subst hws'
        simpa [Engine.exec, rules] using hpost
      · rw [hafter]
        refine ih _ (hk _) (hown' ▸ hJ') _ (@Rules.Lawful.commit_inv _ _ _ _ _ _ _ _ _ hP c
          (E.act s w' w').locks _ _ hinv hpost) ?_
        rw [(hJ.commit c _ _).1, hjournal]
        exact (own_self ⟨c, _, _⟩ _).trans (by rw [hown'])

end Journal

end TurfSync.Txn
