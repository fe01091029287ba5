import TurfSync.Txn.Program

/-! A program over one signature as a program over a larger one: the statements of the
left half, with their replies and the transaction brackets as they are. -/

namespace TurfSync.Txn.Script

variable {S T : Type} {R : S → Type} {Q : T → Type} {ε α β : Type}

/-- The statements `S`, among `S ⊕ T`. -/
def embed : Script S R ε α → Script (S ⊕ T) (Sum.elim R Q) ε α
  | .ret a => .ret a
  | .throw e => .throw e
  | .call .begin k => .call .begin fun r => embed (k r)
  | .call .commit k => .call .commit fun r => embed (k r)
  | .call .rollback k => .call .rollback fun r => embed (k r)
  | .call (.stmt s) k => .call (.stmt (.inl s)) fun r => embed (k r)

@[simp] theorem embed_ret (a : α) :
    (embed (.ret a : Script S R ε α) : Script (S ⊕ T) (Sum.elim R Q) ε α) = .ret a := rfl

@[simp] theorem embed_throw (e : ε) :
    (embed (.throw e : Script S R ε α) : Script (S ⊕ T) (Sum.elim R Q) ε α) = .throw e := rfl

theorem embed_perform_bind (s : S) (f : R s → Script S R ε α) :
    (embed ((perform s).bind f) : Script (S ⊕ T) (Sum.elim R Q) ε α) =
      (perform (S := S ⊕ T) (R := Sum.elim R Q) (.inl s)).bind fun a => embed (f a) := by
  simp only [perform, Prog.call_bind, embed]
  congr 1
  funext r
  cases r <;> rfl

theorem embed_inTx (p : Script S R ε α) :
    (embed (inTx p) : Script (S ⊕ T) (Sum.elim R Q) ε α) = inTx (embed p) := by
  induction p with
  | ret a =>
    simp only [inTx, embed]
    congr 1
    funext r
    cases r <;> rfl
  | throw e => rfl
  | call m k ih =>
    cases m with
    | stmt s =>
      simp only [inTx, embed]
      congr 1
      funext r
      exact ih r
    | _ => simp only [inTx, embed, ih]

theorem embed_transaction (p : Script S R ε α) :
    (embed (transaction p) : Script (S ⊕ T) (Sum.elim R Q) ε α) = transaction (embed p) := by
  simp only [transaction, embed]
  congr 1
  funext r
  cases r with
  | ok u => exact embed_inTx p
  | error e => rfl

end TurfSync.Txn.Script
