import Mathlib.Logic.Basic

/-! Finite programs over a signature of statements. A program returns, throws, or
issues one statement and continues with its reply, which may itself be an error.
Exceptions, handlers and finalizers act as in an `async` function, and a
transaction brackets a body with `begin` and `commit`, or `rollback` when the
body throws. Nothing here says what a statement does. -/

namespace TurfSync.Txn

/-- Programs over the statements `S` with replies `R`, errors `ε` and results `α`. -/
inductive Prog (S : Type) (R : S → Type) (ε α : Type) where
  | ret (a : α)
  | throw (e : ε)
  | call (s : S) (k : Except ε (R s) → Prog S R ε α)

namespace Prog

variable {S : Type} {R : S → Type} {ε α β γ : Type}

def bind : Prog S R ε α → (α → Prog S R ε β) → Prog S R ε β
  | ret a, f => f a
  | throw e, _ => throw e
  | call s k, f => call s fun r => (k r).bind f

instance : Monad (Prog S R ε) where
  pure := ret
  bind := bind

/-- `try p catch (e) { h e }`. -/
def tryCatch : Prog S R ε α → (ε → Prog S R ε α) → Prog S R ε α
  | ret a, _ => ret a
  | throw e, h => h e
  | call s k, h => call s fun r => (k r).tryCatch h

/-- `try p finally { fin }`: an error of the finalizer replaces the outcome. -/
def tryFinally : Prog S R ε α → Prog S R ε Unit → Prog S R ε α
  | ret a, fin => fin.bind fun _ => ret a
  | throw e, fin => fin.bind fun _ => throw e
  | call s k, fin => call s fun r => (k r).tryFinally fin

/-- The outcome of a program that has ended. -/
def result? : Prog S R ε α → Option (Except ε α)
  | ret a => some (.ok a)
  | throw e => some (.error e)
  | call _ _ => none

/-- The next statement, if there is one, satisfies `φ`. -/
def Next (φ : S → Prop) : Prog S R ε α → Prop
  | call s _ => φ s
  | _ => True

instance (φ : S → Prop) [DecidablePred φ] : (p : Prog S R ε α) → Decidable (p.Next φ)
  | call s _ => inferInstanceAs (Decidable (φ s))
  | ret _ => inferInstanceAs (Decidable True)
  | throw _ => inferInstanceAs (Decidable True)

theorem bind_eq (p : Prog S R ε α) (f : α → Prog S R ε β) : p >>= f = p.bind f := rfl

theorem pure_eq (a : α) : (pure a : Prog S R ε α) = ret a := rfl

@[simp] theorem ret_bind (a : α) (f : α → Prog S R ε β) : (ret a).bind f = f a := rfl

@[simp] theorem throw_bind (e : ε) (f : α → Prog S R ε β) : (throw e).bind f = throw e := rfl

@[simp] theorem call_bind (s : S) (k : Except ε (R s) → Prog S R ε α) (f : α → Prog S R ε β) :
    (call s k).bind f = call s fun r => (k r).bind f := rfl

@[simp] theorem bind_ret (p : Prog S R ε α) : p.bind ret = p := by
  induction p with
  | ret a => rfl
  | throw e => rfl
  | call s k ih => simp only [call_bind, ih]

theorem bind_assoc (p : Prog S R ε α) (f : α → Prog S R ε β) (g : β → Prog S R ε γ) :
    (p.bind f).bind g = p.bind fun a => (f a).bind g := by
  induction p with
  | ret a => rfl
  | throw e => rfl
  | call s k ih => simp only [call_bind, ih]

end Prog

/-- The statements of a session: those of the signature and the transaction brackets. -/
inductive Cmd (S : Type) where
  | begin
  | commit
  | rollback
  | stmt (s : S)

/-- The reply to a command; the brackets answer nothing. -/
@[reducible] def Cmd.Reply {S : Type} (R : S → Type) : Cmd S → Type
  | .stmt s => R s
  | _ => Unit

/-- A program run by one session. -/
abbrev Script (S : Type) (R : S → Type) (ε α : Type) := Prog (Cmd S) (Cmd.Reply R) ε α

namespace Script

variable {S : Type} {R : S → Type} {ε α : Type}

/-- Issue one statement and hand on its reply. -/
def perform (s : S) : Script S R ε (R s) :=
  .call (.stmt s) fun
    | .ok a => .ret a
    | .error e => .throw e

/-- The body of an open transaction: it commits on return and rolls back on a throw. -/
def inTx : Script S R ε α → Script S R ε α
  | .ret a => .call .commit fun
    | .ok _ => .ret a
    | .error e => .throw e
  | .throw e => .call .rollback fun _ => .throw e
  | .call m k => .call m fun r => inTx (k r)

/-- `$transaction(body)`. -/
def transaction (p : Script S R ε α) : Script S R ε α :=
  .call .begin fun
    | .ok _ => inTx p
    | .error e => .throw e

/-- Run `f` on each element in turn. -/
def forEach {ι : Type} (f : ι → Script S R ε Unit) : List ι → Script S R ε Unit
  | [] => .ret ()
  | i :: is => (f i).bind fun _ => forEach f is

/-- Run `f` on each element in turn and collect the rows it answers. -/
def collect {ι : Type} (f : ι → Script S R ε (Option α)) : List ι → Script S R ε (List α)
  | [] => .ret []
  | i :: is => (f i).bind fun row => (collect f is).bind fun rows => .ret (row.toList ++ rows)

end Script

end TurfSync.Txn
