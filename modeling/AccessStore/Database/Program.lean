/-
Programs.

An operation may need several statements, and between two of them other clients may do
theirs.  A program says what is done as one step and what is decided from its result,
so that it can be run at a stretch, which is `run`, or with the steps of other programs
in between.
-/
import AccessStore.Database.Session

namespace AccessStore

/-- A sequence of steps, each of which may depend on the results before it. -/
inductive Program (ε α : Type) : Type 1
  | done (result : Except ε α)
  | step {β : Type} (action : Action ε β) (next : β → Program ε α)

namespace Program

variable {ε δ α β : Type}

/-- Go on with the result of a program. -/
def bind : Program ε α → (α → Program ε β) → Program ε β
  | done (.ok a), f => f a
  | done (.error e), _ => done (.error e)
  | step action next, f => step action fun b => bind (next b) f

instance : Monad (Program ε) where
  pure a := done (.ok a)
  bind := bind

/-- End with an error. -/
def fail (e : ε) : Program ε α := done (.error e)

/-- A program of one step. -/
def once (action : Action ε α) : Program ε α := step action pure

/-- Take over a result. -/
def ofExcept (result : Except ε α) : Program ε α := done result

/-- Tell failures in other terms. -/
def mapError (f : ε → δ) : Program ε α → Program δ α
  | done result => done (result.mapError f)
  | step action next => step (action.mapError f) fun b => mapError f (next b)

/-- Run a program at a stretch. -/
def run : Program ε α → Action ε α
  | done result => Action.ofExcept result
  | step action next => do
      let b ← action
      run (next b)

/-- All of a program in one transaction, as one step. -/
def atomic (refused : StorageFault → ε) (p : Program ε α) : Program ε α :=
  once (Action.atomic refused p.run)

@[simp] theorem run_done (result : Except ε α) :
    (done result).run = Action.ofExcept result := rfl

@[simp] theorem run_pure (a : α) : (pure a : Program ε α).run = pure a := rfl

@[simp] theorem run_fail (e : ε) : (fail e : Program ε α).run = throw e := rfl

theorem run_step (action : Action ε β) (next : β → Program ε α) :
    (step action next).run = action >>= fun b => (next b).run := rfl

@[simp] theorem run_once (action : Action ε α) : (once action).run = action := by
  rw [once, run_step]
  exact bind_pure action

theorem run_bind (p : Program ε α) (f : α → Program ε β) :
    (p >>= f).run = p.run >>= fun a => (f a).run := by
  induction p with
  | done result => cases result <;> rfl
  | step action next ih =>
      show (action >>= fun b => (next b >>= f).run) = _
      rw [run_step, bind_assoc]
      exact congrArg _ (funext ih)

theorem run_mapError (g : ε → δ) (p : Program ε α) :
    (p.mapError g).run = p.run.mapError g := by
  induction p with
  | done result => cases result <;> rfl
  | step action next ih =>
      show (action.mapError g >>= fun b => ((next b).mapError g).run) = _
      rw [run_step, Action.mapError_bind]
      exact congrArg _ (funext ih)

end Program

end AccessStore
