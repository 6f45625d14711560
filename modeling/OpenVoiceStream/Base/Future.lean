import Mathlib.Data.Nat.Notation

/-!
# Futures of an event loop

The part of a future a scheduler sees: whether it is pending, carries a result or
was cancelled.  The first of `setResult` and `cancel` decides; whoever comes later
finds the future done.

* `Fut.isDone` — the future is no longer pending.
* `Fut.cancel`, `Fut.setResult` — what the two attempts leave behind.
-/

/-- The state of a future. -/
inductive Fut
  | pending
  /-- A result has been set. -/
  | done
  | cancelled
  deriving DecidableEq, Repr

namespace Fut

/-- `future.done()`: a result or a cancellation is there. -/
def isDone : Fut → Bool
  | pending => false
  | done | cancelled => true

/-- The future after `future.cancel()`, which has no effect on a finished one. -/
def cancel : Fut → Fut
  | pending | cancelled => cancelled
  | done => done

/-- The future after a result has been copied into it, which a finished one ignores. -/
def setResult : Fut → Fut
  | pending | done => done
  | cancelled => cancelled

@[simp] theorem isDone_eq_false {f : Fut} : f.isDone = false ↔ f = pending := by
  cases f <;> simp [isDone]

@[simp] theorem cancel_eq_done {f : Fut} : f.cancel = done ↔ f = done := by
  cases f <;> simp [cancel]

@[simp] theorem cancel_ne_pending (f : Fut) : f.cancel ≠ pending := by
  cases f <;> simp [cancel]

@[simp] theorem setResult_eq_cancelled {f : Fut} : f.setResult = cancelled ↔ f = cancelled := by
  cases f <;> simp [setResult]

@[simp] theorem setResult_pending : setResult pending = done := rfl

@[simp] theorem setResult_cancelled : setResult cancelled = cancelled := rfl

end Fut
