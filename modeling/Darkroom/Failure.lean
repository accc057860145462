import Darkroom.Fault
import Darkroom.Numeric.Word

/-!
# Failures

A computation that fails ends with a fault, which is an answer that can be reported, or it breaks
off and gives no answer at all.

## Main definitions

* `Failure` : the two ways to fail.
* `Failure.lift` : a result within a larger computation.
* `Failure.ofWorker` : the result of work that is done apart.
-/

namespace Darkroom

open Numeric (WordFault)

/-- How a computation fails: with a fault, or broken off. -/
inductive Failure where
  | fault (fault : Fault)
  | broken (cause : WordFault)
  deriving DecidableEq, Repr

namespace Failure

/-- A result within a computation that may fail. -/
def lift {m : Type → Type} [Monad m] [MonadExceptOf Failure m] {α : Type} :
    Except Failure α → m α
  | .ok x => pure x
  | .error failure => throw failure

/-- The fault of a worker that broke off. -/
def workerFault (work : String) : Fault := .processing s!"{work} worker failed: it broke off"

/-- The result of work that is done apart, by a worker: if it breaks off, the worker has failed. -/
def ofWorker {α : Type} (work : String) : Except Failure α → Except Fault α
  | .ok x => .ok x
  | .error (.fault reported) => .error reported
  | .error (.broken _) => .error (workerFault work)

end Failure

end Darkroom
