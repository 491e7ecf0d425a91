import Mathlib.Data.Int.Notation
import Mathlib.Data.Nat.Notation
import Mathlib.Tactic.Common

/-!
# Exceptions, isolation levels and transaction scopes

What the data access code takes from the platform. `Exn` lists the exceptions the code throws or
lets through. `IsolationLevel` is `System.Data.IsolationLevel`, an enumeration any integer can be
cast to, and `ScopeIsolation` its namesake of `System.Transactions`.

`TransactionScope` keeps the two facts about a scope its owner can observe: whether `Complete` has
succeeded on it and whether it is disposed. `complete` throws on a disposed scope and on a scope
already completed, and `dispose` does nothing on a disposed scope. On an open scope `Dispose` may
throw; `DisposeOutcome` says how the call ends and whether the scope is then disposed.
-/

set_option autoImplicit false
set_option relaxedAutoImplicit false

namespace SharpArch.Platform.SystemTransactions

/-- The exceptions of the modelled code, by .NET type. -/
inductive Exn
  | argumentNull (parameter : String)
  | argumentOutOfRange (parameter : String)
  | invalidOperation (message : String)
  | invalidCast
  | objectDisposed
  | operationCanceled
  | validation (message : String)
  | saveChangesFailed
  | disposeFailed
  | thrownByAction
  deriving DecidableEq, Repr

/-- `System.Data.IsolationLevel`; `undefined` is an integer without a name cast to the type. -/
inductive IsolationLevel
  | unspecified
  | chaos
  | readUncommitted
  | readCommitted
  | repeatableRead
  | serializable
  | snapshot
  | undefined (value : ℤ)
  deriving DecidableEq, Repr

/-- `System.Transactions.IsolationLevel`. -/
inductive ScopeIsolation
  | unspecified
  | chaos
  | readUncommitted
  | readCommitted
  | repeatableRead
  | serializable
  | snapshot
  deriving DecidableEq, Repr

/-- A `System.Transactions.TransactionScope`. -/
structure TransactionScope where
  isolationLevel : ScopeIsolation
  completed : Bool := false
  disposed : Bool := false
  deriving DecidableEq, Repr

/-- How `Dispose` on an open scope ends: it returns with the scope disposed, or it throws, with the
scope disposed or still open. -/
inductive DisposeOutcome
  | returns
  | throwsDisposed
  | throwsOpen
  deriving DecidableEq, Repr

/-- `TransactionScope.Complete`. -/
def TransactionScope.complete (scope : TransactionScope) :
    Except Exn Unit × TransactionScope :=
  if scope.disposed then (.error .objectDisposed, scope)
  else if scope.completed then
    (.error (.invalidOperation "The current TransactionScope is already complete."), scope)
  else (.ok (), { scope with completed := true })

/-- `TransactionScope.Dispose`, idempotent. -/
def TransactionScope.dispose (outcome : DisposeOutcome) (scope : TransactionScope) :
    Except Exn Unit × TransactionScope :=
  if scope.disposed then (.ok (), scope)
  else match outcome with
    | .returns => (.ok (), { scope with disposed := true })
    | .throwsDisposed => (.error .disposeFailed, { scope with disposed := true })
    | .throwsOpen => (.error .disposeFailed, scope)

variable {scope : TransactionScope} {outcome : DisposeOutcome}

@[simp] theorem dispose_completed :
    (scope.dispose outcome).2.completed = scope.completed := by
  unfold TransactionScope.dispose
  split_ifs
  · rfl
  · cases outcome <;> rfl

/-- After `Dispose` a scope is open exactly when it was open and the call threw on an open scope
without disposing it. -/
theorem dispose_open_iff :
    (scope.dispose outcome).2.disposed = false ↔
      scope.disposed = false ∧ outcome = .throwsOpen := by
  unfold TransactionScope.dispose
  cases hdisposed : scope.disposed <;> cases outcome <;> simp [hdisposed]

/-- `Dispose` returns on a disposed scope, and on an open one when the call is not made to
throw. -/
theorem dispose_ok_iff :
    (scope.dispose outcome).1 = .ok () ↔ scope.disposed = true ∨ outcome = .returns := by
  unfold TransactionScope.dispose
  cases hdisposed : scope.disposed <;> cases outcome <;> simp

end SharpArch.Platform.SystemTransactions
