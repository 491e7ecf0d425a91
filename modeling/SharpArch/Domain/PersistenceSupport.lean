import SharpArch.Platform.SystemTransactions

/-!
# Transaction managers as the domain layer sees them

`ITransactionManager` is the interface of the same name, with `isActive` present when the class
also implements `ISupportsTransactionStatus`. A manager acts on a state of its own, in which the
environment it depends on is included: a call that throws may leave the state anywhere.

`Contract` relates a manager to the transactions really open in a state. It asks for what the
interfaces say and no more: a `BeginTransaction` that throws opens nothing, and `IsActive`, where
there is one, reports an open transaction.
-/

set_option autoImplicit false
set_option relaxedAutoImplicit false

namespace SharpArch.Domain.PersistenceSupport

open Platform.SystemTransactions

/-- `ITransactionManager`, with the `IsActive` of `ISupportsTransactionStatus` if the class
implements it. -/
structure ITransactionManager (State : Type) where
  beginTransaction : IsolationLevel → State → Except Exn Unit × State
  commitTransactionAsync : State → Except Exn Unit × State
  rollbackTransactionAsync : State → Except Exn Unit × State
  isActive : Option (State → Bool)

variable {State : Type}

/-- What the interfaces say of the transactions open in a state. -/
structure Contract (manager : ITransactionManager State) (isOpen : State → Prop) : Prop where
  begin_throws : ∀ isolationLevel state exception,
    (manager.beginTransaction isolationLevel state).1 = .error exception →
      isOpen (manager.beginTransaction isolationLevel state).2 → isOpen state
  isActive_iff : ∀ isActive, manager.isActive = some isActive →
    ∀ state, isActive state = true ↔ isOpen state

/-- A call on a transaction manager. -/
inductive ManagerCall
  | beginTransaction (isolationLevel : IsolationLevel)
  | commitTransactionAsync
  | rollbackTransactionAsync
  deriving DecidableEq, Repr

/-- The state after a call, whether it returned or threw. -/
def ITransactionManager.step (manager : ITransactionManager State) (state : State) :
    ManagerCall → State
  | .beginTransaction isolationLevel => (manager.beginTransaction isolationLevel state).2
  | .commitTransactionAsync => (manager.commitTransactionAsync state).2
  | .rollbackTransactionAsync => (manager.rollbackTransactionAsync state).2

end SharpArch.Domain.PersistenceSupport
