import SharpArch.Foundation.Run
import SharpArch.RavenDb.ManagerContract

/-!
# The automatic transaction handler

`onActionExecutionAsync` is the action filter that wraps an action with an effective
`TransactionAttribute` into a transaction of the registered manager. The rest of the pipeline is a
function of the state that ends in an `ActionExecutedContext`; exceptions of the action are in that
context and not thrown by it. The model state is read after the action has run.

Whether a transaction is still open when the handler is done depends on what the action left to it
and on the one call the handler then makes. `EndsTransaction` states that as a condition on the
request, and `onActionExecutionAsync_closed_iff` shows that it is exact, for every manager that
meets the contract of the interfaces, every sequence of calls the action makes on it and every way
the pipeline ends.
-/

set_option autoImplicit false
set_option relaxedAutoImplicit false

namespace SharpArch.Web.AutoTransactionHandler

open Foundation.Run Platform.SystemTransactions Domain.PersistenceSupport

/-- A `TransactionAttribute`. -/
structure TransactionAttribute where
  isolationLevel : IsolationLevel := .readCommitted
  rollbackOnModelValidationError : Bool := true
  deriving DecidableEq, Repr

/-- What the rest of the pipeline reports: the exception of the action, whether a filter has
handled it, and whether the model state is valid. -/
structure ActionExecutedContext where
  exception : Option Exn := none
  exceptionHandled : Bool := false
  modelStateIsValid : Bool := true
  deriving DecidableEq, Repr

variable {State : Type}

/-- The handler rolls back and does not commit. -/
def rollsBack (settings : TransactionAttribute) (context : ActionExecutedContext) : Bool :=
  context.exception.isSome ||
    settings.rollbackOnModelValidationError && context.modelStateIsValid == false

/-- The call the handler makes on a transaction that is still active after the action. -/
def endTransaction (settings : TransactionAttribute) (manager : ITransactionManager State)
    (context : ActionExecutedContext) (state : State) : Except Exn Unit × State :=
  if rollsBack settings context then manager.rollbackTransactionAsync state
  else manager.commitTransactionAsync state

/-- `OnActionExecutionAsync`, with the effective attribute of the action and the manager registered
in the container. -/
def onActionExecutionAsync (transactionAttribute : Option TransactionAttribute)
    (service : Option (ITransactionManager State)) (next : State → ActionExecutedContext × State)
    (state : State) : Except Exn Unit × State :=
  match transactionAttribute with
  | none => (.ok (), (next state).2)
  | some settings =>
    match service with
    | none =>
      (.error (.invalidOperation
        "No service for type 'SharpArch.Domain.PersistenceSupport.ITransactionManager' has been registered."),
        state)
    | some manager =>
      match manager.beginTransaction settings.isolationLevel state with
      | (.error exception, begun) => (.error exception, begun)
      | (.ok _, begun) =>
        let (executedContext, executed) := next begun
        match manager.isActive with
        | none => (.ok (), executed)
        | some isActive =>
          if isActive executed then endTransaction settings manager executedContext executed
          else (.ok (), executed)

/-- A `BeginTransaction` that throws is the end of the request. -/
theorem onActionExecutionAsync_of_throws {settings : TransactionAttribute}
    {manager : ITransactionManager State} {next : State → ActionExecutedContext × State}
    {state begun : State} {exception : Exn}
    (hbegin : manager.beginTransaction settings.isolationLevel state = (.error exception, begun)) :
    onActionExecutionAsync (some settings) (some manager) next state = (.error exception, begun) := by
  simp only [onActionExecutionAsync, hbegin]

/-- Over a manager that reports its status, the handler ends what the action has left open. -/
theorem onActionExecutionAsync_of_isActive {settings : TransactionAttribute}
    {manager : ITransactionManager State} {next : State → ActionExecutedContext × State}
    {state begun : State} {isActive : State → Bool}
    (hbegin : manager.beginTransaction settings.isolationLevel state = (.ok (), begun))
    (hstatus : manager.isActive = some isActive) :
    onActionExecutionAsync (some settings) (some manager) next state =
      if isActive (next begun).2 then endTransaction settings manager (next begun).1 (next begun).2
      else (.ok (), (next begun).2) := by
  simp only [onActionExecutionAsync, hbegin, hstatus]

/-- An action that makes a sequence of calls on the manager, each of which may throw, and ends in
the given context. -/
def action (manager : ITransactionManager State) (calls : List ManagerCall)
    (context : ActionExecutedContext) (state : State) : ActionExecutedContext × State :=
  (context, run manager.step state calls)

/-! ### When the transaction is ended -/

/-- The manager's rollback or commit, whichever the outcome of the action asks for, leaves a
transaction open when it is called in a state. -/
def FailsOpen (isOpen : State → Prop) (settings : TransactionAttribute)
    (manager : ITransactionManager State) (context : ActionExecutedContext) (state : State) : Prop :=
  isOpen (manager.step state
    (if rollsBack settings context then .rollbackTransactionAsync else .commitTransactionAsync))

/-- The condition on a request for no transaction to stay open: the manager's `BeginTransaction`
throws, or the calls of the action have themselves ended every transaction, or the manager reports
its status and the method that the outcome asks for does not fail with a transaction open. -/
def EndsTransaction (isOpen : State → Prop) (settings : TransactionAttribute)
    (manager : ITransactionManager State) (calls : List ManagerCall)
    (context : ActionExecutedContext) (state : State) : Prop :=
  (∃ exception, (manager.beginTransaction settings.isolationLevel state).1 = .error exception) ∨
    let executed :=
      run manager.step (manager.beginTransaction settings.isolationLevel state).2 calls
    ¬ isOpen executed ∨
      manager.isActive.isSome ∧ ¬ FailsOpen isOpen settings manager context executed

section Ended

variable {isOpen : State → Prop} {manager : ITransactionManager State}

theorem failsOpen_iff (settings : TransactionAttribute) (context : ActionExecutedContext)
    (state : State) : FailsOpen isOpen settings manager context state ↔
      isOpen (endTransaction settings manager context state).2 := by
  unfold FailsOpen endTransaction
  split_ifs <;> rfl

/-- Once a transaction is begun, one is open when the handler is done exactly when the action left
one open and the call the handler makes on a manager with a status leaves one open too. -/
theorem onActionExecutionAsync_of_begun (hcontract : Contract manager isOpen)
    (settings : TransactionAttribute) {next : State → ActionExecutedContext × State}
    {state executed : State} {executedContext : ActionExecutedContext}
    (hbegun : (manager.beginTransaction settings.isolationLevel state).1 = .ok ())
    (hnext : next (manager.beginTransaction settings.isolationLevel state).2 =
      (executedContext, executed)) :
    isOpen (onActionExecutionAsync (some settings) (some manager) next state).2 ↔
      isOpen executed ∧ (manager.isActive.isSome →
        FailsOpen isOpen settings manager executedContext executed) := by
  rw [failsOpen_iff]
  rcases hbegin : manager.beginTransaction settings.isolationLevel state with ⟨result, begun⟩
  rw [hbegin] at hbegun hnext
  obtain rfl : result = .ok () := hbegun
  cases hstatus : manager.isActive with
  | none => simp [onActionExecutionAsync, hbegin, hnext, hstatus]
  | some isActive =>
    rw [onActionExecutionAsync_of_isActive hbegin hstatus, hnext]
    have hactive := hcontract.isActive_iff isActive hstatus executed
    by_cases hopen : isActive executed = true
    · simp [hopen, hactive.mp hopen]
    · have hclosed : ¬ isOpen executed := fun h ↦ hopen (hactive.mpr h)
      simp [hopen, hclosed]

/-- Every request to an action with an effective attribute, for every manager that meets the
contract and is idle when the request starts: no transaction is open when the handler is done
exactly when the request ends it. -/
theorem onActionExecutionAsync_closed_iff (hcontract : Contract manager isOpen)
    (settings : TransactionAttribute) (calls : List ManagerCall)
    (context : ActionExecutedContext) {state : State} (hidle : ¬ isOpen state) :
    ¬ isOpen (onActionExecutionAsync (some settings) (some manager)
        (action manager calls context) state).2 ↔
      EndsTransaction isOpen settings manager calls context state := by
  rcases hbegin : manager.beginTransaction settings.isolationLevel state with ⟨result, begun⟩
  have hbegun : begun = (manager.beginTransaction settings.isolationLevel state).2 := by
    rw [hbegin]
  cases result with
  | error exception =>
    have hthrows : (manager.beginTransaction settings.isolationLevel state).1 =
        .error exception := by rw [hbegin]
    have hclosed : ¬ isOpen begun := by
      rw [hbegun]
      exact fun h ↦ hidle (hcontract.begin_throws _ _ _ hthrows h)
    rw [onActionExecutionAsync_of_throws hbegin]
    exact ⟨fun _ ↦ Or.inl ⟨exception, hthrows⟩, fun _ ↦ hclosed⟩
  | ok _ =>
    have hreturns : (manager.beginTransaction settings.isolationLevel state).1 = .ok () := by
      rw [hbegin]
    have hnext : action manager calls context
        (manager.beginTransaction settings.isolationLevel state).2 = (context, run manager.step
          (manager.beginTransaction settings.isolationLevel state).2 calls) := rfl
    rw [onActionExecutionAsync_of_begun hcontract settings hreturns hnext]
    simp only [EndsTransaction, hreturns, reduceCtorEq, exists_false, false_or]
    rw [not_and_or, Classical.not_imp]

/-- The RavenDB manager over a session just opened, when no save throws, and an action that neither
throws nor touches the transaction. -/
theorem onActionExecutionAsync_closed_ravenDb :
    let manager := RavenDb.ScopedManager.transactionManager
      fun _ : RavenDb.TransactionManager ℕ ℕ ↦ false
    let state : RavenDb.ScopedManager ℕ ℕ := .start {}
    ¬ state.HasOpenScope ∧
      (¬ (onActionExecutionAsync (some {}) (some manager) (action manager [] {}) state
          ).2.HasOpenScope ↔
        EndsTransaction RavenDb.ScopedManager.HasOpenScope {} manager [] {} state) := by
  intro manager state
  have hidle : ¬ state.HasOpenScope := by
    rw [RavenDb.ScopedManager.hasOpenScope_iff]
    decide
  exact ⟨hidle, onActionExecutionAsync_closed_iff
    (RavenDb.ScopedManager.contract_transactionManager _) {} [] {} hidle⟩

/-- Two requests that leave their transaction open although the action neither throws nor touches
it: over a manager that does not report its status, and over one that does, when the save of the
commit throws. -/
theorem onActionExecutionAsync_left_open :
    let state : RavenDb.ScopedManager ℕ ℕ := .start {}
    let silent : ITransactionManager (RavenDb.ScopedManager ℕ ℕ) :=
      { RavenDb.ScopedManager.transactionManager fun _ ↦ false with isActive := none }
    let failing := RavenDb.ScopedManager.transactionManager
      fun _ : RavenDb.TransactionManager ℕ ℕ ↦ true
    ¬ state.HasOpenScope ∧
      (onActionExecutionAsync (some {}) (some silent) (action silent [] {}) state).2.HasOpenScope ∧
      (onActionExecutionAsync (some {}) (some failing) (action failing [] {}) state
        ).2.HasOpenScope := by
  intro state silent failing
  simp only [RavenDb.ScopedManager.hasOpenScope_iff]
  exact ⟨by decide, rfl, rfl⟩

end Ended

/-! ### Over the RavenDB manager -/

/-- Over the RavenDB manager the call the handler makes fails with a scope open exactly when it is a
commit of an open scope and its save throws. -/
theorem failsOpen_ravenDb_iff {Key Document : Type}
    (saveChangesThrows : RavenDb.TransactionManager Key Document → Bool)
    (settings : TransactionAttribute) (context : ActionExecutedContext)
    (executed : RavenDb.ScopedManager Key Document) :
    FailsOpen RavenDb.ScopedManager.HasOpenScope settings
        (RavenDb.ScopedManager.transactionManager saveChangesThrows) context executed ↔
      executed.HasOpenScope ∧ rollsBack settings context = false ∧
        saveChangesThrows executed.val = true := by
  rw [failsOpen_iff, endTransaction]
  cases rollsBack settings context with
  | true => simp [RavenDb.ScopedManager.not_hasOpenScope_rollback]
  | false => simp [RavenDb.ScopedManager.hasOpenScope_commit_iff]

/-- Over an idle RavenDB manager the condition is about the request and the save alone: the
isolation level has no name, the action has ended the transaction, the outcome asks for a rollback,
or the save of the commit does not throw. -/
theorem onActionExecutionAsync_ravenDb_closed_iff {Key Document : Type}
    (saveChangesThrows : RavenDb.TransactionManager Key Document → Bool)
    (settings : TransactionAttribute) (calls : List ManagerCall) (context : ActionExecutedContext)
    {state : RavenDb.ScopedManager Key Document} (hidle : ¬ state.HasOpenScope) :
    let manager := RavenDb.ScopedManager.transactionManager saveChangesThrows
    let executed :=
      run manager.step (manager.beginTransaction settings.isolationLevel state).2 calls
    ¬ (onActionExecutionAsync (some settings) (some manager) (action manager calls context) state
        ).2.HasOpenScope ↔
      (∃ exception, RavenDb.mapIsolationLevel settings.isolationLevel = .error exception) ∨
        ¬ executed.HasOpenScope ∨ rollsBack settings context = true ∨
        saveChangesThrows executed.val = false := by
  intro manager executed
  have hcontract := RavenDb.ScopedManager.contract_transactionManager saveChangesThrows
  have hthrows := RavenDb.ScopedManager.beginTransaction_throws_iff saveChangesThrows
    settings.isolationLevel hidle
  cases hbegin : (manager.beginTransaction settings.isolationLevel state).1 with
  | error exception =>
    have hsame := RavenDb.ScopedManager.beginTransaction_of_throws hbegin
    have hclosed : ¬ (onActionExecutionAsync (some settings) (some manager)
        (action manager calls context) state).2.HasOpenScope := by
      rcases hpair : manager.beginTransaction settings.isolationLevel state with ⟨result, begun⟩
      rw [hpair] at hbegin hsame
      obtain rfl : result = .error exception := hbegin
      obtain rfl : begun = state := hsame
      rw [onActionExecutionAsync_of_throws hpair]
      exact hidle
    exact ⟨fun _ ↦ Or.inl ⟨exception, (hthrows exception).mp hbegin⟩, fun _ ↦ hclosed⟩
  | ok _ =>
    have hnot : ¬ ∃ exception, RavenDb.mapIsolationLevel settings.isolationLevel =
        .error exception := by
      rintro ⟨exception, hexception⟩
      have herror := (hthrows exception).mpr hexception
      exact absurd (hbegin.symm.trans herror) (by simp)
    have hnext : action manager calls context
        (manager.beginTransaction settings.isolationLevel state).2 = (context, executed) := rfl
    have hstatus : (manager.isActive.isSome = true →
        FailsOpen RavenDb.ScopedManager.HasOpenScope settings manager context executed) ↔
        FailsOpen RavenDb.ScopedManager.HasOpenScope settings manager context executed :=
      ⟨fun himplies ↦ himplies rfl, fun h _ ↦ h⟩
    rw [onActionExecutionAsync_of_begun hcontract settings hbegin hnext, hstatus,
      failsOpen_ravenDb_iff, or_iff_right hnot]
    cases rollsBack settings context <;> cases saveChangesThrows executed.val <;> simp

end SharpArch.Web.AutoTransactionHandler
