import SharpArch.Web.AutoTransactionHandler

/-!
# The transaction handler around other action filters

Between `AutoTransactionHandler` and the action there may be other action filters. Each may go on or
short-circuit, and when it has gone on it may leave an exception to the filters outside it or mark it
as handled; it may also throw itself. How ASP.NET Core composes them is a parameter
(`FilterPipeline`): an exception that is marked as handled stays in the `ActionExecutedContext`.

`TransactionAttribute` says that the transaction is committed when there was no unhandled exception
and no model error that asks for a rollback, and rolled back otherwise. The handler rolls back
whenever there is an exception in the context. It does as documented exactly when no handled exception
is handed to it, or the model state asks for a rollback anyway (`decidesAsDocumented_iff`).
-/

set_option autoImplicit false
set_option relaxedAutoImplicit false

namespace SharpArch.Web

open Platform.SystemTransactions Domain.PersistenceSupport AutoTransactionHandler

variable {State : Type}

/-! ### Filters around an action -/

/-- What the filters and the action of a request work on: the model state, and all the rest. -/
structure ActionContext (State : Type) where
  modelStateIsValid : Bool
  state : State

namespace ActionFilter

/-- What a filter does in place of the rest of the pipeline. -/
inductive Before
  | next
  | shortCircuit
  deriving DecidableEq, Repr

/-- What a filter does with the outcome of the rest of the pipeline. -/
inductive After
  | passOn
  | handle
  deriving DecidableEq, Repr

end ActionFilter

/-- An action filter: the part before the rest of the pipeline, and the part after it. Either may
throw. -/
structure ActionFilter (State : Type) where
  onActionExecuting : ActionContext State → Except Exn ActionFilter.Before × ActionContext State
  onActionExecuted : ActionExecutedContext → ActionContext State →
    Except Exn ActionFilter.After × ActionContext State

/-- An action: the exception it ends with, and what it leaves. -/
abbrev Action (State : Type) := ActionContext State → Option Exn × ActionContext State

/-- What a part of the pipeline hands to the filter outside it. -/
abbrev Executed (State : Type) := ActionExecutedContext × ActionContext State

/-- The `ActionExecutedContext` made when a part of the pipeline has ended. The model state is that
of the request. -/
def ActionContext.executed (left : ActionContext State) (exception : Option Exn)
    (exceptionHandled : Bool) : Executed State :=
  ({ exception, exceptionHandled, modelStateIsValid := left.modelStateIsValid }, left)

/-- The second part of a filter on the outcome of the rest of the pipeline. An exception of its own
takes the place of the one in the context, and one that it marks as handled stays in the context. -/
def ActionFilter.close (filter : ActionFilter State) (inner : Executed State) : Executed State :=
  match filter.onActionExecuted inner.1 inner.2 with
  | (.error exception, left) => left.executed (some exception) false
  | (.ok after, left) =>
    left.executed inner.1.exception (inner.1.exceptionHandled || after == .handle)

/-- The context holds an exception that is marked as handled. -/
def HasHandledException (executed : ActionExecutedContext) : Prop :=
  executed.exception.isSome ∧ executed.exceptionHandled = true

/-- A filter hands out a handled exception when it gets one or marks the one it gets. -/
theorem ActionFilter.hasHandledException_close (filter : ActionFilter State)
    (inner : Executed State) : HasHandledException (filter.close inner).1 ↔
      ∃ after left, filter.onActionExecuted inner.1 inner.2 = (.ok after, left) ∧
        (HasHandledException inner.1 ∨ inner.1.exception.isSome ∧ after = .handle) := by
  rcases hafter : filter.onActionExecuted inner.1 inner.2 with ⟨exception | after, left⟩
  · simp [HasHandledException, close, hafter, ActionContext.executed]
  · simp only [HasHandledException, close, hafter, ActionContext.executed, Bool.or_eq_true, beq_iff_eq,
      ← and_or_left]
    constructor
    · intro houtcome
      exact ⟨after, left, rfl, houtcome⟩
    · rintro ⟨other, _, hsame, houtcome⟩
      obtain rfl : after = other := Except.ok.inj (congrArg Prod.fst hsame)
      exact houtcome

/-- A composition of filters, outermost first, around an action as ASP.NET Core documents it. -/
structure FilterPipeline (State : Type) where
  invoke : List (ActionFilter State) → Action State → ActionContext State → Executed State
  invoke_action : ∀ action context,
    invoke [] action context = (action context).2.executed (action context).1 false
  invoke_throws : ∀ filter rest action context exception left,
    filter.onActionExecuting context = (.error exception, left) →
      invoke (filter :: rest) action context = left.executed (some exception) false
  invoke_shortCircuit : ∀ filter rest action context left,
    filter.onActionExecuting context = (.ok .shortCircuit, left) →
      invoke (filter :: rest) action context = left.executed none false
  invoke_next : ∀ filter rest action context begun,
    filter.onActionExecuting context = (.ok .next, begun) →
      invoke (filter :: rest) action context = filter.close (invoke rest action begun)

namespace FilterPipeline

/-- The pipeline that invokes the filters one inside the other. -/
def invokeNext : List (ActionFilter State) → Action State → ActionContext State → Executed State
  | [], action, context => (action context).2.executed (action context).1 false
  | filter :: rest, action, context =>
    match filter.onActionExecuting context with
    | (.error exception, left) => left.executed (some exception) false
    | (.ok .shortCircuit, left) => left.executed none false
    | (.ok .next, begun) => filter.close (invokeNext rest action begun)

/-- It composes them as documented. -/
def nested : FilterPipeline State where
  invoke := invokeNext
  invoke_action _ _ := rfl
  invoke_throws _ _ _ _ _ _ h := by simp only [invokeNext, h]
  invoke_shortCircuit _ _ _ _ _ h := by simp only [invokeNext, h]
  invoke_next _ _ _ _ _ h := by simp only [invokeNext, h]

/-- The rest of the pipeline as the handler calls it. -/
def next (pipeline : FilterPipeline State) (filters : List (ActionFilter State))
    (action : Action State) (modelStateIsValid : Bool) (state : State) :
    ActionExecutedContext × State :=
  ((pipeline.invoke filters action ⟨modelStateIsValid, state⟩).1,
    (pipeline.invoke filters action ⟨modelStateIsValid, state⟩).2.state)

/-- An exception of the action or of a filter has been marked as handled by a filter outside it, and
no filter still further out has thrown. -/
def HandledInside (pipeline : FilterPipeline State) (action : Action State) :
    List (ActionFilter State) → ActionContext State → Prop
  | [], _ => False
  | filter :: rest, context =>
    ∃ begun after left, filter.onActionExecuting context = (.ok .next, begun) ∧
      filter.onActionExecuted (pipeline.invoke rest action begun).1
        (pipeline.invoke rest action begun).2 = (.ok after, left) ∧
      (pipeline.HandledInside action rest begun ∨
        (pipeline.invoke rest action begun).1.exception.isSome ∧ after = .handle)

variable (pipeline : FilterPipeline State) (action : Action State)

/-- The context that a chain of filters hands out holds a handled exception exactly when one of the
filters has handled it. -/
theorem handledInside_iff (filters : List (ActionFilter State)) (context : ActionContext State) :
    pipeline.HandledInside action filters context ↔
      HasHandledException (pipeline.invoke filters action context).1 := by
  induction filters generalizing context with
  | nil => simp [HandledInside, HasHandledException, pipeline.invoke_action, ActionContext.executed]
  | cons filter rest ih =>
    rcases hbefore : filter.onActionExecuting context with ⟨exception | before, begun⟩
    · simp [HandledInside, HasHandledException, hbefore, pipeline.invoke_throws _ _ _ _ _ _ hbefore,
        ActionContext.executed]
    cases before with
    | shortCircuit =>
      simp [HandledInside, HasHandledException, hbefore,
        pipeline.invoke_shortCircuit _ _ _ _ _ hbefore, ActionContext.executed]
    | next =>
      rw [pipeline.invoke_next _ _ _ _ _ hbefore, ActionFilter.hasHandledException_close]
      simp only [HandledInside, hbefore, ih, Prod.mk.injEq, true_and]
      constructor
      · rintro ⟨_, after, left, rfl, hafter, houtcome⟩
        exact ⟨after, left, hafter, houtcome⟩
      · rintro ⟨after, left, hafter, houtcome⟩
        exact ⟨begun, after, left, rfl, hafter, houtcome⟩

end FilterPipeline

/-! ### What the handler calls -/

/-- A state with the calls made on the manager so far. -/
abbrev Recorded (State : Type) := State × List ManagerCall

/-- A manager that also writes down every call made on it. -/
def recorded (manager : ITransactionManager State) : ITransactionManager (Recorded State) where
  beginTransaction := fun isolationLevel state ↦
    ((manager.beginTransaction isolationLevel state.1).1,
      (manager.beginTransaction isolationLevel state.1).2,
      state.2 ++ [.beginTransaction isolationLevel])
  commitTransactionAsync := fun state ↦
    ((manager.commitTransactionAsync state.1).1,
      (manager.commitTransactionAsync state.1).2, state.2 ++ [.commitTransactionAsync])
  rollbackTransactionAsync := fun state ↦
    ((manager.rollbackTransactionAsync state.1).1,
      (manager.rollbackTransactionAsync state.1).2, state.2 ++ [.rollbackTransactionAsync])
  isActive := manager.isActive.map fun isActive state ↦ isActive state.1

/-- The handler makes one call to end a transaction. -/
theorem calls_endTransaction (settings : TransactionAttribute)
    (manager : ITransactionManager State) (executed : ActionExecutedContext)
    (state : Recorded State) :
    (endTransaction settings (recorded manager) executed state).2.2 =
      state.2 ++ [if rollsBack settings executed then .rollbackTransactionAsync
        else .commitTransactionAsync] := by
  unfold endTransaction
  split_ifs <;> rfl

/-- There was no unhandled exception, and no model error that asks for a rollback. -/
def IsSuccessful (settings : TransactionAttribute) (executed : ActionExecutedContext) : Prop :=
  (executed.exception = none ∨ executed.exceptionHandled = true) ∧
    ¬ (settings.rollbackOnModelValidationError = true ∧ executed.modelStateIsValid = false)

/-- What `TransactionAttribute` documents: after the calls made until then, the next and last one is a
commit if the action was successful, and otherwise a rollback. -/
structure DecidesAsDocumented (settings : TransactionAttribute) (executed : ActionExecutedContext)
    (before after : List ManagerCall) : Prop where
  commits_iff : after = before ++ [.commitTransactionAsync] ↔ IsSuccessful settings executed
  rollsBack_iff : after = before ++ [.rollbackTransactionAsync] ↔ ¬ IsSuccessful settings executed

/-- The call that `rollsBack` chooses is the documented one unless a handled exception alone makes it
a rollback. -/
theorem decidesAsDocumented_rollsBack_iff (settings : TransactionAttribute)
    (executed : ActionExecutedContext) (before : List ManagerCall) :
    DecidesAsDocumented settings executed before
        (before ++ [if rollsBack settings executed then .rollbackTransactionAsync
          else .commitTransactionAsync]) ↔
      ¬ HasHandledException executed ∨
        settings.rollbackOnModelValidationError = true ∧ executed.modelStateIsValid = false := by
  have hdocumented : DecidesAsDocumented settings executed before
        (before ++ [if rollsBack settings executed then .rollbackTransactionAsync
          else .commitTransactionAsync]) ↔
      (rollsBack settings executed = true ↔ ¬ IsSuccessful settings executed) := by
    constructor
    · intro hdecides
      rw [← hdecides.rollsBack_iff]
      cases rollsBack settings executed <;> simp
    · intro hiff
      cases hrolls : rollsBack settings executed with
      | true => exact ⟨by simpa using hiff.mp hrolls, by simpa using hiff.mp hrolls⟩
      | false =>
        have hsuccess : IsSuccessful settings executed := by
          by_contra hnot
          exact absurd (hrolls.symm.trans (hiff.mpr hnot)) (by simp)
        exact ⟨by simpa using hsuccess, by simpa using hsuccess⟩
  rw [hdocumented]
  rcases executed with ⟨_ | exception, _ | _, _ | _⟩ <;>
    cases hrollback : settings.rollbackOnModelValidationError <;>
    simp [rollsBack, IsSuccessful, HasHandledException, hrollback]

/-! ### A request through the filters -/

/-- A request to an action with an effective attribute: the filters between the handler and the
action, the action, the model state when the handler is reached, and the manager of the request. -/
structure FilteredRequest (State : Type) where
  settings : TransactionAttribute
  filters : List (ActionFilter (Recorded State))
  action : Action (Recorded State)
  modelStateIsValid : Bool
  manager : ITransactionManager State

namespace FilteredRequest

variable (request : FilteredRequest State) (pipeline : FilterPipeline (Recorded State))

/-- The state in which the handler calls the rest of the pipeline. -/
def begun (state : State) : Recorded State :=
  ((recorded request.manager).beginTransaction request.settings.isolationLevel (state, [])).2

/-- What the rest of the pipeline hands to the handler. -/
def executed (state : State) : ActionExecutedContext × Recorded State :=
  pipeline.next request.filters request.action request.modelStateIsValid (request.begun state)

/-- The state when the handler is done. -/
def handled (state : State) : Recorded State :=
  (onActionExecutionAsync (some request.settings) (some (recorded request.manager))
    (pipeline.next request.filters request.action request.modelStateIsValid) (state, [])).2

/-- The condition on the filters and the action: no exception is handled inside, or the model state
asks for a rollback anyway. -/
def NothingHandled (state : State) : Prop :=
  ¬ pipeline.HandledInside request.action request.filters
      ⟨request.modelStateIsValid, request.begun state⟩ ∨
    request.settings.rollbackOnModelValidationError = true ∧
      (request.executed pipeline state).1.modelStateIsValid = false

/-- Every request to an action with an effective attribute, every chain of filters around the action
and every manager whose transaction has begun and is active when the handler gets control back: the
handler commits and rolls back as documented exactly when no exception has been handled inside or the
model state asks for a rollback anyway. -/
theorem decidesAsDocumented_iff {state : State} {isActive : State → Bool}
    (hbegin : (request.manager.beginTransaction request.settings.isolationLevel state).1 = .ok ())
    (hstatus : request.manager.isActive = some isActive)
    (hactive : isActive (request.executed pipeline state).2.1 = true) :
    DecidesAsDocumented request.settings (request.executed pipeline state).1
        (request.executed pipeline state).2.2 (request.handled pipeline state).2 ↔
      request.NothingHandled pipeline state := by
  have hbegun : (recorded request.manager).beginTransaction request.settings.isolationLevel
      (state, []) = (.ok (), request.begun state) := Prod.ext hbegin rfl
  have hrecorded : (recorded request.manager).isActive =
      some fun state : Recorded State ↦ isActive state.1 := by
    rw [recorded, hstatus]
    rfl
  have hcalls : (request.handled pipeline state).2 = (request.executed pipeline state).2.2 ++
      [if rollsBack request.settings (request.executed pipeline state).1
        then .rollbackTransactionAsync else .commitTransactionAsync] := by
    unfold executed at hactive ⊢
    rw [handled, onActionExecutionAsync_of_isActive hbegun hrecorded, if_pos hactive]
    exact calls_endTransaction _ _ _ _
  rw [hcalls, decidesAsDocumented_rollsBack_iff, NothingHandled, pipeline.handledInside_iff]
  rfl

/-- A request through one filter that handles every exception, over the RavenDB manager when no save
throws. -/
def throughHandler (action : Action (Recorded (RavenDb.ScopedManager ℕ ℕ))) :
    FilteredRequest (RavenDb.ScopedManager ℕ ℕ) where
  settings := {}
  filters := [{
    onActionExecuting := fun context ↦ (.ok .next, context)
    onActionExecuted := fun executed left ↦
      (.ok (if executed.exception.isSome then .handle else .passOn), left) }]
  action := action
  modelStateIsValid := true
  manager := RavenDb.ScopedManager.transactionManager fun _ ↦ false

/-- An action that returns. -/
theorem decidesAsDocumented_iff_returns :
    let request := throughHandler fun context ↦ (none, context)
    let state : RavenDb.ScopedManager ℕ ℕ := .start {}
    DecidesAsDocumented request.settings (request.executed .nested state).1
        (request.executed .nested state).2.2 (request.handled .nested state).2 ↔
      request.NothingHandled .nested state :=
  decidesAsDocumented_iff (throughHandler fun context ↦ (none, context)) .nested rfl rfl rfl

/-- An action that throws, with an inner filter that handles the exception: nothing is left unhandled
and the model state is valid, but the handler rolls back. -/
theorem handled_exception_rolledBack :
    let request := throughHandler fun context ↦ (some .thrownByAction, context)
    let state : RavenDb.ScopedManager ℕ ℕ := .start {}
    (request.executed .nested state).2.1.val.isActive = true ∧
      IsSuccessful request.settings (request.executed .nested state).1 ∧
      (request.handled .nested state).2 =
        [.beginTransaction .readCommitted, .rollbackTransactionAsync] ∧
      ¬ DecidesAsDocumented request.settings (request.executed .nested state).1
        (request.executed .nested state).2.2 (request.handled .nested state).2 := by
  intro request state
  have hsuccess : IsSuccessful request.settings (request.executed .nested state).1 :=
    ⟨.inr rfl, by decide⟩
  refine ⟨rfl, hsuccess, rfl, fun hdecides ↦ ?_⟩
  exact hdecides.rollsBack_iff.mp rfl hsuccess

end FilteredRequest

end SharpArch.Web
