import SharpArch.Foundation.Run
import SharpArch.Platform.SystemTransactions

/-!
# The RavenDB transaction manager

`DocumentSession` is the part of an `IAsyncDocumentSession` the unit of work rests on: the changes
registered on the session and not yet saved, and the changes the database has taken. Every change
is numbered when it is registered, so that a change is the same one wherever it turns up.
`saveChangesAsync` writes all pending changes at once and empties the pending set.

`TransactionManager` has the one field `_transaction`, a handle of the scope it made or nothing.
Scopes stay in `scopes` in the order they were made, so that a handle a caller was given can be
disposed by that caller at any later time. The calls are those of the class and, between them,
changes registered on the session and disposals of handles by their holders. `SaveChangesAsync`
and `Dispose` throw where the call says so.

The last section says what each method does to the session: only a commit that finds a transaction
begun, and whose save does not throw, writes to the database (`written_step`).
-/

set_option autoImplicit false
set_option relaxedAutoImplicit false

namespace SharpArch.RavenDb

open Foundation.Run Platform.SystemTransactions

/-! ### The document session -/

/-- What a registered change asks the server to do: put a stored document, delete a tracked
document, or run the `DeleteCommandData` of a deferred command. -/
inductive Command (Key Document : Type)
  | put (document : Document)
  | delete (document : Document)
  | deferredDelete (key : Key)
  deriving DecidableEq, Repr

/-- A change registered on a session, with its number among the changes made on it. -/
structure Change (Key Document : Type) where
  number : ℕ
  command : Command Key Document
  deriving DecidableEq, Repr

/-- The number of changes made on a session so far, those it has still to save, and those the
database has taken, oldest first. -/
structure DocumentSession (Key Document : Type) where
  made : ℕ := 0
  pending : List (Change Key Document) := []
  written : List (Change Key Document) := []
  deriving DecidableEq, Repr

variable {Key Document : Type}

/-- `StoreAsync`, `Delete` and `Advanced.Defer` register a change. -/
def DocumentSession.register (command : Command Key Document)
    (session : DocumentSession Key Document) : DocumentSession Key Document :=
  { session with
    made := session.made + 1
    pending := session.pending ++ [⟨session.made, command⟩] }

/-- `SaveChangesAsync`, when it does not throw. -/
def DocumentSession.saveChangesAsync (session : DocumentSession Key Document) :
    DocumentSession Key Document :=
  { session with pending := [], written := session.written ++ session.pending }

namespace DocumentSession

/-- Every change has a number below that of the next one, and none is both pending and written. -/
structure WellNumbered (session : DocumentSession Key Document) : Prop where
  pending_lt : ∀ change ∈ session.pending, change.number < session.made
  written_lt : ∀ change ∈ session.written, change.number < session.made
  pending_ne_written : ∀ change ∈ session.pending, ∀ other ∈ session.written,
    change.number ≠ other.number

theorem wellNumbered_empty : WellNumbered ({} : DocumentSession Key Document) where
  pending_lt := fun _ h ↦ absurd h List.not_mem_nil
  written_lt := fun _ h ↦ absurd h List.not_mem_nil
  pending_ne_written := fun _ h ↦ absurd h List.not_mem_nil

variable {session : DocumentSession Key Document}

theorem WellNumbered.register (hnumbered : WellNumbered session) (command : Command Key Document) :
    WellNumbered (session.register command) where
  pending_lt := by
    intro change hchange
    rcases List.mem_append.mp hchange with hold | hlast
    · exact Nat.lt_succ_of_lt (hnumbered.pending_lt change hold)
    · obtain rfl := List.mem_singleton.mp hlast
      exact Nat.lt_succ_self _
  written_lt := fun change hchange ↦ Nat.lt_succ_of_lt (hnumbered.written_lt change hchange)
  pending_ne_written := by
    intro change hchange other hother
    rcases List.mem_append.mp hchange with hold | hlast
    · exact hnumbered.pending_ne_written change hold other hother
    · obtain rfl := List.mem_singleton.mp hlast
      exact Nat.ne_of_gt (hnumbered.written_lt other hother)

theorem WellNumbered.saveChangesAsync (hnumbered : WellNumbered session) :
    WellNumbered session.saveChangesAsync where
  pending_lt := fun _ h ↦ absurd h List.not_mem_nil
  written_lt := by
    intro change hchange
    rcases List.mem_append.mp hchange with hwritten | hpending
    · exact hnumbered.written_lt change hwritten
    · exact hnumbered.pending_lt change hpending
  pending_ne_written := fun _ h ↦ absurd h List.not_mem_nil

end DocumentSession

/-! ### The manager -/

/-- A manager over a session, and the scopes made so far. -/
structure TransactionManager (Key Document : Type) where
  session : DocumentSession Key Document
  scopes : List TransactionScope := []
  transaction : Option ℕ := none
  deriving DecidableEq, Repr

/-- How the calls made by a commit end. -/
structure CommitOutcome where
  saveChangesThrows : Bool := false
  dispose : DisposeOutcome := .returns
  deriving DecidableEq, Repr

/-- `MapIsolationLevel`. -/
def mapIsolationLevel : IsolationLevel → Except Exn ScopeIsolation
  | .unspecified => .ok .unspecified
  | .chaos => .ok .chaos
  | .readUncommitted => .ok .readUncommitted
  | .readCommitted => .ok .readCommitted
  | .repeatableRead => .ok .repeatableRead
  | .serializable => .ok .serializable
  | .snapshot => .ok .snapshot
  | .undefined _ => .error (.argumentOutOfRange "isolationLevel")

namespace TransactionManager

/-- `IsActive`. -/
def isActive (manager : TransactionManager Key Document) : Bool :=
  manager.transaction.isSome

/-- `BeginTransaction`: the current scope, or a new one. The level is mapped only for a new one. -/
def beginTransaction (isolationLevel : IsolationLevel) (manager : TransactionManager Key Document) :
    Except Exn ℕ × TransactionManager Key Document :=
  match manager.transaction with
  | some scope => (.ok scope, manager)
  | none =>
    match mapIsolationLevel isolationLevel with
    | .error exception => (.error exception, manager)
    | .ok level =>
      (.ok manager.scopes.length,
        { manager with
          scopes := manager.scopes ++ [⟨level, false, false⟩]
          transaction := some manager.scopes.length })

/-- A call of `Complete` or `Dispose` on the scope of a handle. -/
def callScope (call : TransactionScope → Except Exn Unit × TransactionScope) (handle : ℕ)
    (manager : TransactionManager Key Document) :
    Except Exn Unit × TransactionManager Key Document :=
  match manager.scopes[handle]? with
  | none => (.ok (), manager)
  | some scope =>
    ((call scope).1, { manager with scopes := manager.scopes.set handle (call scope).2 })

/-- `ClearTransaction`: the field is emptied after `Dispose` has returned. -/
def clearTransaction (dispose : DisposeOutcome) (manager : TransactionManager Key Document) :
    Except Exn Unit × TransactionManager Key Document :=
  match manager.transaction with
  | none => (.ok (), manager)
  | some handle =>
    match callScope (·.dispose dispose) handle manager with
    | (.error exception, disposed) => (.error exception, disposed)
    | (.ok _, disposed) => (.ok (), { disposed with transaction := none })

/-- `CommitTransactionAsync`. -/
def commitTransactionAsync (outcome : CommitOutcome) (manager : TransactionManager Key Document) :
    Except Exn Unit × TransactionManager Key Document :=
  match manager.transaction with
  | none =>
    (.error (.invalidOperation
      "Transaction was not started, make sure there is matching BeginTransaction() call."), manager)
  | some handle =>
    if outcome.saveChangesThrows then (.error .saveChangesFailed, manager)
    else
      match callScope TransactionScope.complete handle
          { manager with session := manager.session.saveChangesAsync } with
      | (.error exception, saved) => (.error exception, saved)
      | (.ok _, saved) => clearTransaction outcome.dispose saved

/-- `RollbackTransactionAsync`. -/
def rollbackTransactionAsync (dispose : DisposeOutcome)
    (manager : TransactionManager Key Document) :
    Except Exn Unit × TransactionManager Key Document :=
  clearTransaction dispose manager

/-- A call on the manager, a change registered on its session, or the disposal of a handle by the
caller it was returned to. -/
inductive Call (Key Document : Type)
  | beginTransaction (isolationLevel : IsolationLevel)
  | commitTransactionAsync (outcome : CommitOutcome)
  | rollbackTransactionAsync (dispose : DisposeOutcome)
  | disposeHandle (handle : ℕ) (dispose : DisposeOutcome)
  | register (command : Command Key Document)
  deriving DecidableEq, Repr

/-- The answer to a call, the handle of a scope for `BeginTransaction`, and the state after it. -/
def answer (manager : TransactionManager Key Document) :
    Call Key Document → Except Exn (Option ℕ) × TransactionManager Key Document
  | .beginTransaction isolationLevel =>
    ((beginTransaction isolationLevel manager).1.map some, (beginTransaction isolationLevel manager).2)
  | .commitTransactionAsync outcome =>
    ((commitTransactionAsync outcome manager).1.map fun _ ↦ none,
      (commitTransactionAsync outcome manager).2)
  | .rollbackTransactionAsync dispose =>
    ((rollbackTransactionAsync dispose manager).1.map fun _ ↦ none,
      (rollbackTransactionAsync dispose manager).2)
  | .disposeHandle handle dispose =>
    ((callScope (·.dispose dispose) handle manager).1.map fun _ ↦ none,
      (callScope (·.dispose dispose) handle manager).2)
  | .register command => (.ok none, { manager with session := manager.session.register command })

/-- The state after a call, whether it returned or threw. -/
def step (manager : TransactionManager Key Document) (call : Call Key Document) :
    TransactionManager Key Document :=
  (answer manager call).2

/-- The call is a commit or a rollback. -/
def Call.Ends : Call Key Document → Prop
  | .commitTransactionAsync _ => True
  | .rollbackTransactionAsync _ => True
  | _ => False

/-- The call begins a transaction at an isolation level that has a name. -/
def Call.Begins (call : Call Key Document) : Prop :=
  ∃ isolationLevel level, call = .beginTransaction isolationLevel ∧
    mapIsolationLevel isolationLevel = .ok level

/-! ### What the methods do -/

section Methods

variable {manager : TransactionManager Key Document}

theorem callScope_of_getElem? {call : TransactionScope → Except Exn Unit × TransactionScope}
    {handle : ℕ} {scope : TransactionScope} (hscope : manager.scopes[handle]? = some scope) :
    callScope call handle manager =
      ((call scope).1,
        { manager with scopes := manager.scopes.set handle (call scope).2 }) := by
  simp only [callScope, hscope]

/-- Calling a scope so that it stays as it is changes nothing. -/
theorem callScope_self {call : TransactionScope → Except Exn Unit × TransactionScope}
    {handle : ℕ} {scope : TransactionScope} (hscope : manager.scopes[handle]? = some scope)
    (hself : (call scope).2 = scope) : (callScope call handle manager).2 = manager := by
  obtain ⟨hlt, hget⟩ := List.getElem?_eq_some_iff.mp hscope
  rw [callScope_of_getElem? hscope, hself, ← hget, List.set_getElem_self]

theorem clearTransaction_of_some {dispose : DisposeOutcome} {handle : ℕ}
    (hcurrent : manager.transaction = some handle) :
    clearTransaction dispose manager =
      match callScope (·.dispose dispose) handle manager with
      | (.error exception, disposed) => (.error exception, disposed)
      | (.ok _, disposed) => (.ok (), { disposed with transaction := none }) := by
  unfold clearTransaction
  split
  · next hnone => exact absurd (hcurrent.symm.trans hnone) (Option.some_ne_none _)
  · next other hother =>
    obtain rfl : handle = other := Option.some.inj (hcurrent.symm.trans hother)
    rfl

theorem commitTransactionAsync_of_some {outcome : CommitOutcome} {handle : ℕ}
    (hcurrent : manager.transaction = some handle) (hsave : outcome.saveChangesThrows = false) :
    commitTransactionAsync outcome manager =
      match callScope TransactionScope.complete handle
          { manager with session := manager.session.saveChangesAsync } with
      | (.error exception, saved) => (.error exception, saved)
      | (.ok _, saved) => clearTransaction outcome.dispose saved := by
  unfold commitTransactionAsync
  split
  · next hnone => exact absurd (hcurrent.symm.trans hnone) (Option.some_ne_none _)
  · next other hother =>
    obtain rfl : handle = other := Option.some.inj (hcurrent.symm.trans hother)
    rw [hsave, if_neg Bool.false_ne_true]

@[simp] theorem callScope_session (manager : TransactionManager Key Document)
    (call : TransactionScope → Except Exn Unit × TransactionScope) (handle : ℕ) :
    (callScope call handle manager).2.session = manager.session := by
  unfold callScope
  cases manager.scopes[handle]? <;> rfl

@[simp] theorem clearTransaction_session (dispose : DisposeOutcome) :
    (clearTransaction dispose manager).2.session = manager.session := by
  cases hcurrent : manager.transaction with
  | none => simp only [clearTransaction, hcurrent]
  | some handle =>
    have hsession := callScope_session manager (·.dispose dispose) handle
    rw [clearTransaction_of_some hcurrent]
    rcases hcall : callScope (·.dispose dispose) handle manager with ⟨_ | _, disposed⟩ <;>
      rw [hcall] at hsession <;> exact hsession

@[simp] theorem beginTransaction_session (isolationLevel : IsolationLevel) :
    (beginTransaction isolationLevel manager).2.session = manager.session := by
  unfold beginTransaction
  split
  · rfl
  · split <;> rfl

/-- A commit writes and completes only when a transaction was begun and `SaveChangesAsync` does not
throw; otherwise it leaves the manager as it is. -/
theorem commitTransactionAsync_eq_self {outcome : CommitOutcome}
    (h : manager.transaction = none ∨ outcome.saveChangesThrows = true) :
    (commitTransactionAsync outcome manager).2 = manager := by
  unfold commitTransactionAsync
  cases hcurrent : manager.transaction with
  | none => rfl
  | some handle =>
    rcases h with hnone | hthrows
    · exact absurd (hcurrent.symm.trans hnone) (Option.some_ne_none _)
    · simp only [hthrows, if_true]

/-- A commit that finds a transaction begun, and whose save does not throw, saves the session. -/
theorem commitTransactionAsync_session (outcome : CommitOutcome)
    (hactive : manager.isActive = true) (hsave : outcome.saveChangesThrows = false) :
    (commitTransactionAsync outcome manager).2.session = manager.session.saveChangesAsync := by
  obtain ⟨handle, hcurrent⟩ := Option.isSome_iff_exists.mp hactive
  have hsession := callScope_session
    { manager with session := manager.session.saveChangesAsync } TransactionScope.complete handle
  rw [commitTransactionAsync_of_some hcurrent hsave]
  rcases hcall : callScope TransactionScope.complete handle
      { manager with session := manager.session.saveChangesAsync } with ⟨_ | _, saved⟩ <;>
    rw [hcall] at hsession
  · exact hsession
  · exact (clearTransaction_session _).trans hsession

/-- The database is written only by a commit that finds a transaction begun. -/
theorem written_step {call : Call Key Document}
    (h : (step manager call).session.written ≠ manager.session.written) :
    ∃ outcome, call = .commitTransactionAsync outcome ∧ manager.transaction ≠ none := by
  cases call with
  | beginTransaction isolationLevel =>
    refine absurd ?_ h
    simp only [step, answer, beginTransaction_session]
  | commitTransactionAsync outcome =>
    refine ⟨outcome, rfl, fun hnone ↦ h ?_⟩
    simp only [step, answer, commitTransactionAsync_eq_self (Or.inl hnone)]
  | rollbackTransactionAsync dispose =>
    refine absurd ?_ h
    simp only [step, answer, rollbackTransactionAsync, clearTransaction_session]
  | disposeHandle handle dispose =>
    refine absurd ?_ h
    simp only [step, answer, callScope_session]
  | register command => exact absurd rfl h

/-- A call leaves the session as it is, registers one change on it, or saves it. -/
theorem session_step (manager : TransactionManager Key Document) (call : Call Key Document) :
    (step manager call).session = manager.session ∨
      (∃ command, (step manager call).session = manager.session.register command) ∨
      (step manager call).session = manager.session.saveChangesAsync := by
  cases call with
  | beginTransaction isolationLevel => exact Or.inl (beginTransaction_session isolationLevel)
  | commitTransactionAsync outcome =>
    by_cases hself : manager.transaction = none ∨ outcome.saveChangesThrows = true
    · exact Or.inl (congrArg TransactionManager.session (commitTransactionAsync_eq_self hself))
    · obtain ⟨hbegun, hsave⟩ := not_or.mp hself
      have hactive : manager.isActive = true := Option.isSome_iff_ne_none.mpr hbegun
      exact Or.inr (Or.inr
        (commitTransactionAsync_session outcome hactive (Bool.not_eq_true _ ▸ hsave)))
  | rollbackTransactionAsync dispose => exact Or.inl (clearTransaction_session dispose)
  | disposeHandle handle dispose => exact Or.inl (callScope_session manager _ handle)
  | register command => exact Or.inr (Or.inl ⟨command, rfl⟩)

theorem wellNumbered_step (hnumbered : manager.session.WellNumbered) (call : Call Key Document) :
    (step manager call).session.WellNumbered := by
  rcases session_step manager call with hsame | ⟨command, hregister⟩ | hsaved
  · rw [hsame]
    exact hnumbered
  · rw [hregister]
    exact hnumbered.register command
  · rw [hsaved]
    exact hnumbered.saveChangesAsync

/-- `BeginTransaction` returns the handle the field then holds. -/
theorem transaction_of_answer {call : Call Key Document} {handle : ℕ}
    (h : (answer manager call).1 = .ok (some handle)) :
    (step manager call).transaction = some handle := by
  cases call with
  | beginTransaction isolationLevel =>
    simp only [answer, step, beginTransaction] at h ⊢
    split at h
    · next current hcurrent => simpa [Except.map, hcurrent] using h
    · split at h
      · simp [Except.map] at h
      · simpa [Except.map] using h
  | commitTransactionAsync outcome =>
    rcases hcommit : (commitTransactionAsync outcome manager).1 with _ | _ <;>
      simp [answer, hcommit, Except.map] at h
  | rollbackTransactionAsync dispose =>
    rcases hrollback : (rollbackTransactionAsync dispose manager).1 with _ | _ <;>
      simp [answer, hrollback, Except.map] at h
  | disposeHandle other dispose =>
    rcases hdispose : (callScope (·.dispose dispose) other manager).1 with _ | _ <;>
      simp [answer, hdispose, Except.map] at h
  | register command => simp [answer] at h

theorem callScope_transaction (manager : TransactionManager Key Document)
    (call : TransactionScope → Except Exn Unit × TransactionScope) (handle : ℕ) :
    (callScope call handle manager).2.transaction = manager.transaction := by
  unfold callScope
  cases manager.scopes[handle]? <;> rfl

/-- `ClearTransaction` empties the field when it returns. -/
theorem transaction_clearTransaction {dispose : DisposeOutcome}
    (hreturns : (clearTransaction dispose manager).1 = .ok ()) :
    (clearTransaction dispose manager).2.transaction = none := by
  cases hcurrent : manager.transaction with
  | none => simp only [clearTransaction, hcurrent]
  | some handle =>
    rw [clearTransaction_of_some hcurrent] at hreturns ⊢
    rcases hcall : callScope (·.dispose dispose) handle manager with ⟨_ | _, disposed⟩
    · rw [hcall] at hreturns
      exact absurd hreturns (by simp)
    · rfl

/-- A commit or a rollback that returns ends the transaction. -/
theorem isActive_of_ends {call : Call Key Document} {result : Option ℕ} (hends : call.Ends)
    (hreturns : (answer manager call).1 = .ok result) : (step manager call).isActive = false := by
  have hreturned : ∀ answered : Except Exn Unit,
      (answered.map fun _ ↦ (none : Option ℕ)) = .ok result → answered = .ok () := by
    rintro (exception | _) hmap
    · exact absurd hmap (by simp [Except.map])
    · rfl
  cases call with
  | beginTransaction isolationLevel => exact hends.elim
  | disposeHandle handle dispose => exact hends.elim
  | register command => exact hends.elim
  | rollbackTransactionAsync dispose =>
    exact congrArg Option.isSome (transaction_clearTransaction (hreturned _ hreturns))
  | commitTransactionAsync outcome =>
    have hcommitted := hreturned _ hreturns
    by_cases hself : manager.transaction = none ∨ outcome.saveChangesThrows = true
    · rcases hself with hnone | hthrows
      · simp [commitTransactionAsync, hnone] at hcommitted
      · cases hcurrent : manager.transaction <;>
          simp [commitTransactionAsync, hcurrent, hthrows] at hcommitted
    · obtain ⟨hbegun, hsave⟩ := not_or.mp hself
      obtain ⟨handle, hcurrent⟩ := Option.ne_none_iff_exists'.mp hbegun
      have hcommit := commitTransactionAsync_of_some hcurrent (by simpa using hsave)
      simp only [step, answer]
      rw [hcommit] at hcommitted ⊢
      rcases hcall : callScope TransactionScope.complete handle
          { manager with session := manager.session.saveChangesAsync } with ⟨_ | _, saved⟩
      · rw [hcall] at hcommitted
        exact absurd hcommitted (by simp)
      · rw [hcall] at hcommitted
        exact congrArg Option.isSome (transaction_clearTransaction hcommitted)

/-- A manager without a transaction has one after a call exactly when the call begins one. -/
theorem isActive_step_of_idle (hidle : manager.isActive = false) (call : Call Key Document) :
    (step manager call).isActive = true ↔ call.Begins := by
  have hnone : manager.transaction = none := by simpa [isActive] using hidle
  cases call with
  | beginTransaction isolationLevel =>
    simp only [step, answer, beginTransaction, hnone, Call.Begins, isActive]
    rcases hmap : mapIsolationLevel isolationLevel with exception | level
    · simp [hnone, hmap]
    · simp [hmap]
  | commitTransactionAsync outcome =>
    simp [step, answer, Call.Begins, commitTransactionAsync_eq_self (Or.inl hnone), hidle]
  | rollbackTransactionAsync dispose =>
    simp [step, answer, Call.Begins, rollbackTransactionAsync, clearTransaction, hnone, hidle]
  | disposeHandle handle dispose =>
    simp [step, answer, Call.Begins, isActive, callScope_transaction, hnone]
  | register command => simp [step, answer, Call.Begins, isActive, hnone]

end Methods

/-- A manager just made over a session. -/
def start (session : DocumentSession Key Document) : TransactionManager Key Document :=
  { session := session }

end TransactionManager

end SharpArch.RavenDb
