import SharpArch.Domain.PersistenceSupport
import SharpArch.RavenDb.ScopeLifetime

/-!
# The RavenDB manager behind the interface

As long as nobody disposes of the handles a RavenDB transaction manager gave out and `Dispose` does
not throw, its field holds the open scope and that scope is not completed (`Settled`): a commit
completes a scope and disposes of it in one call. Then a rollback always ends the transaction, and
a commit does unless its save throws (`transaction_rollbackTransactionAsync`,
`transaction_commitTransactionAsync`).

`ScopedManager` is a manager together with that fact. Every method keeps it, so
`transactionManager` is an `ITransactionManager` over `ScopedManager`; `SaveChangesAsync` may still
throw in any state. It meets the contract of the interfaces, with the open scopes as the open
transactions.
-/

set_option autoImplicit false
set_option relaxedAutoImplicit false

namespace SharpArch.RavenDb

open Platform.SystemTransactions Domain.PersistenceSupport

variable {Key Document : Type}

namespace TransactionManager

variable {manager : TransactionManager Key Document}

/-- The field holds the open scope, which is not completed. -/
structure Settled (manager : TransactionManager Key Document) : Prop where
  inStep : ScopeInStep manager
  not_completed : ∀ handle, IsOpen manager handle → ¬ IsCompleted manager handle

theorem settled_start (session : DocumentSession Key Document) : Settled (start session) where
  inStep := scopeInStep_start session
  not_completed := by
    rintro handle - ⟨scope, hscope, -⟩
    simp [start] at hscope

/-- A manager with an empty field whose field is in step has no open scope to speak of. -/
theorem settled_of_idle (hstep : ScopeInStep manager) (hidle : manager.transaction = none) :
    Settled manager where
  inStep := hstep
  not_completed := by
    intro handle hopen
    have hcurrent := (hstep handle).mp hopen
    exact absurd (hidle.symm.trans hcurrent) (Option.some_ne_none _).symm

theorem settled_beginTransaction (hsettled : Settled manager) (isolationLevel : IsolationLevel) :
    Settled (step manager (.beginTransaction isolationLevel)) := by
  have hstep := scopeInStep_step hsettled.inStep (.beginTransaction isolationLevel) trivial
  refine ⟨hstep, fun handle hopen hcompleted ↦ ?_⟩
  have hbefore : IsCompleted manager handle := by
    rcases isCompleted_step hcompleted with hbefore | ⟨outcome, hcall, -⟩
    · exact hbefore
    · exact absurd hcall (by simp)
  -- the scope just made has a handle beyond those of the completed scopes
  have hlt : handle < manager.scopes.length := by
    obtain ⟨scope, hscope, -⟩ := hbefore
    exact (List.getElem?_eq_some_iff.mp hscope).1
  have hcurrent : (beginTransaction isolationLevel manager).2.transaction = some handle :=
    (hstep handle).mp hopen
  have hsame : manager.transaction = some handle := by
    simp only [beginTransaction] at hcurrent
    split at hcurrent
    · exact hcurrent
    · split at hcurrent
      · exact hcurrent
      · exact absurd (Option.some.inj hcurrent) (Nat.ne_of_gt hlt)
  exact hsettled.not_completed handle ((hsettled.inStep handle).mpr hsame) hbefore

/-- `RollbackTransactionAsync` ends the transaction when `Dispose` returns. -/
theorem transaction_rollbackTransactionAsync (manager : TransactionManager Key Document) :
    (rollbackTransactionAsync .returns manager).2.transaction = none := by
  cases hcurrent : manager.transaction with
  | none => simp only [rollbackTransactionAsync, clearTransaction, hcurrent]
  | some handle =>
    have hreturns : (callScope (·.dispose .returns) handle manager).1 = .ok () := by
      unfold callScope
      split
      · rfl
      · exact dispose_ok_iff.mpr (Or.inr rfl)
    rw [rollbackTransactionAsync, clearTransaction_of_some hcurrent]
    rcases hcall : callScope (·.dispose .returns) handle manager with ⟨_ | _, disposed⟩
    · rw [hcall] at hreturns
      exact absurd hreturns (by simp)
    · rfl

/-- On a settled manager, a commit whose save does not throw returns and ends the transaction. -/
theorem commitTransactionAsync_of_settled (hsettled : Settled manager)
    (hactive : manager.isActive = true) :
    (commitTransactionAsync {} manager).1 = .ok () ∧
      (commitTransactionAsync {} manager).2.transaction = none := by
  obtain ⟨handle, hcurrent⟩ := Option.isSome_iff_exists.mp hactive
  obtain ⟨scope, hscope, hopen⟩ := hsettled.inStep.current hcurrent
  have hcompleted : scope.completed = false := by
    rw [← Bool.not_eq_true]
    exact fun h ↦ hsettled.not_completed handle ⟨scope, hscope, hopen⟩ ⟨scope, hscope, h⟩
  have hlt : handle < manager.scopes.length := (List.getElem?_eq_some_iff.mp hscope).1
  let completed : TransactionScope := { scope with completed := true }
  let saved : TransactionManager Key Document :=
    { manager with
      session := manager.session.saveChangesAsync
      scopes := manager.scopes.set handle completed }
  have hcomplete : callScope TransactionScope.complete handle
      { manager with session := manager.session.saveChangesAsync } = (.ok (), saved) := by
    simp only [callScope, hscope, TransactionScope.complete, hopen, hcompleted, Bool.false_eq_true,
      if_false, saved, completed]
  have hdispose : callScope (·.dispose .returns) handle saved =
      (.ok (), { saved with scopes := saved.scopes.set handle { completed with disposed := true } }) := by
    have hget : saved.scopes[handle]? = some completed := List.getElem?_set_self hlt
    have hopen' : completed.disposed = false := hopen
    rw [callScope_of_getElem? hget]
    simp only [TransactionScope.dispose, hopen', Bool.false_eq_true, if_false]
  have hsaved : saved.transaction = some handle := hcurrent
  rw [commitTransactionAsync_of_some hcurrent rfl, hcomplete]
  simp only [clearTransaction_of_some hsaved, hdispose, and_self]

/-- A rollback leaves a settled manager settled. -/
theorem settled_rollbackTransactionAsync (hsettled : Settled manager) :
    Settled (step manager (.rollbackTransactionAsync .returns)) :=
  settled_of_idle (scopeInStep_step hsettled.inStep _ fun _ ↦ nofun)
    (transaction_rollbackTransactionAsync manager)

/-- A commit leaves a settled manager settled, whether its save throws or not. -/
theorem settled_commitTransactionAsync (hsettled : Settled manager) (saveChangesThrows : Bool) :
    Settled (step manager (.commitTransactionAsync ⟨saveChangesThrows, .returns⟩)) := by
  by_cases hsame : manager.transaction = none ∨ saveChangesThrows = true
  · have hstep : step manager (.commitTransactionAsync ⟨saveChangesThrows, .returns⟩) = manager :=
      commitTransactionAsync_eq_self hsame
    rw [hstep]
    exact hsettled
  · obtain ⟨hbegun, hsave⟩ := not_or.mp hsame
    obtain rfl : saveChangesThrows = false := by simpa using hsave
    have hactive : manager.isActive = true := Option.isSome_iff_ne_none.mpr hbegun
    exact settled_of_idle (scopeInStep_step hsettled.inStep _ fun _ _ _ _ ↦ nofun)
      (commitTransactionAsync_of_settled hsettled hactive).2

end TransactionManager

/-! ### The interface -/

/-- A manager whose field holds the open scope, which is not completed. -/
abbrev ScopedManager (Key Document : Type) :=
  { manager : TransactionManager Key Document // manager.Settled }

namespace ScopedManager

open TransactionManager

/-- Some scope is open. -/
def HasOpenScope (manager : ScopedManager Key Document) : Prop :=
  ∃ handle, IsOpen manager.val handle

theorem hasOpenScope_iff (manager : ScopedManager Key Document) :
    manager.HasOpenScope ↔ manager.val.isActive = true :=
  manager.property.inStep.isActive_iff.symm

/-- A manager just made over a session. -/
def start (session : DocumentSession Key Document) : ScopedManager Key Document :=
  ⟨TransactionManager.start session, settled_start session⟩

/-- The RavenDB manager as an `ITransactionManager`; `saveChangesThrows` says in which states
`SaveChangesAsync` throws. -/
def transactionManager (saveChangesThrows : TransactionManager Key Document → Bool) :
    ITransactionManager (ScopedManager Key Document) where
  beginTransaction := fun isolationLevel manager ↦
    ((manager.val.beginTransaction isolationLevel).1.map fun _ ↦ (),
      ⟨_, settled_beginTransaction manager.property isolationLevel⟩)
  commitTransactionAsync := fun manager ↦
    ((manager.val.commitTransactionAsync ⟨saveChangesThrows manager.val, .returns⟩).1,
      ⟨_, settled_commitTransactionAsync manager.property (saveChangesThrows manager.val)⟩)
  rollbackTransactionAsync := fun manager ↦
    ((manager.val.rollbackTransactionAsync .returns).1,
      ⟨_, settled_rollbackTransactionAsync manager.property⟩)
  isActive := some fun manager ↦ manager.val.isActive

/-- A `BeginTransaction` that throws leaves the manager as it was. -/
theorem beginTransaction_of_throws {saveChangesThrows : TransactionManager Key Document → Bool}
    {isolationLevel : IsolationLevel} {manager : ScopedManager Key Document} {exception : Exn}
    (hthrows : ((transactionManager saveChangesThrows).beginTransaction isolationLevel manager).1 =
      .error exception) :
    ((transactionManager saveChangesThrows).beginTransaction isolationLevel manager).2 = manager := by
  refine Subtype.ext ?_
  simp only [transactionManager, step, answer, beginTransaction] at hthrows ⊢
  split
  · rfl
  · next hidle =>
    rw [hidle] at hthrows
    split
    · rfl
    · next level hlevel => simp [hlevel, Except.map] at hthrows

/-- On an idle manager `BeginTransaction` throws exactly when the isolation level has no name. -/
theorem beginTransaction_throws_iff (saveChangesThrows : TransactionManager Key Document → Bool)
    (isolationLevel : IsolationLevel) {manager : ScopedManager Key Document}
    (hidle : ¬ manager.HasOpenScope) (exception : Exn) :
    ((transactionManager saveChangesThrows).beginTransaction isolationLevel manager).1 =
      .error exception ↔ mapIsolationLevel isolationLevel = .error exception := by
  have hnone : manager.val.transaction = none := by
    rw [hasOpenScope_iff, TransactionManager.isActive] at hidle
    simpa using hidle
  simp only [transactionManager, beginTransaction, hnone]
  rcases mapIsolationLevel isolationLevel with _ | _ <;> simp [Except.map]

/-- After a rollback no scope is open. -/
theorem not_hasOpenScope_rollback (saveChangesThrows : TransactionManager Key Document → Bool)
    (manager : ScopedManager Key Document) :
    ¬ ((transactionManager saveChangesThrows).rollbackTransactionAsync manager).2.HasOpenScope := by
  have hnone := transaction_rollbackTransactionAsync manager.val
  rw [hasOpenScope_iff, TransactionManager.isActive, Bool.not_eq_true, Option.isSome_eq_false_iff]
  exact Option.isNone_iff_eq_none.mpr hnone

/-- After a commit a scope is open exactly when one was open before and the save threw. -/
theorem hasOpenScope_commit_iff (saveChangesThrows : TransactionManager Key Document → Bool)
    (manager : ScopedManager Key Document) :
    ((transactionManager saveChangesThrows).commitTransactionAsync manager).2.HasOpenScope ↔
      manager.HasOpenScope ∧ saveChangesThrows manager.val = true := by
  rw [hasOpenScope_iff, hasOpenScope_iff]
  simp only [transactionManager, step, answer]
  cases hsave : saveChangesThrows manager.val with
  | true => simp [commitTransactionAsync_eq_self]
  | false =>
    cases hactive : manager.val.isActive with
    | true =>
      have hnone := (commitTransactionAsync_of_settled manager.property hactive).2
      simp only [TransactionManager.isActive, Bool.false_eq_true, and_false, iff_false]
      rw [hnone]
      exact Bool.false_ne_true
    | false =>
      have hidle : manager.val.transaction = none := by
        simpa [TransactionManager.isActive] using hactive
      rw [commitTransactionAsync_eq_self (Or.inl hidle), hactive]
      simp

theorem contract_transactionManager (saveChangesThrows : TransactionManager Key Document → Bool) :
    Contract (transactionManager saveChangesThrows) HasOpenScope where
  begin_throws := by
    intro isolationLevel manager exception hthrows hopen
    rw [beginTransaction_of_throws hthrows] at hopen
    exact hopen
  isActive_iff := by
    intro isActive hstatus manager
    obtain rfl := Option.some.inj hstatus
    exact manager.hasOpenScope_iff.symm

end ScopedManager

end SharpArch.RavenDb
