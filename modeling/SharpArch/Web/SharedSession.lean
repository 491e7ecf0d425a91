import Mathlib.Logic.Function.Basic
import Mathlib.Logic.IsEmpty.Basic
import SharpArch.Web.AutoTransactionHandler
import SharpArch.RavenDb.RavenDbRepository

/-!
# Several managers over one session

The constructor of a `RavenDbRepository` makes a transaction manager of its own over the session it
is given, and the container makes one for the request. All of them work on the same session and
leave their scopes to the same platform, but each has its own `_transaction`. A `SharedSession` is
that: one session, one list of scopes, and a field for each handle. A call through a handle is the
call of the one manager it names, on the session and the scopes as they are.

`everyCall_agree_iff` shows that the handles agree with each other all along a history exactly
when there is only one of them or none of them ever begins a transaction. The second part follows a
request: an action rolls back through a repository and returns, and the handler then commits through
the manager of the request, which knows nothing of the rollback. The session still holds the
action's changes, and they are committed (`correct_and_honoured_iff`).
-/

set_option autoImplicit false
set_option relaxedAutoImplicit false

namespace SharpArch.Web

open Foundation.Run Platform.SystemTransactions Domain.PersistenceSupport RavenDb

/-- The managers over a session: the one of the request, and that of each repository. -/
inductive Handle (Repository : Type)
  | request
  | transactionManager (repository : Repository)
  deriving DecidableEq, Repr

/-- A session, the scopes made over it, and the field `_transaction` of every manager. -/
structure SharedSession (Repository Key Document : Type) where
  session : DocumentSession Key Document
  scopes : List TransactionScope := []
  transactionOf : Handle Repository → Option ℕ := fun _ ↦ none

namespace SharedSession

variable {Repository Key Document : Type} [DecidableEq Repository]

/-- The manager behind a handle. -/
def manager (shared : SharedSession Repository Key Document) (handle : Handle Repository) :
    TransactionManager Key Document :=
  { session := shared.session
    scopes := shared.scopes
    transaction := shared.transactionOf handle }

/-- The state with the manager behind a handle replaced. -/
def withManager (shared : SharedSession Repository Key Document) (handle : Handle Repository)
    (manager : TransactionManager Key Document) : SharedSession Repository Key Document :=
  { session := manager.session
    scopes := manager.scopes
    transactionOf := Function.update shared.transactionOf handle manager.transaction }

/-- A call through a handle, a change registered on the session, or the disposal of a scope. -/
abbrev Call (Repository Key Document : Type) :=
  Handle Repository × TransactionManager.Call Key Document

/-- The answer to a call, and the state after it. -/
def answer (shared : SharedSession Repository Key Document)
    (call : Call Repository Key Document) :
    Except Exn (Option ℕ) × SharedSession Repository Key Document :=
  (((shared.manager call.1).answer call.2).1,
    shared.withManager call.1 ((shared.manager call.1).answer call.2).2)

/-- The state after a call, whether it returned or threw. -/
def step (shared : SharedSession Repository Key Document) (call : Call Repository Key Document) :
    SharedSession Repository Key Document :=
  (answer shared call).2

/-- `IsActive` of the manager behind a handle. -/
def isActive (shared : SharedSession Repository Key Document) (handle : Handle Repository) : Bool :=
  (shared.manager handle).isActive

/-- A session just opened, with the managers made over it. -/
def start : SharedSession Repository Key Document := { session := {} }

/-! ### What the handles report -/

/-- What a call owes the other handles: after it all report the same `IsActive`, and once a commit
or a rollback has returned none reports a transaction. -/
structure Correct (shared : SharedSession Repository Key Document)
    (call : Call Repository Key Document) : Prop where
  same_isActive : ∀ first second,
    (step shared call).isActive first = (step shared call).isActive second
  ends_all : ∀ result, call.2.Ends → (answer shared call).1 = .ok result →
    ∀ handle, (step shared call).isActive handle = false

variable {shared : SharedSession Repository Key Document}

theorem manager_withManager_self (handle : Handle Repository)
    (manager : TransactionManager Key Document) :
    (shared.withManager handle manager).manager handle = manager := by
  simp [SharedSession.manager, withManager]

theorem transactionOf_withManager_of_ne {handle other : Handle Repository} (hne : other ≠ handle)
    (manager : TransactionManager Key Document) :
    (shared.withManager handle manager).transactionOf other = shared.transactionOf other :=
  Function.update_of_ne hne _ _

theorem isActive_step_self (call : Call Repository Key Document) :
    (step shared call).isActive call.1 = ((shared.manager call.1).step call.2).isActive :=
  congrArg TransactionManager.isActive (manager_withManager_self _ _)

/-- A call through one handle leaves the field behind every other handle as it is. -/
theorem isActive_step_of_ne {call : Call Repository Key Document} {other : Handle Repository}
    (hne : other ≠ call.1) : (step shared call).isActive other = shared.isActive other :=
  congrArg Option.isSome (transactionOf_withManager_of_ne hne _)

/-- The handles have agreed so far: there is only the one of the request, or none reports a
transaction. -/
def Agreed (shared : SharedSession Repository Key Document) : Prop :=
  IsEmpty Repository ∨ ∀ handle, shared.isActive handle = false

/-- Without repositories the one manager is correct by itself. -/
theorem correct_of_isEmpty (hrepository : IsEmpty Repository) (call : Call Repository Key Document) :
    Correct shared call := by
  have hhandle : ∀ first second : Handle Repository, first = second := by
    rintro (_ | repository) (_ | repository')
    · rfl
    · exact hrepository.elim repository'
    · exact hrepository.elim repository
    · exact hrepository.elim repository
  refine ⟨fun first second ↦ by rw [hhandle first second], fun result hends hreturns handle ↦ ?_⟩
  rw [hhandle handle call.1, isActive_step_self]
  exact TransactionManager.isActive_of_ends hends hreturns

/-- A call that begins nothing leaves every handle without a transaction. -/
theorem isActive_step_of_not_begins (hidle : ∀ handle, shared.isActive handle = false)
    {call : Call Repository Key Document} (hbegins : ¬ call.2.Begins) (handle : Handle Repository) :
    (step shared call).isActive handle = false := by
  by_cases hself : handle = call.1
  · rw [hself, isActive_step_self, ← Bool.not_eq_true]
    exact fun h ↦ hbegins ((TransactionManager.isActive_step_of_idle (hidle call.1) call.2).mp h)
  · rw [isActive_step_of_ne hself, hidle handle]

/-- As long as the handles agree, a call is correct exactly when it begins no transaction or there
is no other handle. -/
theorem correct_iff (hagreed : Agreed shared) (call : Call Repository Key Document) :
    Correct shared call ↔ IsEmpty Repository ∨ ¬ call.2.Begins := by
  constructor
  · intro hcorrect
    by_contra hnot
    obtain ⟨hrepository, hbegins⟩ := not_or.mp hnot
    have hidle := hagreed.resolve_left hrepository
    have hactive := TransactionManager.isActive_step_of_idle (hidle call.1) call.2
    obtain ⟨repository⟩ := not_isEmpty_iff.mp hrepository
    obtain ⟨other, hother⟩ : ∃ other, other ≠ call.1 := by
      rcases call.1 with _ | _
      · exact ⟨.transactionManager repository, by simp⟩
      · exact ⟨.request, by simp⟩
    have hsame := hcorrect.same_isActive other call.1
    rw [isActive_step_of_ne hother, hidle other, isActive_step_self,
      hactive.mpr (not_not.mp hbegins)] at hsame
    exact Bool.false_ne_true hsame
  · rintro (hrepository | hbegins)
    · exact correct_of_isEmpty hrepository call
    · rcases hagreed with hrepository | hidle
      · exact correct_of_isEmpty hrepository call
      · have hafter := isActive_step_of_not_begins hidle hbegins
        exact ⟨fun first second ↦ by rw [hafter first, hafter second], fun _ _ _ ↦ hafter⟩

/-- Calls that begin no transaction leave the handles agreed. -/
theorem agreed_step (hagreed : Agreed shared) (call : Call Repository Key Document)
    (hallowed : IsEmpty Repository ∨ ¬ call.2.Begins) : Agreed (step shared call) := by
  rcases hagreed with hrepository | hidle
  · exact Or.inl hrepository
  · exact hallowed.imp_right (isActive_step_of_not_begins hidle)

/-- Over histories of any length: the handles report the same status after every call, and a commit
or a rollback ends the transaction of every handle, exactly when there is one handle only or no call
begins a transaction. -/
theorem everyCall_agree_iff (calls : List (Call Repository Key Document)) :
    EveryCall step Correct start calls ↔
      IsEmpty Repository ∨ ∀ call ∈ calls, ¬ call.2.Begins := by
  have hstart : Agreed (start : SharedSession Repository Key Document) := Or.inr fun _ ↦ rfl
  have hrun : EveryCall step Correct start calls ↔
      EveryCall step (fun _ call ↦ IsEmpty Repository ∨ ¬ call.2.Begins)
        (start : SharedSession Repository Key Document) calls := by
    refine everyCall_iff_of_invariant ?_ ?_ hstart calls
    · intro shared call hagreed hallowed
      exact agreed_step hagreed call hallowed
    · intro shared call hagreed
      exact correct_iff hagreed call
  rw [hrun, everyCall_forall]
  by_cases hrepository : IsEmpty Repository <;> simp [hrepository]

/-! ### A request whose action rolls back through a repository -/

theorem wellNumbered_run (hnumbered : shared.session.WellNumbered)
    (calls : List (Call Repository Key Document)) :
    (run step shared calls).session.WellNumbered := by
  have hkeep : ∀ (shared : SharedSession Repository Key Document) call,
      shared.session.WellNumbered → (step shared call).session.WellNumbered := by
    intro shared call hnumbered
    exact TransactionManager.wellNumbered_step hnumbered call.2
  exact run_invariant hkeep hnumbered calls

end SharedSession

/-- A request to an action that makes calls on the session and on any of the managers over it, then
rolls back through the manager of a repository, and returns. The three last fields say how the calls
of the rollback and of the handler end. -/
structure RollbackRequest (Repository Key Document : Type) where
  settings : AutoTransactionHandler.TransactionAttribute
  calls : List (SharedSession.Call Repository Key Document)
  repository : Repository
  rollback : DisposeOutcome
  commit : SharedSession Repository Key Document → CommitOutcome
  dispose : SharedSession Repository Key Document → DisposeOutcome

namespace RollbackRequest

open AutoTransactionHandler

variable {Repository Key Document : Type} [DecidableEq Repository]

/-- The manager the container holds for the request. -/
def manager (request : RollbackRequest Repository Key Document) :
    ITransactionManager (SharedSession Repository Key Document) where
  beginTransaction := fun isolationLevel shared ↦
    ((shared.answer (.request, .beginTransaction isolationLevel)).1.map fun _ ↦ (),
      shared.step (.request, .beginTransaction isolationLevel))
  commitTransactionAsync := fun shared ↦
    ((shared.answer (.request, .commitTransactionAsync (request.commit shared))).1.map fun _ ↦ (),
      shared.step (.request, .commitTransactionAsync (request.commit shared)))
  rollbackTransactionAsync := fun shared ↦
    ((shared.answer (.request, .rollbackTransactionAsync (request.dispose shared))).1.map fun _ ↦ (),
      shared.step (.request, .rollbackTransactionAsync (request.dispose shared)))
  isActive := some fun shared ↦ shared.isActive .request

/-- The state in which the action asks for the rollback, from the one the handler has begun in. -/
def beforeRollback (request : RollbackRequest Repository Key Document)
    (begun : SharedSession Repository Key Document) : SharedSession Repository Key Document :=
  run SharedSession.step begun request.calls

/-- The action, which ends without an exception and with a valid model. -/
def next (request : RollbackRequest Repository Key Document)
    (begun : SharedSession Repository Key Document) :
    ActionExecutedContext × SharedSession Repository Key Document :=
  ({}, (request.beforeRollback begun).step
    (.transactionManager request.repository, .rollbackTransactionAsync request.rollback))

/-- The state after the handler has answered the request. -/
def handled (request : RollbackRequest Repository Key Document)
    (shared : SharedSession Repository Key Document) : SharedSession Repository Key Document :=
  (onActionExecutionAsync (some request.settings) (some request.manager) request.next shared).2

/-- The state in which the action asks for the rollback, from the one the request arrives in. -/
def atRollback (request : RollbackRequest Repository Key Document)
    (shared : SharedSession Repository Key Document) : SharedSession Repository Key Document :=
  request.beforeRollback
    (request.manager.beginTransaction request.settings.isolationLevel shared).2

/-- No change the action had made and not yet saved when it rolled back is in the database after
the request. -/
def Honoured (request : RollbackRequest Repository Key Document)
    (shared : SharedSession Repository Key Document) : Prop :=
  ∀ change ∈ (request.atRollback shared).session.pending, shared.session.made ≤ change.number →
    change ∉ (request.handled shared).session.written

/-- The request does not reach a commit that saves changes of the action: the handler's
`BeginTransaction` throws, the action has itself ended the transaction of the request, the save
throws, or the action has left no change unsaved. -/
def CommitsNothing (request : RollbackRequest Repository Key Document)
    (shared : SharedSession Repository Key Document) : Prop :=
  (∃ exception, (request.manager.beginTransaction request.settings.isolationLevel shared).1 =
      .error exception) ∨
    (request.atRollback shared).isActive .request = false ∨
    (request.commit (request.next
      (request.manager.beginTransaction request.settings.isolationLevel shared).2).2
      ).saveChangesThrows = true ∨
    ∀ change ∈ (request.atRollback shared).session.pending, change.number < shared.session.made

section Handled

variable {request : RollbackRequest Repository Key Document}
  {shared : SharedSession Repository Key Document}

theorem session_beginTransaction (isolationLevel : IsolationLevel) :
    (request.manager.beginTransaction isolationLevel shared).2.session = shared.session :=
  TransactionManager.beginTransaction_session isolationLevel

/-- The rollback through the repository reaches neither the session nor the manager of the
request. -/
theorem session_next (begun : SharedSession Repository Key Document) :
    (request.next begun).2.session = (request.beforeRollback begun).session :=
  TransactionManager.clearTransaction_session request.rollback

theorem isActive_next (begun : SharedSession Repository Key Document) :
    (request.next begun).2.isActive .request = (request.beforeRollback begun).isActive .request :=
  SharedSession.isActive_step_of_ne (by simp)

/-- After a `BeginTransaction` that throws the session is as it was. -/
theorem session_handled_of_throws {exception : Exn} {begun : SharedSession Repository Key Document}
    (hbegin : request.manager.beginTransaction request.settings.isolationLevel shared =
      (.error exception, begun)) : (request.handled shared).session = shared.session := by
  have hsession : (request.manager.beginTransaction request.settings.isolationLevel
      shared).2.session = shared.session := session_beginTransaction _
  rw [handled, onActionExecutionAsync_of_throws hbegin]
  rw [hbegin] at hsession
  exact hsession

/-- Once a transaction is begun, the handler saves the session exactly when the transaction of the
request is still open and the save does not throw. -/
theorem session_handled_of_begun {begun : SharedSession Repository Key Document}
    (hbegin : request.manager.beginTransaction request.settings.isolationLevel shared =
      (.ok (), begun)) :
    (request.handled shared).session =
      if (request.beforeRollback begun).isActive .request = true ∧
          (request.commit (request.next begun).2).saveChangesThrows = false
      then (request.beforeRollback begun).session.saveChangesAsync
      else (request.beforeRollback begun).session := by
  rw [handled, onActionExecutionAsync_of_isActive hbegin rfl]
  have hactive : (request.next begun).2.isActive .request =
      (request.beforeRollback begun).isActive .request := isActive_next begun
  have hsession : (request.next begun).2.session = (request.beforeRollback begun).session :=
    session_next begun
  by_cases hopen : (request.beforeRollback begun).isActive .request = true
  · have hcommits : endTransaction request.settings request.manager (request.next begun).1
        (request.next begun).2 = request.manager.commitTransactionAsync (request.next begun).2 := by
      simp [endTransaction, rollsBack, next]
    rw [if_pos (hactive.trans hopen), hcommits]
    cases hsave : (request.commit (request.next begun).2).saveChangesThrows with
    | true =>
      have hsame : (TransactionManager.commitTransactionAsync (request.commit (request.next begun).2)
          ((request.next begun).2.manager .request)).2 = (request.next begun).2.manager .request :=
        TransactionManager.commitTransactionAsync_eq_self (Or.inr hsave)
      rw [if_neg (by simp)]
      exact (congrArg TransactionManager.session hsame).trans hsession
    | false =>
      rw [if_pos ⟨hopen, rfl⟩, ← hsession]
      exact TransactionManager.commitTransactionAsync_session _ (hactive.trans hopen) hsave
  · rw [if_neg (fun h ↦ hopen (hactive.symm.trans h)), if_neg (fun h ↦ hopen h.1)]
    exact hsession

/-- A request that arrives in a state whose changes are well numbered keeps the rollback of its
action exactly when it reaches no commit that saves changes of the action. -/
theorem honoured_iff (hnumbered : shared.session.WellNumbered) :
    Honoured request shared ↔ CommitsNothing request shared := by
  unfold Honoured CommitsNothing atRollback
  have hbegun : (request.manager.beginTransaction request.settings.isolationLevel
      shared).2.session = shared.session := session_beginTransaction _
  rcases hbegin : request.manager.beginTransaction request.settings.isolationLevel shared with
    ⟨_ | _, begun⟩
  · rw [session_handled_of_throws hbegin]
    refine ⟨fun _ ↦ Or.inl ⟨_, rfl⟩, fun _ change _ hnew hwritten ↦ ?_⟩
    exact Nat.not_lt.mpr hnew (hnumbered.written_lt change hwritten)
  · rw [hbegin] at hbegun
    have hbefore : (request.beforeRollback begun).session.WellNumbered :=
      SharedSession.wellNumbered_run (hbegun ▸ hnumbered) request.calls
    have hunsaved : ∀ change ∈ (request.beforeRollback begun).session.pending,
        change ∉ (request.beforeRollback begun).session.written :=
      fun change hpending hwritten ↦ hbefore.pending_ne_written change hpending change hwritten rfl
    simp only [session_handled_of_begun hbegin, reduceCtorEq, exists_false, false_or]
    split_ifs with hsaves
    · obtain ⟨hopen, hsave⟩ := hsaves
      simp only [hopen, hsave, Bool.true_eq_false, Bool.false_eq_true, false_or]
      constructor
      · intro hhonoured change hpending
        by_contra hnew
        exact hhonoured change hpending (Nat.not_lt.mp hnew) (List.mem_append_right _ hpending)
      · intro hold change hpending hnew
        exact absurd (hold change hpending) (Nat.not_lt.mpr hnew)
    · refine ⟨fun _ ↦ ?_, fun _ change hpending _ ↦ hunsaved change hpending⟩
      rcases not_and_or.mp hsaves with hclosed | hthrows
      · exact Or.inl (Bool.not_eq_true _ ▸ hclosed)
      · exact Or.inr (Or.inl (Bool.not_eq_false _ ▸ hthrows))

/-- In every history of a session with its managers, and for every request that arrives after it:
the handles agree after every call exactly when there is one handle only or no call begins a
transaction, and a rollback asked for through a repository is kept exactly when the request reaches
no commit that saves changes of the action. -/
theorem correct_and_honoured_iff (calls : List (SharedSession.Call Repository Key Document)) :
    (EveryCall SharedSession.step SharedSession.Correct SharedSession.start calls ↔
        IsEmpty Repository ∨ ∀ call ∈ calls, ¬ call.2.Begins) ∧
      ∀ request : RollbackRequest Repository Key Document,
        Honoured request (run SharedSession.step SharedSession.start calls) ↔
          CommitsNothing request (run SharedSession.step SharedSession.start calls) := by
  refine ⟨SharedSession.everyCall_agree_iff calls, fun request ↦ honoured_iff ?_⟩
  exact SharedSession.wellNumbered_run DocumentSession.wellNumbered_empty calls

/-- With one repository: a transaction begun for the request is not reported by the repository, and
the entity an action saves before it rolls back through the repository is in the database after the
request. -/
theorem rolled_back_action_committed :
    let begin : SharedSession.Call Unit ℕ ℕ := (.request, .beginTransaction .readCommitted)
    let shared : SharedSession Unit ℕ ℕ := .start
    let request : RollbackRequest Unit ℕ ℕ :=
      { settings := {}
        calls := [(.request, .register (.put 7))]
        repository := ()
        rollback := .returns
        commit := fun _ ↦ {}
        dispose := fun _ ↦ .returns }
    ¬ SharedSession.Correct shared begin ∧ ¬ request.Honoured shared ∧
      (request.handled shared).session.written = [⟨0, .put 7⟩] := by
  intro begin shared request
  have hwritten : (request.handled shared).session.written = [⟨0, .put 7⟩] := rfl
  have hpending : (request.atRollback shared).session.pending = [⟨0, .put 7⟩] := rfl
  refine ⟨fun hcorrect ↦ ?_, fun hhonoured ↦ ?_, hwritten⟩
  · have hsame := hcorrect.same_isActive .request (.transactionManager ())
    exact absurd hsame (by decide)
  · refine hhonoured ⟨0, .put 7⟩ ?_ (Nat.zero_le _) ?_
    · rw [hpending]
      exact List.mem_singleton_self _
    · rw [hwritten]
      exact List.mem_singleton_self _

end Handled

end RollbackRequest

end SharpArch.Web
