import SharpArch.RavenDb.TransactionManager

/-!
# The RavenDB repository and the unit of work

`RavenDbRepository` registers changes on the session it shares with the transaction manager: a save
stores the entity, and a deletion either deletes a loaded entity or, when the identifier is of a
reference type, defers a delete command. What `LoadAsync` answers is the client library's and is a
field of the repository here.

`UnitOfWork` is a manager together with a record of the history that the code does not keep: the
numbers of the changes made since the open transaction was begun, and of those made in a
transaction that was then rolled back. `NeverWritten` is what rolling back promises, that no change
of the second kind reaches the database. Rolling back disposes of the scope and leaves the session
as it is, so the next commit takes those changes along; `everyState_neverWritten_iff` says that the
promise is kept exactly in the histories where no commit finds a transaction open after a
transaction with changes was rolled back.
-/

set_option autoImplicit false
set_option relaxedAutoImplicit false

namespace SharpArch.RavenDb

open Foundation.Run Platform.SystemTransactions

variable {TId Key Document : Type}

/-! ### The repository -/

/-- A `RavenDbRepository<TEntity, TId>`: whether `TId` is a value type, its `ToString`, and the
answers of `LoadAsync` on the session. -/
structure RavenDbRepository (TId Key Document : Type) where
  idIsValueType : Bool
  toKey : TId → Key
  loadAsync : DocumentSession Key Document → Key → Option Document

/-- `IAsyncDocumentSession.Delete`. -/
def DocumentSession.delete (entity : Option Document) (session : DocumentSession Key Document) :
    Except Exn Unit × DocumentSession Key Document :=
  match entity with
  | none => (.error (.argumentNull "entity"), session)
  | some document => (.ok (), session.register (.delete document))

namespace RavenDbRepository

/-- `SaveAsync`, and `SaveOrUpdateAsync`, which calls it. -/
def saveAsync (entity : Option Document) (session : DocumentSession Key Document) :
    Except Exn Unit × DocumentSession Key Document :=
  match entity with
  | none => (.error (.argumentNull "entity"), session)
  | some document => (.ok (), session.register (.put document))

/-- `DeleteAsync` of an entity. -/
def deleteAsync (entity : Option Document) (cancellationRequested : Bool)
    (session : DocumentSession Key Document) : Except Exn Unit × DocumentSession Key Document :=
  if cancellationRequested then (.error .operationCanceled, session)
  else session.delete entity

/-- `GetAsync`. -/
def getAsync (repository : RavenDbRepository TId Key Document) (id : TId)
    (session : DocumentSession Key Document) : Option Document :=
  repository.loadAsync session (repository.toKey id)

/-- `DeleteAsync` of an identifier. -/
def deleteByIdAsync (repository : RavenDbRepository TId Key Document) (id : TId)
    (cancellationRequested : Bool) (session : DocumentSession Key Document) :
    Except Exn Unit × DocumentSession Key Document :=
  if repository.idIsValueType then
    deleteAsync (repository.getAsync id session) cancellationRequested session
  else (.ok (), session.register (.deferredDelete (repository.toKey id)))

/-- A call of a repository that changes the session. -/
inductive Call (TId Key Document : Type)
  | saveAsync (entity : Option Document)
  | deleteAsync (entity : Option Document) (cancellationRequested : Bool)
  | deleteByIdAsync (repository : RavenDbRepository TId Key Document) (id : TId)
      (cancellationRequested : Bool)

/-- The answer to a repository call, and the session after it. -/
def answer (session : DocumentSession Key Document) :
    Call TId Key Document → Except Exn Unit × DocumentSession Key Document
  | .saveAsync entity => RavenDbRepository.saveAsync entity session
  | .deleteAsync entity cancellationRequested =>
    RavenDbRepository.deleteAsync entity cancellationRequested session
  | .deleteByIdAsync repository id cancellationRequested =>
    repository.deleteByIdAsync id cancellationRequested session

/-- A repository call registers one change when it returns and none when it throws. -/
theorem answer_cases (session : DocumentSession Key Document) (call : Call TId Key Document) :
    (∃ command, answer session call = (.ok (), session.register command)) ∨
      ∃ exception, answer session call = (.error exception, session) := by
  have hdelete : ∀ (entity : Option Document) (cancellationRequested : Bool),
      (∃ command, deleteAsync entity cancellationRequested session =
        (.ok (), session.register command)) ∨
      ∃ exception, deleteAsync entity cancellationRequested session =
        (.error exception, session) := by
    intro entity cancellationRequested
    unfold deleteAsync
    split_ifs
    · exact Or.inr ⟨_, rfl⟩
    · cases entity with
      | none => exact Or.inr ⟨_, rfl⟩
      | some document => exact Or.inl ⟨_, rfl⟩
  cases call with
  | saveAsync entity =>
    cases entity with
    | none => exact Or.inr ⟨_, rfl⟩
    | some document => exact Or.inl ⟨_, rfl⟩
  | deleteAsync entity cancellationRequested => exact hdelete entity cancellationRequested
  | deleteByIdAsync repository id cancellationRequested =>
    simp only [answer, deleteByIdAsync]
    split_ifs
    · exact hdelete _ _
    · exact Or.inl ⟨_, rfl⟩

end RavenDbRepository

/-! ### The unit of work -/

/-- A manager, the numbers of the changes made since its open transaction was begun, and of the
changes made in a transaction that was then rolled back. -/
structure UnitOfWork (Key Document : Type) where
  manager : TransactionManager Key Document
  sinceBegin : List ℕ := []
  rolledBack : List ℕ := []

namespace UnitOfWork

/-- A call of the unit of work, on a repository or on the transaction manager. -/
inductive Call (TId Key Document : Type)
  | repository (call : RavenDbRepository.Call TId Key Document)
  | beginTransaction (isolationLevel : IsolationLevel)
  | commitTransactionAsync
  | rollbackTransactionAsync

/-- The numbers of the changes registered between two states of a session. -/
def registered (before after : DocumentSession Key Document) : List ℕ :=
  List.range' before.made (after.made - before.made)

/-- The state after a call. No scope is disposed by its holder and no call fails, so a transaction
begun stays open until the commit or the rollback that ends it. -/
def step (uow : UnitOfWork Key Document) : Call TId Key Document → UnitOfWork Key Document
  | .repository call =>
    let session := (RavenDbRepository.answer uow.manager.session call).2
    { uow with
      manager := { uow.manager with session := session }
      sinceBegin := if uow.manager.isActive
        then uow.sinceBegin ++ registered uow.manager.session session else uow.sinceBegin }
  | .beginTransaction isolationLevel =>
    { uow with manager := (uow.manager.beginTransaction isolationLevel).2 }
  | .commitTransactionAsync =>
    { uow with
      manager := (uow.manager.commitTransactionAsync {}).2
      sinceBegin := [] }
  | .rollbackTransactionAsync =>
    { manager := (uow.manager.rollbackTransactionAsync .returns).2
      sinceBegin := []
      rolledBack := uow.rolledBack ++ uow.sinceBegin }

/-- A unit of work just started on a session that was just opened. -/
def start : UnitOfWork Key Document := { manager := TransactionManager.start {} }

/-- No change that was rolled back is in the database. -/
def NeverWritten (uow : UnitOfWork Key Document) : Prop :=
  ∀ change ∈ uow.manager.session.written, change.number ∉ uow.rolledBack

/-- A commit that finds a transaction open is made only while no change was rolled back. -/
def CommitsBeforeRollback (uow : UnitOfWork Key Document) (call : Call TId Key Document) : Prop :=
  call = .commitTransactionAsync → uow.manager.isActive = true → uow.rolledBack = []

/-! ### Rolled back changes stay pending -/

/-- Where the recorded changes are while no commit has followed a rollback with changes: those since
the transaction was begun and those rolled back are all still pending, in a session that numbers
its changes well. -/
structure Tracked (uow : UnitOfWork Key Document) : Prop where
  sinceBegin_pending : ∀ number ∈ uow.sinceBegin,
    ∃ change ∈ uow.manager.session.pending, change.number = number
  rolledBack_pending : ∀ number ∈ uow.rolledBack,
    ∃ change ∈ uow.manager.session.pending, change.number = number
  wellNumbered : uow.manager.session.WellNumbered

variable {uow : UnitOfWork Key Document}

theorem tracked_start : Tracked (start : UnitOfWork Key Document) where
  sinceBegin_pending := fun _ h ↦ absurd h List.not_mem_nil
  rolledBack_pending := fun _ h ↦ absurd h List.not_mem_nil
  wellNumbered := DocumentSession.wellNumbered_empty

theorem Tracked.neverWritten (htracked : Tracked uow) : NeverWritten uow := by
  intro change hwritten hrolledBack
  obtain ⟨pending, hpending, hnumber⟩ := htracked.rolledBack_pending _ hrolledBack
  exact htracked.wellNumbered.pending_ne_written pending hpending change hwritten hnumber

/-- A repository call keeps every recorded change pending. -/
theorem Tracked.repository (htracked : Tracked uow) (call : RavenDbRepository.Call TId Key Document) :
    Tracked (step uow (.repository call)) := by
  rcases RavenDbRepository.answer_cases uow.manager.session call with
    ⟨command, hanswer⟩ | ⟨exception, hanswer⟩
  · have hpending : ∀ number, (∃ change ∈ uow.manager.session.pending, change.number = number) →
        ∃ change ∈ (uow.manager.session.register command).pending, change.number = number := by
      rintro number ⟨change, hchange, hnumber⟩
      exact ⟨change, List.mem_append_left _ hchange, hnumber⟩
    have hnew : ∃ change ∈ (uow.manager.session.register command).pending,
        change.number = uow.manager.session.made :=
      ⟨⟨_, command⟩, List.mem_append_right _ (List.mem_singleton_self _), rfl⟩
    simp only [step, hanswer]
    refine ⟨fun number hnumber ↦ ?_, fun number hnumber ↦
      hpending number (htracked.rolledBack_pending number hnumber),
      htracked.wellNumbered.register command⟩
    split_ifs at hnumber
    · rcases List.mem_append.mp hnumber with hold | hregistered
      · exact hpending number (htracked.sinceBegin_pending number hold)
      · obtain rfl : number = uow.manager.session.made := by
          simpa [registered, DocumentSession.register] using hregistered
        exact hnew
    · exact hpending number (htracked.sinceBegin_pending number hnumber)
  · have hstep : step uow (.repository call) = uow := by
      simp [step, hanswer, registered]
    rw [hstep]
    exact htracked

/-- A call that leaves the session as it is keeps the recorded changes pending, as long as the
recorded numbers are those recorded before. -/
theorem Tracked.of_session_eq {next : UnitOfWork Key Document} (htracked : Tracked uow)
    (hsession : next.manager.session = uow.manager.session)
    (hsinceBegin : ∀ number ∈ next.sinceBegin, number ∈ uow.sinceBegin)
    (hrolledBack : ∀ number ∈ next.rolledBack, number ∈ uow.rolledBack ∨ number ∈ uow.sinceBegin) :
    Tracked next := by
  constructor
  · intro number hnumber
    rw [hsession]
    exact htracked.sinceBegin_pending number (hsinceBegin number hnumber)
  · intro number hnumber
    rw [hsession]
    rcases hrolledBack number hnumber with hold | hsince
    · exact htracked.rolledBack_pending number hold
    · exact htracked.sinceBegin_pending number hsince
  · rw [hsession]
    exact htracked.wellNumbered

/-- Saving leaves nothing pending, and nothing was rolled back that could be missed. -/
theorem Tracked.saved {next : UnitOfWork Key Document} (htracked : Tracked uow)
    (hsession : next.manager.session = uow.manager.session.saveChangesAsync)
    (hsinceBegin : next.sinceBegin = []) (hrolledBack : next.rolledBack = []) : Tracked next := by
  constructor
  · rw [hsinceBegin]
    exact fun _ h ↦ absurd h List.not_mem_nil
  · rw [hrolledBack]
    exact fun _ h ↦ absurd h List.not_mem_nil
  · rw [hsession]
    exact htracked.wellNumbered.saveChangesAsync

/-- A commit made before any change was rolled back, and every other call, keeps the recorded
changes pending. -/
theorem tracked_step (htracked : Tracked uow) (call : Call TId Key Document)
    (hcommits : CommitsBeforeRollback uow call) : Tracked (step uow call) := by
  cases call with
  | repository call => exact htracked.repository call
  | beginTransaction isolationLevel =>
    refine htracked.of_session_eq ?_ (fun _ h ↦ h) (fun _ h ↦ Or.inl h)
    exact TransactionManager.beginTransaction_session isolationLevel
  | commitTransactionAsync =>
    cases hactive : uow.manager.isActive with
    | true =>
      exact htracked.saved (TransactionManager.commitTransactionAsync_session {} hactive rfl) rfl
        (hcommits rfl hactive)
    | false =>
      have hidle : uow.manager.transaction = none := by
        simpa [TransactionManager.isActive] using hactive
      refine htracked.of_session_eq ?_ (fun _ h ↦ absurd h List.not_mem_nil) (fun _ h ↦ Or.inl h)
      exact congrArg TransactionManager.session
        (TransactionManager.commitTransactionAsync_eq_self (Or.inl hidle))
  | rollbackTransactionAsync =>
    refine htracked.of_session_eq ?_ (fun _ h ↦ absurd h List.not_mem_nil)
      (fun _ h ↦ List.mem_append.mp h)
    exact TransactionManager.clearTransaction_session _

/-- In a state where the recorded changes are pending, a call writes no change that was rolled back
exactly when it is not a commit of an open transaction after such a rollback. -/
theorem neverWritten_step_iff (htracked : Tracked uow) (call : Call TId Key Document) :
    NeverWritten (step uow call) ↔ CommitsBeforeRollback uow call := by
  constructor
  · rintro hnever rfl hactive
    by_contra hrolledBack
    obtain ⟨number, hnumber⟩ := List.exists_mem_of_ne_nil _ hrolledBack
    obtain ⟨change, hpending, rfl⟩ := htracked.rolledBack_pending number hnumber
    have hwritten : change ∈ (step uow (.commitTransactionAsync : Call TId Key Document)
        ).manager.session.written := by
      simp only [step, TransactionManager.commitTransactionAsync_session {} hactive rfl]
      exact List.mem_append_right _ hpending
    exact hnever change hwritten hnumber
  · intro hcommits
    exact (tracked_step htracked call hcommits).neverWritten

/-- Over histories of any length: no change made in a transaction that was rolled back ever reaches
the database exactly when no commit finds a transaction open once a transaction with changes was
rolled back. -/
theorem everyState_neverWritten_iff (calls : List (Call TId Key Document)) :
    EveryState step NeverWritten (start : UnitOfWork Key Document) calls ↔
      EveryCall step CommitsBeforeRollback (start : UnitOfWork Key Document) calls := by
  rw [everyState_iff_everyCall, and_iff_right (tracked_start.neverWritten)]
  refine everyCall_iff_of_invariant ?_ ?_ tracked_start calls
  · intro uow call htracked hcommits
    exact tracked_step htracked call hcommits
  · intro uow call htracked
    exact neverWritten_step_iff htracked call

/-- The entity saved in the first transaction, which is rolled back, is written by the commit of
the second, in which nothing was changed. -/
theorem rolled_back_save_written :
    let calls : List (Call ℕ ℕ ℕ) :=
      [.beginTransaction .readCommitted, .repository (.saveAsync (some 7)),
        .rollbackTransactionAsync, .beginTransaction .readCommitted, .commitTransactionAsync]
    let uow := run step start calls
    ¬ EveryState step NeverWritten start calls ∧ uow.rolledBack = [0] ∧
      uow.manager.session.written = [⟨0, .put 7⟩] := by
  intro calls uow
  have hrolledBack : uow.rolledBack = [0] := rfl
  have hwritten : uow.manager.session.written = [⟨0, .put 7⟩] := rfl
  refine ⟨fun hnever ↦ ?_, hrolledBack, hwritten⟩
  have hfinal : NeverWritten uow := hnever calls [] (List.append_nil _).symm
  refine hfinal ⟨0, .put 7⟩ ?_ ?_
  · rw [hwritten]
    exact List.mem_singleton_self _
  · rw [hrolledBack]
    exact List.mem_singleton_self _

end UnitOfWork

end SharpArch.RavenDb
