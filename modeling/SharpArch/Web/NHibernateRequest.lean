import SharpArch.NHibernate.SessionRuns
import SharpArch.Web.AutoTransactionHandler

/-!
# Requests over the NHibernate manager

An `NHibernateRequest` is a request to an action with an effective attribute, run by
`onActionExecutionAsync` over the NHibernate manager. Its action works on the session and may use the
manager itself; `BeginTransaction`, the commit and the rollback of the handler may throw. The container
closes the session when the request is over.

What the request leaves in the database is what its action has made durable itself, or, when the handler
commits, everything the session holds or has still to write (`durable_handled`). An action that leaves
its transaction to the handler is all or nothing, although the session executes writes before the
commit. So a request that is not committed could as well not have been made: erasing all of them from a
history leaves the others and the database as they are (`servedAll_committed`).
-/

set_option autoImplicit false
set_option relaxedAutoImplicit false

namespace SharpArch.Web

open Platform.SystemTransactions Domain.PersistenceSupport Foundation.DeferredSession NHibernate
open AutoTransactionHandler

variable {TId Entity : Type} {getId : Entity → TId}

/-- How a commit of an open transaction ends. One that throws may have executed writes of the session;
the transaction stays open. -/
inductive CommitEnding (getId : Entity → TId)
  | returns
  | throws (exception : Exn) (after : Foundation.DeferredSession.Session getId)

/-- A request to an action: its effective attribute, its action, the validity of the model when the
action is done, and how the calls the handler makes on the manager end. -/
structure NHibernateRequest (getId : Entity → TId) where
  settings : TransactionAttribute
  beginThrows : Option Exn
  steps : List (SessionStep getId)
  modelStateIsValid : Bool
  commit : ISession getId → CommitEnding getId
  rollbackThrows : Option Exn

namespace NHibernateRequest

variable [DecidableEq TId] [DecidableEq Entity]

/-- The manager the container holds for the request. -/
def manager (request : NHibernateRequest getId) : ITransactionManager (ISession getId) where
  beginTransaction isolationLevel session :=
    match request.beginThrows with
    | some exception => (.error exception, session)
    | none => TransactionManager.beginTransaction isolationLevel session
  commitTransactionAsync session :=
    match session.transaction, request.commit session with
    | some _, .throws exception after => (.error exception, { session with toSession := after })
    | _, _ => TransactionManager.commitTransactionAsync session
  rollbackTransactionAsync session :=
    match session.transaction, request.rollbackThrows with
    | some _, some exception => (.error exception, session)
    | _, _ => TransactionManager.rollbackTransactionAsync session
  isActive := some fun session ↦ session.transaction.isSome

/-- The rest of the pipeline is the action. -/
def next (request : NHibernateRequest getId) (begun : ISession getId) :
    ActionExecutedContext × ISession getId :=
  ({ exception := (begun.body request.steps).1
     modelStateIsValid := request.modelStateIsValid },
    (begun.body request.steps).2)

/-- The session when the handler is done. -/
def handled (request : NHibernateRequest getId) (session : ISession getId) : ISession getId :=
  (onActionExecutionAsync (some request.settings) (some request.manager) request.next session).2

/-- The session in which the action starts. -/
def begun (request : NHibernateRequest getId) (session : ISession getId) : ISession getId :=
  (TransactionManager.beginTransaction request.settings.isolationLevel session).2

/-- The session the action leaves, which has not started when `BeginTransaction` has thrown. -/
def left (request : NHibernateRequest getId) (session : ISession getId) : ISession getId :=
  if request.beginThrows.isSome then session else (request.next (request.begun session)).2

/-- How the request ends: an exception of the handler, or else one of the action, which the framework
throws again. -/
def outcome (request : NHibernateRequest getId) (session : ISession getId) : Except Exn Unit :=
  match (onActionExecutionAsync (some request.settings) (some request.manager) request.next session).1 with
  | .error exception => .error exception
  | .ok _ =>
    match (request.next (request.begun session)).1.exception with
    | some exception => .error exception
    | none => .ok ()

/-- The handler commits a transaction, and the commit returns. -/
def commits (request : NHibernateRequest getId) (session : ISession getId) : Bool :=
  request.beginThrows.isNone && (request.left session).transaction.isSome &&
    !rollsBack request.settings (request.next (request.begun session)).1 &&
      match request.commit (request.left session) with
      | .returns => true
      | .throws _ _ => false

/-! ### One request -/

variable {request : NHibernateRequest getId} {session : ISession getId}

/-- The commit of an open transaction makes the session durable as far as it returns. -/
theorem durable_commitTransactionAsync {before : Contents getId}
    (hopen : session.transaction = some before) :
    (request.manager.commitTransactionAsync session).2.durable =
      match request.commit session with
      | .returns => session.flushAsync.stored
      | .throws _ _ => before := by
  simp only [manager, hopen]
  cases request.commit session with
  | returns =>
    simp only [TransactionManager.commitTransactionAsync, hopen]
    rfl
  | throws exception after =>
    exact ISession.durable_of_transaction_eq rfl

/-- A rollback makes nothing durable, whether it returns or throws. -/
theorem durable_rollbackTransactionAsync {before : Contents getId}
    (hopen : session.transaction = some before) :
    (request.manager.rollbackTransactionAsync session).2.durable = before := by
  simp only [manager, hopen]
  cases request.rollbackThrows with
  | none =>
    simp only [TransactionManager.rollbackTransactionAsync, hopen]
    rfl
  | some exception => exact ISession.durable_of_transaction_eq hopen

/-- For every request, every action and every way its calls end: when the session is closed the database
holds what the action has made durable, unless the handler has committed, and then all of what the
session the action left holds and has still to write. -/
theorem durable_handled (request : NHibernateRequest getId) (session : ISession getId) :
    (request.handled session).durable =
      if request.commits session then (request.left session).flushAsync.stored
      else (request.left session).durable := by
  cases hthrows : request.beginThrows with
  | some exception =>
    have hbegin : request.manager.beginTransaction request.settings.isolationLevel session =
        (.error exception, session) := by
      simp only [manager, hthrows]
    rw [handled, onActionExecutionAsync_of_throws hbegin]
    simp [commits, left, hthrows]
  | none =>
    have hbegin : request.manager.beginTransaction request.settings.isolationLevel session =
        (.ok (), request.begun session) := by
      simp only [manager, hthrows]
      rfl
    have hleft : (request.next (request.begun session)).2 = request.left session := by
      simp [left, hthrows]
    have hcommits : request.commits session =
        ((request.left session).transaction.isSome &&
          !rollsBack request.settings (request.next (request.begun session)).1 &&
            match request.commit (request.left session) with
            | .returns => true
            | .throws _ _ => false) := by
      simp [commits, hthrows]
    rw [handled, onActionExecutionAsync_of_isActive hbegin rfl, hleft, hcommits, endTransaction]
    cases hopen : (request.left session).transaction with
    | none => simp
    | some before =>
      cases rollsBack request.settings (request.next (request.begun session)).1 with
      | true =>
        simp only [Option.isSome_some, if_true, Bool.not_true, Bool.and_false, Bool.false_and]
        rw [durable_rollbackTransactionAsync hopen]
        exact (ISession.durable_of_transaction_eq hopen).symm
      | false =>
        simp only [Option.isSome_some, if_true, Bool.false_eq_true, if_false, Bool.not_false,
          Bool.and_true, Bool.true_and]
        rw [durable_commitTransactionAsync hopen, ISession.durable_of_transaction_eq hopen]
        cases request.commit (request.left session) <;> rfl

/-- An action that leaves its transaction to the handler makes nothing durable itself. -/
theorem durable_left (hends : ∀ step ∈ request.steps, ¬ step.action.EndsTransaction) :
    (request.left session).durable = session.durable := by
  unfold left
  split_ifs
  · rfl
  · have hopen : (request.begun session).transaction =
        some (session.transaction.getD session.stored) := rfl
    exact ISession.durable_of_transaction_eq (ISession.transaction_body hopen hends)

/-- The validity of the model does not make the handler roll back. -/
def acceptsModel (request : NHibernateRequest getId) : Bool :=
  !(request.settings.rollbackOnModelValidationError && request.modelStateIsValid == false)

/-- Of a request whose action leaves its transaction to the handler: it is committed exactly when it ends
without an exception and its model is accepted. -/
theorem commits_iff (hends : ∀ step ∈ request.steps, ¬ step.action.EndsTransaction) :
    request.commits session = true ↔
      request.outcome session = .ok () ∧ request.acceptsModel = true := by
  cases hthrows : request.beginThrows with
  | some exception =>
    have hbegin : request.manager.beginTransaction request.settings.isolationLevel session =
        (.error exception, session) := by
      simp only [manager, hthrows]
    simp [outcome, onActionExecutionAsync_of_throws hbegin, commits, hthrows]
  | none =>
    have hbegin : request.manager.beginTransaction request.settings.isolationLevel session =
        (.ok (), request.begun session) := by
      simp only [manager, hthrows]
      rfl
    have hleft : request.left session = (request.next (request.begun session)).2 := by
      simp [left, hthrows]
    have hbegun : (request.begun session).transaction =
        some (session.transaction.getD session.stored) := rfl
    have hopen : (request.next (request.begun session)).2.transaction =
        some (session.transaction.getD session.stored) := ISession.transaction_body hbegun hends
    have hrolls : rollsBack request.settings (request.next (request.begun session)).1 =
        ((request.next (request.begun session)).1.exception.isSome || !request.acceptsModel) := by
      simp [rollsBack, next, acceptsModel]
    have hhandled : onActionExecutionAsync (some request.settings) (some request.manager) request.next
        session = if (request.next (request.begun session)).2.transaction.isSome then
          endTransaction request.settings request.manager (request.next (request.begun session)).1
            (request.next (request.begun session)).2
        else (.ok (), (request.next (request.begun session)).2) :=
      onActionExecutionAsync_of_isActive hbegin rfl
    simp only [outcome, hhandled, commits, hleft, hthrows, endTransaction, hrolls, hopen]
    cases hthrown : (request.next (request.begun session)).1.exception with
    | some exception =>
      simp only [Option.isSome_some, Bool.true_or, if_true, manager, hopen]
      cases request.rollbackThrows <;> simp [TransactionManager.rollbackTransactionAsync, hopen]
    | none =>
      cases request.acceptsModel with
      | false => simp
      | true =>
        simp only [Option.isSome_some, Option.isSome_none, Bool.not_true, Bool.or_self,
          Bool.false_eq_true, if_false, if_true, manager, hopen]
        cases request.commit (request.next (request.begun session)).2 <;>
          simp [TransactionManager.commitTransactionAsync, hopen]

/-- Of a request with a valid model whose action leaves its transaction to the handler: it ends without an
exception exactly when it is committed. -/
theorem outcome_eq_ok_iff (hends : ∀ step ∈ request.steps, ¬ step.action.EndsTransaction)
    (hmodel : request.modelStateIsValid = true) :
    request.outcome session = .ok () ↔ request.commits session = true := by
  have haccepts : request.acceptsModel = true := by simp [acceptsModel, hmodel]
  simp [commits_iff hends, haccepts]

/-- For every request whose action leaves its transaction to the handler, however its calls end: when the
session is closed the database holds all of what the session its action left holds and has still to write
if the request ends without an exception and its model is accepted, and else what it held before. -/
theorem durable_of_outcome (request : NHibernateRequest getId) (session : ISession getId)
    (hends : ∀ step ∈ request.steps, ¬ step.action.EndsTransaction) :
    (request.handled session).durable =
      match request.outcome session, request.acceptsModel with
      | .ok _, true => (request.left session).flushAsync.stored
      | _, _ => session.durable := by
  have hiff : request.commits session = true ↔
      request.outcome session = .ok () ∧ request.acceptsModel = true := commits_iff hends
  rw [durable_handled]
  by_cases hcommits : request.commits session = true
  · obtain ⟨houtcome, haccepts⟩ := hiff.mp hcommits
    rw [if_pos hcommits, houtcome, haccepts]
  · rw [if_neg hcommits, durable_left hends]
    cases houtcome : request.outcome session with
    | error exception => rfl
    | ok returned =>
      cases haccepts : request.acceptsModel with
      | false => rfl
      | true => exact absurd (hiff.mpr ⟨houtcome, haccepts⟩) hcommits

/-- An action that saves an entity, flushes it and leaves an invalid model. -/
theorem durable_of_outcome_invalid :
    let request : NHibernateRequest (id : ℕ → ℕ) :=
      { settings := {}, beginThrows := none
        steps := [{ action := .call (.repository (.saveAsync (some 1))) },
          { action := .call .flushChangesAsync }]
        modelStateIsValid := false, commit := fun _ ↦ .returns, rollbackThrows := none }
    let session := ISession.opened true (Contents.empty id)
    (request.handled session).durable = Contents.empty id ∧
      request.outcome session = .ok () ∧ (request.left session).stored.find 1 = some 1 := by
  intro request session
  refine ⟨(durable_of_outcome request session ?_).trans ?_, by decide, by decide⟩
  · simp [request, SessionAction.EndsTransaction, SessionAction.IsCommit]
  · cases request.outcome session <;> rfl

/-! ### One request after the other -/

/-- What a request that arrives at a database leaves there, over a session opened for it. -/
def after (flushesBeforeQueries : Bool) (request : NHibernateRequest getId)
    (database : Contents getId) : Contents getId :=
  (request.handled (ISession.opened flushesBeforeQueries database)).durable

/-- The database after requests, one after the other. What a request does depends on what the database
holds when it arrives. -/
def servedAll (flushesBeforeQueries : Bool) (database : Contents getId)
    (requests : List (Contents getId → NHibernateRequest getId)) : Contents getId :=
  requests.foldl (fun held request ↦ (request held).after flushesBeforeQueries held) database

/-- The requests of a history that are committed. -/
def committed (flushesBeforeQueries : Bool) (database : Contents getId) :
    List (Contents getId → NHibernateRequest getId) → List (Contents getId → NHibernateRequest getId)
  | [] => []
  | request :: rest =>
    let others := committed flushesBeforeQueries
      ((request database).after flushesBeforeQueries database) rest
    if (request database).commits (ISession.opened flushesBeforeQueries database)
    then request :: others else others

/-- Every request of a history is committed, and the database takes all of what the session its action
has left holds and has still to write. -/
def TakenWhole (flushesBeforeQueries : Bool) (database final : Contents getId) :
    List (Contents getId → NHibernateRequest getId) → Prop
  | [] => final = database
  | request :: rest =>
    let session := ISession.opened flushesBeforeQueries database
    (request database).commits session = true ∧
      TakenWhole flushesBeforeQueries ((request database).left session).flushAsync.stored final rest

variable {flushesBeforeQueries : Bool} {database final : Contents getId}
  {requests : List (Contents getId → NHibernateRequest getId)}

theorem after_of_commits
    (hcommits : request.commits (ISession.opened flushesBeforeQueries database) = true) :
    request.after flushesBeforeQueries database =
      (request.left (ISession.opened flushesBeforeQueries database)).flushAsync.stored := by
  rw [after, durable_handled, if_pos hcommits]

/-- A request that is not committed leaves the database as it was. -/
theorem after_of_not_commits (hends : ∀ step ∈ request.steps, ¬ step.action.EndsTransaction)
    (hcommits : request.commits (ISession.opened flushesBeforeQueries database) ≠ true) :
    request.after flushesBeforeQueries database = database := by
  rw [after, durable_handled, if_neg hcommits, durable_left hends]
  rfl

/-- A history whose requests are all committed is served as it was taken. -/
theorem TakenWhole.servedAll_eq (htaken : TakenWhole flushesBeforeQueries database final requests) :
    servedAll flushesBeforeQueries database requests = final := by
  induction requests generalizing database with
  | nil => exact Eq.symm htaken
  | cons request rest ih =>
    obtain ⟨hcommits, hrest⟩ := htaken
    rw [servedAll, List.foldl_cons, after_of_commits hcommits]
    exact ih hrest

/-- For every history of requests whose actions leave their transactions to the handler, however its
requests fail: the database is the one after the committed requests alone, each of them taken whole. -/
theorem servedAll_committed (flushesBeforeQueries : Bool) (database : Contents getId)
    (requests : List (Contents getId → NHibernateRequest getId))
    (hends : ∀ request ∈ requests, ∀ held, ∀ step ∈ (request held).steps,
      ¬ step.action.EndsTransaction) :
    let kept := committed flushesBeforeQueries database requests
    kept.Sublist requests ∧
      TakenWhole flushesBeforeQueries database
        (servedAll flushesBeforeQueries database requests) kept ∧
      servedAll flushesBeforeQueries database kept =
        servedAll flushesBeforeQueries database requests := by
  intro kept
  suffices hkept : kept.Sublist requests ∧ TakenWhole flushesBeforeQueries database
      (servedAll flushesBeforeQueries database requests) kept from
    ⟨hkept.1, hkept.2, hkept.2.servedAll_eq⟩
  induction requests generalizing database with
  | nil => exact ⟨List.Sublist.slnil, rfl⟩
  | cons request rest ih =>
    obtain ⟨hrequest, hrest⟩ := List.forall_mem_cons.mp hends
    obtain ⟨hsublist, htaken⟩ :=
      ih ((request database).after flushesBeforeQueries database) hrest
    by_cases hcommits :
        (request database).commits (ISession.opened flushesBeforeQueries database) = true
    · have hkept : kept = request :: committed flushesBeforeQueries
          ((request database).after flushesBeforeQueries database) rest := if_pos hcommits
      rw [hkept]
      refine ⟨hsublist.cons_cons request, hcommits, ?_⟩
      rw [← after_of_commits hcommits]
      exact htaken
    · have hkept : kept = committed flushesBeforeQueries
          ((request database).after flushesBeforeQueries database) rest := if_neg hcommits
      have hsame := after_of_not_commits (hrequest database) hcommits
      rw [hkept]
      refine ⟨hsublist.cons request, ?_⟩
      rw [hsame] at htaken ⊢
      rw [servedAll, List.foldl_cons, hsame]
      exact htaken

/-- A request that saves, and one that saves, flushes and then throws. -/
theorem servedAll_committed_pair :
    let saves (entity : ℕ) : SessionStep (id : ℕ → ℕ) :=
      { action := .call (.repository (.saveAsync (some entity))) }
    let returning : NHibernateRequest (id : ℕ → ℕ) :=
      { settings := {}, beginThrows := none, steps := [saves 1], modelStateIsValid := true
        commit := fun _ ↦ .returns, rollbackThrows := none }
    let throwing : NHibernateRequest (id : ℕ → ℕ) :=
      { returning with
        steps := [saves 2, { action := .call .flushChangesAsync },
          { action := .throws (.invalidOperation "failed") }] }
    let requests : List (Contents id → NHibernateRequest (id : ℕ → ℕ)) :=
      [fun _ ↦ returning, fun _ ↦ throwing]
    let served := servedAll true (Contents.empty id) requests
    servedAll true (Contents.empty id) (committed true (Contents.empty id) requests) = served ∧
      served.find 1 = some 1 ∧ served.find 2 = none := by
  intro saves returning throwing requests served
  refine ⟨(servedAll_committed true (Contents.empty id) requests ?_).2.2, by decide, by decide⟩
  intro request hrequest held step hstep
  have hcalls : ∀ step ∈ returning.steps ++ throwing.steps, ¬ step.action.EndsTransaction := by
    simp [returning, throwing, saves, SessionAction.EndsTransaction, SessionAction.IsCommit]
  refine hcalls step ?_
  rcases List.mem_pair.mp hrequest with rfl | rfl
  · exact List.mem_append_left _ hstep
  · exact List.mem_append_right _ hstep

end NHibernateRequest

end SharpArch.Web
