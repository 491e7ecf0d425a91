import SharpArch.NHibernate.NHibernateRepository

/-!
# What an NHibernate session leaves in the database

The writes a session executes while a transaction is open are the database's to keep only once the
transaction is committed. `durable` is what it keeps when the session is closed as it is.

A `SessionStep` is one step of code that works on a session through a repository and its transaction
manager: a call, a call that the session throws in, which may leave the session itself anyhow but not
the transaction, or an exception of the code. While a transaction is open nothing but a commit is
durable (`durable_perform_of_open`), so that code which writes only inside transactions and commits none
of them leaves the database as it was (`durable_body_of_undone`).
-/

set_option autoImplicit false
set_option relaxedAutoImplicit false

namespace SharpArch.NHibernate

open Domain.PersistenceSupport Foundation.DeferredSession Platform.SystemTransactions

variable {TId Entity : Type} {getId : Entity → TId}

/-- What the database holds when the session is closed: an open transaction is rolled back. -/
def ISession.durable (session : ISession getId) : Contents getId :=
  session.transaction.getD session.stored

/-- A session opened on a database. -/
def ISession.opened (flushesBeforeQueries : Bool) (database : Contents getId) : ISession getId where
  stored := database
  pending := []
  tracked _ := false
  flushesBeforeQueries := flushesBeforeQueries
  transaction := none

/-- A call on a repository, on the session or on the transaction manager. -/
inductive SessionCall (TId Entity : Type)
  | repository (call : RepositoryCall TId Entity)
  | flushChangesAsync
  | manager (call : ManagerCall)

/-- What code does with a session. -/
inductive SessionAction (getId : Entity → TId)
  | call (call : SessionCall TId Entity)
  | fails (exception : Exn) (after : Foundation.DeferredSession.Session getId)
  | throws (exception : Exn)

/-- A step of code, and whether it goes on when the step throws. -/
structure SessionStep (getId : Entity → TId) where
  action : SessionAction getId
  caught : Bool := false

namespace ISession

variable [DecidableEq TId] [DecidableEq Entity]

/-- Whether a call returned or threw, and the session after it. -/
def answer (session : ISession getId) : SessionCall TId Entity → Except Exn Unit × ISession getId
  | .repository call => NHibernateRepository.iRepository.answer session call
  | .flushChangesAsync => (.ok (), session.flushAsync)
  | .manager (.beginTransaction isolationLevel) =>
    TransactionManager.beginTransaction isolationLevel session
  | .manager .commitTransactionAsync => TransactionManager.commitTransactionAsync session
  | .manager .rollbackTransactionAsync => TransactionManager.rollbackTransactionAsync session

/-- Whether an action returned or threw, and the session after it. -/
def perform (session : ISession getId) : SessionAction getId → Except Exn Unit × ISession getId
  | .call call => session.answer call
  | .fails exception after => (.error exception, { session with toSession := after })
  | .throws exception => (.error exception, session)

/-- The exception that code ends with, and the session it leaves. -/
def body (session : ISession getId) : List (SessionStep getId) → Option Exn × ISession getId
  | [] => (none, session)
  | step :: rest =>
    match session.perform step.action with
    | (.ok _, performed) => performed.body rest
    | (.error exception, performed) =>
      if step.caught then performed.body rest else (some exception, performed)

end ISession

/-- The action is a commit. -/
def SessionAction.IsCommit (action : SessionAction getId) : Prop :=
  action = .call (.manager .commitTransactionAsync)

/-- The action may execute writes. -/
def SessionAction.Flushes (session : ISession getId) : SessionAction getId → Prop
  | .call (.repository (.query _)) => session.flushesBeforeQueries = true
  | .call .flushChangesAsync => True
  | .fails _ _ => True
  | _ => False

/-- The action ends the transaction that is open. -/
def SessionAction.EndsTransaction (action : SessionAction getId) : Prop :=
  action.IsCommit ∨ action = .call (.manager .rollbackTransactionAsync)

namespace ISession

variable [DecidableEq TId] [DecidableEq Entity] {session : ISession getId}

/-- A repository call neither begins nor ends a transaction, and only a query executes writes. -/
theorem step_cases (session : ISession getId) (call : RepositoryCall TId Entity) :
    (∃ finds, call = .query finds) ∨
      (NHibernateRepository.iRepository.step session call).transaction = session.transaction ∧
        (NHibernateRepository.iRepository.step session call).stored = session.stored := by
  cases call with
  | query finds => exact Or.inl ⟨finds, rfl⟩
  | getAsync id => exact Or.inr ⟨rfl, rfl⟩
  | saveAsync entity => cases entity <;> exact Or.inr ⟨rfl, rfl⟩
  | saveOrUpdateAsync entity => cases entity <;> exact Or.inr ⟨rfl, rfl⟩
  | evictAsync entity => exact Or.inr ⟨rfl, rfl⟩
  | deleteAsync entity => cases entity <;> exact Or.inr ⟨rfl, rfl⟩
  | deleteByIdAsync id =>
    have hstep : NHibernateRepository.iRepository.step session (.deleteByIdAsync id) =
        (NHibernateRepository.deleteByIdAsync id session).2 := rfl
    rw [hstep]
    cases hfound : session.get id with
    | none =>
      rw [NHibernateRepository.deleteByIdAsync_of_none hfound]
      exact Or.inr ⟨rfl, rfl⟩
    | some found =>
      rw [NHibernateRepository.deleteByIdAsync_of_some hfound]
      exact Or.inr ⟨rfl, rfl⟩

theorem transaction_query (finds : Entity → Bool) :
    (session.query finds).transaction = session.transaction := by
  unfold query
  split_ifs <;> rfl

theorem stored_query (finds : Entity → Bool) (hmanual : session.flushesBeforeQueries = false) :
    (session.query finds).stored = session.stored := by
  simp only [query, hmanual, Bool.false_eq_true, if_false]
  rfl

omit [DecidableEq TId] [DecidableEq Entity] in
theorem durable_of_transaction_eq {after : ISession getId} {before : Contents getId}
    (hopen : after.transaction = some before) : after.durable = before := by
  rw [durable, hopen, Option.getD_some]

/-- Only a commit or a rollback ends a transaction. -/
theorem transaction_perform {before : Contents getId} (hopen : session.transaction = some before)
    {action : SessionAction getId} (hends : ¬ action.EndsTransaction) :
    (session.perform action).2.transaction = some before := by
  cases action with
  | throws exception => exact hopen
  | fails exception after => exact hopen
  | call call =>
    cases call with
    | flushChangesAsync => exact hopen
    | repository call =>
      simp only [perform, answer, IRepository.answer_snd]
      rcases step_cases session call with ⟨finds, rfl⟩ | ⟨hsame, -⟩
      · exact (transaction_query finds).trans hopen
      · exact hsame.trans hopen
    | manager call =>
      cases call with
      | beginTransaction isolationLevel =>
        simp only [perform, answer, TransactionManager.beginTransaction, hopen, Option.getD_some]
      | commitTransactionAsync => exact absurd (Or.inl rfl) hends
      | rollbackTransactionAsync => exact absurd (Or.inr rfl) hends

/-- While a transaction is open, only a commit is durable. -/
theorem durable_perform_of_open {before : Contents getId} (hopen : session.transaction = some before)
    {action : SessionAction getId} (hcommit : ¬ action.IsCommit) :
    (session.perform action).2.durable = before := by
  by_cases hends : action.EndsTransaction
  · rcases hends with hcommits | rfl
    · exact absurd hcommits hcommit
    · simp only [perform, answer, TransactionManager.rollbackTransactionAsync, hopen]
      rfl
  · exact durable_of_transaction_eq (transaction_perform hopen hends)

/-- While no transaction is open, only what executes writes is durable. -/
theorem durable_perform_of_closed (hclosed : session.transaction = none)
    {action : SessionAction getId} (hflushes : ¬ action.Flushes session) :
    (session.perform action).2.durable = session.durable := by
  have hdurable : ∀ after : ISession getId, after.transaction = session.transaction →
      after.stored = session.stored → after.durable = session.durable := by
    intro after htransaction hstored
    rw [durable, durable, htransaction, hstored]
  cases action with
  | throws exception => rfl
  | fails exception after => exact absurd trivial hflushes
  | call call =>
    cases call with
    | flushChangesAsync => exact absurd trivial hflushes
    | repository call =>
      simp only [perform, answer, IRepository.answer_snd]
      rcases step_cases session call with ⟨finds, rfl⟩ | ⟨htransaction, hstored⟩
      · refine hdurable _ (transaction_query finds) (stored_query finds ?_)
        simpa [SessionAction.Flushes] using hflushes
      · exact hdurable _ htransaction hstored
    | manager call =>
      cases call with
      | beginTransaction isolationLevel =>
        simp only [perform, answer, TransactionManager.beginTransaction, durable, hclosed,
          Option.getD_none, Option.getD_some]
      | commitTransactionAsync =>
        simp only [perform, answer, TransactionManager.commitTransactionAsync, hclosed]
      | rollbackTransactionAsync =>
        simp only [perform, answer, TransactionManager.rollbackTransactionAsync, hclosed]

/-- Code that ends no transaction leaves the one that is open. -/
theorem transaction_body {before : Contents getId} (hopen : session.transaction = some before)
    {steps : List (SessionStep getId)} (hends : ∀ step ∈ steps, ¬ step.action.EndsTransaction) :
    (session.body steps).2.transaction = some before := by
  induction steps generalizing session with
  | nil => exact hopen
  | cons step rest ih =>
    obtain ⟨hstep, hrest⟩ := List.forall_mem_cons.mp hends
    have hperformed := transaction_perform hopen hstep
    rcases hperform : session.perform step.action with ⟨exception | _, performed⟩ <;>
      rw [hperform] at hperformed <;> simp only [body, hperform]
    · split_ifs
      · exact ih hperformed hrest
      · exact hperformed
    · exact ih hperformed hrest

/-- Code that commits no transaction and writes only inside one. -/
def Undone (session : ISession getId) : List (SessionStep getId) → Prop
  | [] => True
  | step :: rest =>
    (session.transaction ≠ none → ¬ step.action.IsCommit) ∧
      (session.transaction = none → ¬ step.action.Flushes session) ∧
      ((session.perform step.action).1 = .ok () ∨ step.caught = true →
        (session.perform step.action).2.Undone rest)

/-- It leaves the database as it was. -/
theorem durable_body_of_undone {steps : List (SessionStep getId)} (hundone : session.Undone steps) :
    (session.body steps).2.durable = session.durable := by
  induction steps generalizing session with
  | nil => rfl
  | cons step rest ih =>
    obtain ⟨hcommit, hflushes, hrest⟩ := hundone
    have hperformed : (session.perform step.action).2.durable = session.durable := by
      cases htransaction : session.transaction with
      | none => exact durable_perform_of_closed htransaction (hflushes htransaction)
      | some before =>
        have hnot := hcommit (by rw [htransaction]; exact Option.some_ne_none before)
        rw [durable_perform_of_open htransaction hnot, durable_of_transaction_eq htransaction]
    rcases hperform : session.perform step.action with ⟨exception | _, performed⟩ <;>
      rw [hperform] at hperformed hrest <;> simp only [body, hperform]
    · split_ifs with hcaught
      · exact (ih (hrest (Or.inr hcaught))).trans hperformed
      · exact hperformed
    · exact (ih (hrest (Or.inl rfl))).trans hperformed

/-- Code that ends no transaction, run with one open, is undone. -/
theorem undone_of_open {before : Contents getId} (hopen : session.transaction = some before)
    {steps : List (SessionStep getId)} (hends : ∀ step ∈ steps, ¬ step.action.EndsTransaction) :
    session.Undone steps := by
  induction steps generalizing session with
  | nil => trivial
  | cons step rest ih =>
    obtain ⟨hstep, hrest⟩ := List.forall_mem_cons.mp hends
    refine ⟨fun _ hcommit ↦ hstep (Or.inl hcommit), fun hclosed ↦ ?_, fun _ ↦ ?_⟩
    · exact absurd (hopen.symm.trans hclosed) (Option.some_ne_none before)
    · exact ih (transaction_perform hopen hstep) hrest

end ISession

end SharpArch.NHibernate
