import SharpArch.NHibernate.SessionRuns

/-!
# Tests against a live database

Each test has a session of its own with a transaction begun before it, which is rolled back after it if
it is still there. A `DatabaseTest` works on the session through repositories and its transaction manager,
as it finds the database, and ends with an exception or without one; so does the disposal after it, which
leaves the session open when the rollback throws.

A test that commits no transaction and writes only inside one (`ISession.Undone`) leaves no trace in the
database. So such tests may be taken out of a suite, or put anywhere in it, and the other tests end as
they did (`suite_filter`); in a suite of such tests alone each ends as it would by itself.
-/

set_option autoImplicit false
set_option relaxedAutoImplicit false

namespace SharpArch.Testing

open Platform.SystemTransactions Domain.PersistenceSupport Foundation.DeferredSession NHibernate

variable {TId Entity : Type} {getId : Entity → TId}

/-- What a test does with its session, when the database holds the given entities, and what the rollback
and the closing of the session throw after it. -/
structure DatabaseTest (getId : Entity → TId) where
  steps : Contents getId → List (SessionStep getId)
  rollbackThrows : Option Exn := none
  closeThrows : Option Exn := none

namespace LiveDatabaseTests

variable [DecidableEq TId] [DecidableEq Entity]

/-- The constructor, and `SetUp`. -/
def setUp (flushesBeforeQueries : Bool) (database : Contents getId) : ISession getId :=
  (TransactionManager.beginTransaction .unspecified
    (ISession.opened flushesBeforeQueries database)).2

omit [DecidableEq TId] [DecidableEq Entity] in
/-- `Dispose`, and `TearDown`: what it throws, and the session it leaves. The session is not closed, and its
transaction stays open, when the rollback throws. -/
def dispose (test : DatabaseTest getId) (session : ISession getId) : Option Exn × ISession getId :=
  if session.transaction.isSome then
    match test.rollbackThrows with
    | some exception => (some exception, session)
    | none => (test.closeThrows, (TransactionManager.rollbackTransactionAsync session).2)
  else (test.closeThrows, session)

/-- What a test and then its disposal throw, and the database they leave. -/
def runTest (flushesBeforeQueries : Bool) (database : Contents getId) (test : DatabaseTest getId) :
    List Exn × Contents getId :=
  let run := (setUp flushesBeforeQueries database).body (test.steps database)
  let disposed := dispose test run.2
  (run.1.toList ++ disposed.1.toList, disposed.2.durable)

/-- The tests of a suite, one after the other, with how each of them ends, and the database they leave. -/
def suite (flushesBeforeQueries : Bool) (database : Contents getId) :
    List (DatabaseTest getId) → List (DatabaseTest getId × List Exn) × Contents getId
  | [] => ([], database)
  | test :: rest =>
    let run := runTest flushesBeforeQueries database test
    let others := suite flushesBeforeQueries run.2 rest
    ((test, run.1) :: others.1, others.2)

/-- Whatever the database holds, the test commits no transaction and writes only inside one. -/
def Undone (flushesBeforeQueries : Bool) (test : DatabaseTest getId) : Prop :=
  ∀ database, (setUp flushesBeforeQueries database).Undone (test.steps database)

variable {flushesBeforeQueries : Bool} {database : Contents getId} {test : DatabaseTest getId}
  {tests : List (DatabaseTest getId)}

omit [DecidableEq TId] [DecidableEq Entity] in
/-- The rollback gives up what is given up without it. -/
theorem durable_dispose (test : DatabaseTest getId) (session : ISession getId) :
    (dispose test session).2.durable = session.durable := by
  unfold dispose
  cases hopen : session.transaction with
  | none => rfl
  | some before =>
    cases test.rollbackThrows with
    | some exception => rfl
    | none =>
      simp only [Option.isSome_some, if_true, TransactionManager.rollbackTransactionAsync, hopen]
      exact (ISession.durable_of_transaction_eq hopen).symm

/-- An undone test leaves the database as it was. -/
theorem runTest_of_undone (hundone : Undone flushesBeforeQueries test) :
    (runTest flushesBeforeQueries database test).2 = database := by
  have hbody := ISession.durable_body_of_undone (hundone database)
  simp only [runTest, durable_dispose, hbody]
  rfl

/-- In every suite, whatever its other tests leave in the database: without tests that are undone, the
others end as they did and leave the same database. -/
theorem suite_filter (flushesBeforeQueries : Bool) (database : Contents getId)
    (tests : List (DatabaseTest getId)) (keeps : DatabaseTest getId → Bool)
    (hundone : ∀ test ∈ tests, keeps test = false → Undone flushesBeforeQueries test) :
    suite flushesBeforeQueries database (tests.filter keeps) =
      ((suite flushesBeforeQueries database tests).1.filter fun ended ↦ keeps ended.1,
        (suite flushesBeforeQueries database tests).2) := by
  induction tests generalizing database with
  | nil => rfl
  | cons test rest ih =>
    obtain ⟨htest, hrest⟩ := List.forall_mem_cons.mp hundone
    cases hkeeps : keeps test with
    | true =>
      rw [List.filter_cons_of_pos hkeeps]
      simp only [suite, ih _ hrest, List.filter_cons_of_pos, hkeeps]
    | false =>
      have hsame : (runTest flushesBeforeQueries database test).2 = database :=
        runTest_of_undone (htest hkeeps)
      rw [List.filter_cons_of_neg (by simp [hkeeps])]
      simp [suite, hsame, hkeeps, ih database hrest]

/-- A test that saves, flushes and throws, as does its rollback, between a test that commits and one that
saves. -/
theorem suite_filter_committing :
    let saves (entity : ℕ) : SessionStep (id : ℕ → ℕ) :=
      { action := .call (.repository (.saveAsync (some entity))) }
    let commits : DatabaseTest (id : ℕ → ℕ) :=
      { steps := fun _ ↦ [saves 1, { action := .call (.manager .commitTransactionAsync) }] }
    let throws : DatabaseTest (id : ℕ → ℕ) :=
      { steps := fun _ ↦ [saves 2, { action := .call .flushChangesAsync },
          { action := .throws (.invalidOperation "failed") }]
        rollbackThrows := some .disposeFailed }
    let tests : List (DatabaseTest (id : ℕ → ℕ)) := [commits, throws, { steps := fun _ ↦ [saves 3] }]
    let keeps : DatabaseTest (id : ℕ → ℕ) → Bool := fun test ↦
      (test.steps (Contents.empty id)).length == 2
    suite true (Contents.empty id) (tests.filter keeps) =
      ((suite true (Contents.empty id) tests).1.filter fun ended ↦ keeps ended.1,
        (suite true (Contents.empty id) tests).2) ∧
      (suite true (Contents.empty id) tests).1.map Prod.snd =
        [[], [.invalidOperation "failed", .disposeFailed], []] ∧
      (suite true (Contents.empty id) tests).2.find 1 = some 1 ∧
      (suite true (Contents.empty id) tests).2.find 2 = none := by
  intro saves commits throws tests keeps
  refine ⟨suite_filter true (Contents.empty id) tests keeps ?_, by decide, by decide, by decide⟩
  have hcalls : ∀ step ∈ throws.steps (Contents.empty id) ++ [saves 3],
      ¬ step.action.EndsTransaction := by
    simp [throws, saves, SessionAction.EndsTransaction, SessionAction.IsCommit]
  obtain ⟨hthrows, hsaves⟩ := List.forall_mem_append.mp hcalls
  simp only [tests, List.forall_mem_cons]
  refine ⟨fun hcommits ↦ absurd hcommits (by decide), fun _ database ↦ ?_, fun _ database ↦ ?_,
    fun _ h ↦ absurd h List.not_mem_nil⟩
  · exact ISession.undone_of_open rfl hthrows
  · exact ISession.undone_of_open rfl hsaves

/-- In a suite of undone tests each ends as it does alone, and the database is as before. -/
theorem suite_of_undone (hundone : ∀ test ∈ tests, Undone flushesBeforeQueries test) :
    suite flushesBeforeQueries database tests =
      (tests.map fun test ↦ (test, (runTest flushesBeforeQueries database test).1), database) := by
  induction tests with
  | nil => rfl
  | cons test rest ih =>
    obtain ⟨htest, hrest⟩ := List.forall_mem_cons.mp hundone
    rw [suite, runTest_of_undone htest, ih hrest, List.map_cons]

end LiveDatabaseTests

end SharpArch.Testing
