import SharpArch.RavenDb.RequestBody
import SharpArch.Web.AutoTransactionHandler

/-!
# A request over the RavenDB manager is all or nothing

An `ActionRequest` is a request to an action whose body works on the session through repositories,
run by `onActionExecutionAsync` over the RavenDB transaction manager, with no other filter between
the two. The body may stop with an exception at any step, the model may be invalid, and the calls
of the handler may throw.

The session after the request is the one the body left, saved or not (`session_handled_of_begun`),
so the database either is as before or has taken everything the body left pending
(`handled_allOrNothing`).
-/

set_option autoImplicit false
set_option relaxedAutoImplicit false

namespace SharpArch.Web

open Platform.SystemTransactions Domain.PersistenceSupport RavenDb AutoTransactionHandler

/-- A request to an action: its effective attribute, its body, the validity of the model when the
body is done, and how the calls the handler makes on the manager end. -/
structure ActionRequest (TId Key Document : Type) where
  settings : TransactionAttribute
  steps : List (BodyStep TId Key Document)
  modelStateIsValid : Bool
  commit : TransactionManager Key Document → CommitOutcome
  dispose : TransactionManager Key Document → DisposeOutcome

namespace ActionRequest

variable {TId Key Document Database : Type}

/-- The manager the container holds for the request. -/
def manager (request : ActionRequest TId Key Document) :
    ITransactionManager (TransactionManager Key Document) where
  beginTransaction := fun isolationLevel state ↦
    ((state.beginTransaction isolationLevel).1.map fun _ ↦ (),
      (state.beginTransaction isolationLevel).2)
  commitTransactionAsync := fun state ↦ state.commitTransactionAsync (request.commit state)
  rollbackTransactionAsync := fun state ↦ state.rollbackTransactionAsync (request.dispose state)
  isActive := some TransactionManager.isActive

variable [DecidableEq Document]

/-- The rest of the pipeline is the body of the action. -/
def next (request : ActionRequest TId Key Document) (begun : TransactionManager Key Document) :
    ActionExecutedContext × TransactionManager Key Document :=
  ({ exception := (begun.session.body request.steps).1
     modelStateIsValid := request.modelStateIsValid },
    { begun with session := (begun.session.body request.steps).2 })

/-- The manager, over its session, when the handler is done. -/
def handled (request : ActionRequest TId Key Document) (state : TransactionManager Key Document) :
    TransactionManager Key Document :=
  (onActionExecutionAsync (some request.settings) (some request.manager) request.next state).2

/-- The exception the body ends with. -/
def thrown (request : ActionRequest TId Key Document) (state : TransactionManager Key Document) :
    Option Exn :=
  (state.session.body request.steps).1

/-- The session the body leaves. -/
def left (request : ActionRequest TId Key Document) (state : TransactionManager Key Document) :
    DocumentSession Key Document :=
  (state.session.body request.steps).2

/-- `SaveChangesAsync` throws in the commit of the handler. -/
def saveChangesFails (request : ActionRequest TId Key Document)
    (state : TransactionManager Key Document) : Bool :=
  (request.commit
    (request.next (state.beginTransaction request.settings.isolationLevel).2).2
    ).saveChangesThrows

section Handled

variable {request : ActionRequest TId Key Document} {state : TransactionManager Key Document}

/-- After a `BeginTransaction` that throws the session is as it was. -/
theorem session_handled_of_throws {exception : Exn}
    (hbegin : (state.beginTransaction request.settings.isolationLevel).1 = .error exception) :
    (request.handled state).session = state.session := by
  have hthrows : request.manager.beginTransaction request.settings.isolationLevel state =
      (.error exception, (state.beginTransaction request.settings.isolationLevel).2) := by
    simp only [manager, hbegin, Except.map]
  rw [handled, onActionExecutionAsync_of_throws hthrows]
  exact TransactionManager.beginTransaction_session _

omit [DecidableEq Document] in
/-- Once `BeginTransaction` has returned, the field holds a scope. -/
theorem isActive_of_begun {handle : ℕ}
    (hbegin : (state.beginTransaction request.settings.isolationLevel).1 = .ok handle) :
    (state.beginTransaction request.settings.isolationLevel).2.isActive = true := by
  unfold TransactionManager.beginTransaction at hbegin ⊢
  cases hcurrent : state.transaction with
  | some current => simp [TransactionManager.isActive, hcurrent]
  | none =>
    rw [hcurrent] at hbegin
    cases hlevel : mapIsolationLevel request.settings.isolationLevel with
    | error exception => simp [hlevel] at hbegin
    | ok level => rfl

/-- Once a transaction is begun, the session after the request is the one the body left, which is
saved exactly when the outcome asks for a commit and the save does not throw. -/
theorem session_handled_of_begun {handle : ℕ}
    (hbegin : (state.beginTransaction request.settings.isolationLevel).1 = .ok handle) :
    (request.handled state).session =
      if rollsBack request.settings
            (request.next (state.beginTransaction request.settings.isolationLevel).2).1 = false ∧
          request.saveChangesFails state = false
      then (request.left state).saveChangesAsync else request.left state := by
  have hreturns : request.manager.beginTransaction request.settings.isolationLevel state =
      (.ok (), (state.beginTransaction request.settings.isolationLevel).2) := by
    simp only [manager, hbegin, Except.map]
  have hactive := isActive_of_begun hbegin
  have hsession : (state.beginTransaction request.settings.isolationLevel).2.session =
      state.session := TransactionManager.beginTransaction_session _
  unfold saveChangesFails left
  rw [handled, onActionExecutionAsync_of_isActive hreturns rfl, ← hsession]
  generalize (state.beginTransaction request.settings.isolationLevel).2 = begun at hactive ⊢
  -- the body works on the session and leaves the transaction to the handler
  have hexecuted : (request.next begun).2.isActive = true := hactive
  rw [if_pos hexecuted, endTransaction]
  cases hrolls : rollsBack request.settings (request.next begun).1 with
  | true =>
    rw [if_pos rfl, if_neg (by simp)]
    exact TransactionManager.clearTransaction_session _
  | false =>
    rw [if_neg Bool.false_ne_true]
    cases hsave : (request.commit (request.next begun).2).saveChangesThrows with
    | true =>
      rw [if_neg (by simp)]
      exact congrArg TransactionManager.session
        (TransactionManager.commitTransactionAsync_eq_self (Or.inr hsave))
    | false =>
      rw [if_pos ⟨rfl, rfl⟩]
      exact TransactionManager.commitTransactionAsync_session _ hexecuted hsave

end Handled

/-- For every request to an action with an effective attribute, every body, every way the calls of
the handler end and every meaning of the commands: when the handler is done the database is as
before the request, or has taken every change the body left pending. It is as before whenever the
body threw or the save failed. -/
theorem handled_allOrNothing (execute : Database → Command Key Document → Database)
    (initial : Database) (request : ActionRequest TId Key Document)
    (state : TransactionManager Key Document) :
    let before := state.session.database execute initial
    let after := (request.handled state).session.database execute initial
    (after = before ∨
        after = DocumentSession.applyAll execute before (request.left state).pending) ∧
      (request.thrown state ≠ none ∨ request.saveChangesFails state = true → after = before) := by
  intro before after
  have hleft : (request.left state).database execute initial = before :=
    congrArg (DocumentSession.applyAll execute initial)
      (DocumentSession.written_body state.session request.steps)
  cases hbegin : (state.beginTransaction request.settings.isolationLevel).1 with
  | error exception =>
    have hsame : after = before :=
      congrArg (DocumentSession.database execute initial) (session_handled_of_throws hbegin)
    exact ⟨Or.inl hsame, fun _ ↦ hsame⟩
  | ok handle =>
    have hsession := session_handled_of_begun hbegin
    split_ifs at hsession with hsaves
    · obtain ⟨hrolls, hsave⟩ := hsaves
      refine ⟨Or.inr ?_, fun hfails ↦ ?_⟩
      · rw [← hleft, ← DocumentSession.database_saveChangesAsync, ← hsession]
      · rcases hfails with hthrown | hfails
        · have hnone : request.thrown state = none := by
            simpa [next, thrown] using (Bool.or_eq_false_iff.mp hrolls).1
          exact absurd hnone hthrown
        · exact absurd (hfails.symm.trans hsave) (by simp)
    · have hsame : after = before := by rw [← hleft, ← hsession]
      exact ⟨Or.inl hsame, fun _ ↦ hsame⟩

end ActionRequest

end SharpArch.Web
