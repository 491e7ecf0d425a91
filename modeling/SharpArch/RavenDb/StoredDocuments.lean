import SharpArch.Domain.Repositories
import SharpArch.RavenDb.ManagerContract
import SharpArch.RavenDb.RequestBody

/-!
# The RavenDB repository over a database

A command of a document session writes a document under its key or removes what is under one. A
`StoredRepository` is a repository over the documents a database held at first; what is stored now is
what the written changes have made of them. `LoadAsync` is the client library's: it answers with a
document of the key asked for, and in a session with nothing pending with the one that is stored.

`StoredRepository.session` views a document session as a session that defers its writes, and the
repository acts on it as one (`defersWrites`). Its deletion by identifier deletes the document there
is, but with identifiers of a value type it throws when there is none (`deletesById_iff`).
-/

set_option autoImplicit false
set_option relaxedAutoImplicit false

namespace SharpArch.RavenDb

open Domain.PersistenceSupport Foundation.DeferredSession Platform.SystemTransactions
open Foundation.DeferredSession.Session (Evicts LeavesAlone leavesAlone_flush leavesAlone_remove
  leavesAlone_save leavesAlone_track)

variable {TId Key Document : Type} {keyOf : Document → Key}

/-- What a command writes. -/
def Command.write (keyOf : Document → Key) : Command Key Document → Write Key Document
  | .put document => .put document
  | .delete document => .remove (keyOf document)
  | .deferredDelete key => .remove key

/-- What changes write, in order. -/
def writes (keyOf : Document → Key) (changes : List (Change Key Document)) :
    List (Write Key Document) :=
  changes.map fun change ↦ change.command.write keyOf

theorem writes_append (first second : List (Change Key Document)) :
    writes keyOf (first ++ second) = writes keyOf first ++ writes keyOf second :=
  List.map_append

/-- A transaction manager with its session, and the documents the session tracks. -/
structure TrackingManager (Key Document : Type) where
  manager : TransactionManager Key Document
  tracked : Document → Bool

/-- The session is changed and the manager stays as it is. -/
def TrackingManager.withSession (state : TrackingManager Key Document)
    (session : DocumentSession Key Document) (tracked : Document → Bool) :
    TrackingManager Key Document :=
  { manager := { state.manager with session := session }, tracked := tracked }

section Stored

variable [DecidableEq Key]

/-- A repository over the documents of a database. -/
structure StoredRepository (TId : Type) (keyOf : Document → Key) extends
    RavenDbRepository TId Key Document where
  initial : Contents keyOf
  loadAsync_key : ∀ session key document,
    loadAsync session key = some document → keyOf document = key
  loadAsync_eq : ∀ session key, session.pending = [] →
    loadAsync session key = (initial.executeAll (writes keyOf session.written)).find key

namespace StoredRepository

variable [DecidableEq Document] (repository : StoredRepository TId keyOf)

/-- The documents that are stored. -/
def stored (session : DocumentSession Key Document) : Contents keyOf :=
  repository.initial.executeAll (writes keyOf session.written)

omit [DecidableEq Document] in
/-- The session as one that defers its writes. -/
def session (state : TrackingManager Key Document) : Session keyOf where
  stored := repository.stored state.manager.session
  pending := writes keyOf state.manager.session.pending
  tracked := state.tracked

omit [DecidableEq Document] in
/-- A repository whose `LoadAsync` reads the database. -/
def reading (idIsValueType : Bool) (toKey : TId → Key) (initial : Contents keyOf) :
    StoredRepository TId keyOf where
  idIsValueType := idIsValueType
  toKey := toKey
  initial := initial
  loadAsync session key := (initial.executeAll (writes keyOf session.written)).find key
  loadAsync_key _ := Contents.keyOf_eq _
  loadAsync_eq _ _ _ := rfl

/-! ### The methods -/

def getAsync (id : TId) (state : TrackingManager Key Document) :
    Except Exn (Option Document) × TrackingManager Key Document :=
  let loaded := repository.toRavenDbRepository.getAsync id state.manager.session
  (.ok loaded, { state with
    tracked := fun document ↦ state.tracked document || decide (loaded = some document) })

/-- The state after a query that finds the documents of a kind. -/
def query (finds : Document → Bool) (state : TrackingManager Key Document) :
    TrackingManager Key Document :=
  { state with
    tracked := fun document ↦ state.tracked document || (finds document &&
      decide ((repository.stored state.manager.session).find (keyOf document) = some document)) }

omit [DecidableEq Key] in
/-- `SaveAsync`, and `SaveOrUpdateAsync`, which calls it. -/
def saveAsync (entity : Option Document) (state : TrackingManager Key Document) :
    Except Exn Document × TrackingManager Key Document :=
  match entity with
  | none => (.error (.argumentNull "entity"), state)
  | some document => (.ok document, state.withSession
      (RavenDbRepository.saveAsync (some document) state.manager.session).2
      (Function.update state.tracked document true))

omit [DecidableEq Key] in
def evictAsync (entity : Document) (state : TrackingManager Key Document) :
    Except Exn Unit × TrackingManager Key Document :=
  ((RavenDbRepository.evictAsync entity state.manager.session).1, state.withSession
    (RavenDbRepository.evictAsync entity state.manager.session).2
    (Function.update state.tracked entity false))

omit [DecidableEq Key] [DecidableEq Document] in
/-- `DeleteAsync` of an entity. -/
def deleteAsync (entity : Option Document) (state : TrackingManager Key Document) :
    Except Exn Unit × TrackingManager Key Document :=
  ((RavenDbRepository.deleteAsync entity false state.manager.session).1, state.withSession
    (RavenDbRepository.deleteAsync entity false state.manager.session).2 state.tracked)

/-- `DeleteAsync` of an identifier. With identifiers of a value type the entity is loaded first. -/
def deleteByIdAsync (id : TId) (state : TrackingManager Key Document) :
    Except Exn Unit × TrackingManager Key Document :=
  let loaded := if repository.idIsValueType then (repository.getAsync id state).2 else state
  ((repository.toRavenDbRepository.deleteByIdAsync id false state.manager.session).1,
    loaded.withSession
      (repository.toRavenDbRepository.deleteByIdAsync id false state.manager.session).2
      loaded.tracked)

/-- `SaveChangesAsync` of the session, which stops tracking what it deletes. -/
def saveChangesAsync (state : TrackingManager Key Document) : TrackingManager Key Document :=
  state.withSession state.manager.session.saveChangesAsync (repository.session state).flush.tracked

/-- `CommitTransactionAsync`, which saves when a transaction was begun. -/
def commitTransactionAsync (state : TrackingManager Key Document) :
    Except Exn Unit × TrackingManager Key Document :=
  ((state.manager.commitTransactionAsync {}).1,
    { manager := (state.manager.commitTransactionAsync {}).2
      tracked := if state.manager.isActive then (repository.session state).flush.tracked
        else state.tracked })

/-- The manager as an `ITransactionManager`. -/
def transactionManager : ITransactionManager (TrackingManager Key Document) where
  beginTransaction isolationLevel state :=
    ((state.manager.beginTransaction isolationLevel).1.map fun _ ↦ (),
      { state with manager := (state.manager.beginTransaction isolationLevel).2 })
  commitTransactionAsync := repository.commitTransactionAsync
  rollbackTransactionAsync state :=
    ((state.manager.rollbackTransactionAsync .returns).1,
      { state with manager := (state.manager.rollbackTransactionAsync .returns).2 })
  isActive := some fun state ↦ state.manager.isActive

/-- The repository as an `IRepository`. -/
def iRepository : IRepository TId Document (TrackingManager Key Document) where
  getAsync := repository.getAsync
  query := repository.query
  saveAsync := saveAsync
  saveOrUpdateAsync := saveAsync
  evictAsync := evictAsync
  deleteAsync := deleteAsync
  deleteByIdAsync := repository.deleteByIdAsync
  transactionManager := repository.transactionManager

/-! ### What the methods do to the session -/

variable {repository} {state : TrackingManager Key Document} {entity : Document}

omit [DecidableEq Document] in
/-- Registering a command defers its write. -/
theorem session_register (command : Command Key Document) (tracked : Document → Bool) :
    repository.session (state.withSession (state.manager.session.register command) tracked) =
      { repository.session state with
        pending := (repository.session state).pending ++ [command.write keyOf]
        tracked := tracked } := by
  simp only [session, TrackingManager.withSession, DocumentSession.register, writes_append]
  rfl

theorem session_saveAsync (document : Document) :
    repository.session (saveAsync (some document) state).2 =
      (repository.session state).save document :=
  session_register (.put document) _

omit [DecidableEq Document] in
theorem session_deleteAsync (document : Document) :
    repository.session (deleteAsync (some document) state).2 =
      (repository.session state).remove (keyOf document) :=
  session_register (.delete document) _

/-- An eviction drops the entity with its pending put, and nothing that is pending at other keys. -/
theorem evicts_evictAsync (entity : Document) (state : TrackingManager Key Document) :
    Evicts entity (repository.session state) (repository.session (evictAsync entity state).2) where
  stored_eq := rfl
  pending_subset := by
    intro write hmem
    obtain ⟨change, hchange, rfl⟩ := List.mem_map.mp hmem
    exact List.mem_map.mpr ⟨change, (List.mem_filter.mp hchange).1, rfl⟩
  put_not_pending := by
    intro hmem
    obtain ⟨⟨number, command⟩, hchange, hput⟩ := List.mem_map.mp hmem
    have hkept := (List.mem_filter.mp hchange).2
    cases command with
    | put document =>
      obtain rfl : document = entity := by simpa [Command.write] using hput
      simp [Command.isAbout] at hkept
    | delete document => exact absurd hput (by simp [Command.write])
    | deferredDelete key => exact absurd hput (by simp [Command.write])
  other_pending := by
    intro write hmem hne
    obtain ⟨⟨number, command⟩, hchange, rfl⟩ := List.mem_map.mp hmem
    refine List.mem_map.mpr ⟨_, List.mem_filter.mpr ⟨hchange, ?_⟩, rfl⟩
    have hother : ∀ document, keyOf document ≠ keyOf entity → (!decide (document = entity)) = true := by
      intro document hkey
      simpa using fun hsame : document = entity ↦ hkey (congrArg keyOf hsame)
    cases command with
    | put document => exact hother document hne
    | delete document => exact hother document hne
    | deferredDelete key => rfl
  not_tracked := Function.update_self _ _ _
  other_tracked := fun _ hne ↦ Function.update_of_ne hne _ _

/-- Saving flushes the session. -/
theorem session_saveChangesAsync (state : TrackingManager Key Document) :
    repository.session (repository.saveChangesAsync state) = (repository.session state).flush := by
  simp only [session, saveChangesAsync, TrackingManager.withSession, stored,
    DocumentSession.saveChangesAsync, writes_append, Contents.executeAll_append, Session.flush]
  rfl

/-- A commit flushes the session when a transaction was begun, and otherwise does nothing. -/
theorem session_commitTransactionAsync (state : TrackingManager Key Document) :
    repository.session (repository.commitTransactionAsync state).2 =
      if state.manager.isActive then (repository.session state).flush
      else repository.session state := by
  cases hactive : state.manager.isActive with
  | true =>
    have hsaved := TransactionManager.commitTransactionAsync_session {} hactive rfl
    simp only [if_true, ← session_saveChangesAsync]
    simp only [session, commitTransactionAsync, saveChangesAsync, TrackingManager.withSession, hactive,
      if_true, hsaved]
  | false =>
    have hidle : state.manager.transaction = none := by
      simpa [TransactionManager.isActive] using hactive
    have hself : (state.manager.commitTransactionAsync {}).2 = state.manager :=
      TransactionManager.commitTransactionAsync_eq_self (Or.inl hidle)
    simp only [session, commitTransactionAsync, hactive, hself, Bool.false_eq_true, if_false]

theorem getAsync_leavesAlone {id : TId} (hne : repository.toKey id ≠ keyOf entity) :
    LeavesAlone entity (repository.session state)
      (repository.session (repository.getAsync id state).2) := by
  refine leavesAlone_track (decide_eq_false fun hloaded ↦ hne ?_)
  exact (repository.loadAsync_key _ _ _ hloaded).symm

theorem query_leavesAlone {finds : Document → Bool} (hfinds : finds entity = false) :
    LeavesAlone entity (repository.session state)
      (repository.session (repository.query finds state)) := by
  refine leavesAlone_track ?_
  rw [hfinds, Bool.false_and]

theorem saveAsync_leavesAlone {other : Option Document}
    (hother : ∀ saved ∈ other, keyOf saved ≠ keyOf entity) :
    LeavesAlone entity (repository.session state) (repository.session (saveAsync other state).2) := by
  cases other with
  | none => exact LeavesAlone.refl _
  | some saved =>
    rw [session_saveAsync]
    exact leavesAlone_save (hother saved rfl)

omit [DecidableEq Document] in
theorem deleteAsync_leavesAlone {other : Option Document}
    (hother : ∀ deleted ∈ other, keyOf deleted ≠ keyOf entity) :
    LeavesAlone entity (repository.session state)
      (repository.session (deleteAsync other state).2) := by
  cases other with
  | none => exact LeavesAlone.refl _
  | some deleted =>
    rw [session_deleteAsync]
    exact leavesAlone_remove (hother deleted rfl)

/-- With identifiers of a value type, a deletion by identifier is one of the entity loaded. -/
theorem deleteByIdAsync_of_valueType (hvalueType : repository.idIsValueType = true) (id : TId) :
    repository.deleteByIdAsync id state =
      deleteAsync (repository.toRavenDbRepository.getAsync id state.manager.session)
        (repository.getAsync id state).2 := by
  simp only [deleteByIdAsync, RavenDbRepository.deleteByIdAsync, hvalueType, if_true, deleteAsync]
  rfl

/-- With identifiers of a reference type, it defers a command. -/
theorem deleteByIdAsync_of_referenceType (hvalueType : repository.idIsValueType = false) (id : TId) :
    repository.deleteByIdAsync id state =
      (.ok (), state.withSession
        (state.manager.session.register (.deferredDelete (repository.toKey id))) state.tracked) := by
  simp only [deleteByIdAsync, RavenDbRepository.deleteByIdAsync, hvalueType, Bool.false_eq_true,
    if_false]

theorem deleteByIdAsync_leavesAlone {id : TId} (hne : repository.toKey id ≠ keyOf entity) :
    LeavesAlone entity (repository.session state)
      (repository.session (repository.deleteByIdAsync id state).2) := by
  cases hvalueType : repository.idIsValueType with
  | true =>
    rw [deleteByIdAsync_of_valueType hvalueType]
    refine (getAsync_leavesAlone hne).trans (deleteAsync_leavesAlone fun deleted hdeleted ↦ ?_)
    rw [repository.loadAsync_key _ _ _ hdeleted]
    exact hne
  | false =>
    rw [deleteByIdAsync_of_referenceType hvalueType, session_register]
    exact leavesAlone_remove hne

/-- The repository defers its writes to the save of the session. -/
theorem defersWrites (repository : StoredRepository TId keyOf) :
    DefersWrites repository.iRepository repository.toKey repository.session where
  save_returns _ _ := rfl
  session_save entity _ := session_saveAsync entity
  evict_returns _ _ := rfl
  evicts entity state := evicts_evictAsync entity state
  call_leavesAlone := by
    intro entity state call hother
    cases call with
    | getAsync id => exact getAsync_leavesAlone hother
    | query finds => exact query_leavesAlone hother
    | saveAsync other => exact saveAsync_leavesAlone hother
    | saveOrUpdateAsync other => exact saveAsync_leavesAlone hother
    | evictAsync other =>
      exact (evicts_evictAsync other state).leavesAlone fun hsame ↦ hother (congrArg keyOf hsame.symm)
    | deleteAsync other => exact deleteAsync_leavesAlone hother
    | deleteByIdAsync id => exact deleteByIdAsync_leavesAlone hother
  commit_leavesAlone := by
    intro entity state
    rw [iRepository, transactionManager, session_commitTransactionAsync]
    split_ifs
    · exact leavesAlone_flush
    · exact LeavesAlone.refl _

/-! ### Deleting by identifier -/

/-- A transaction is open that can be committed, and the session has nothing pending. -/
structure Ready (state : TrackingManager Key Document) : Prop where
  settled : state.manager.Settled
  isActive : state.manager.isActive = true
  pending_eq : state.manager.session.pending = []

omit [DecidableEq Document] in
/-- In a session with nothing pending, `GetAsync` finds what is stored. -/
theorem getAsync_of_ready (repository : StoredRepository TId keyOf) (hready : Ready state)
    (id : TId) :
    repository.toRavenDbRepository.getAsync id state.manager.session =
      (repository.session state).stored.find (repository.toKey id) :=
  repository.loadAsync_eq _ _ hready.pending_eq

/-- A commit returns, whatever was done to the session since the transaction was ready. -/
theorem commitTransactionAsync_withSession (repository : StoredRepository TId keyOf)
    (hready : Ready state) (session : DocumentSession Key Document) (tracked : Document → Bool) :
    (repository.commitTransactionAsync (state.withSession session tracked)).1 = .ok () := by
  have hsettled : (state.withSession session tracked).manager.Settled :=
    ⟨hready.settled.inStep, hready.settled.not_completed⟩
  exact (TransactionManager.commitTransactionAsync_of_settled hsettled hready.isActive).1

/-- A deletion that has registered the removal of the identifier's key deletes what is stored there. -/
theorem deletesById_of_register (hready : Ready state) {id : TId} {command : Command Key Document}
    (hwrite : command.write keyOf = .remove (repository.toKey id)) {tracked : Document → Bool}
    (hdelete : repository.deleteByIdAsync id state =
      (.ok (), state.withSession (state.manager.session.register command) tracked)) :
    DeletesById repository.iRepository repository.toKey repository.session id state := by
  have hpending : (repository.session state).pending = [] := by
    simp only [session, hready.pending_eq, writes, List.map_nil]
  have hcommit := commitTransactionAsync_withSession repository hready
    (state.manager.session.register command) tracked
  refine deletesById_of_flush hdelete ?_ (Or.inl ?_) (Prod.ext hcommit rfl) ?_
  · rw [session_register]
  · rw [session_register, hpending, hwrite]
    rfl
  · exact (session_commitTransactionAsync _).trans (if_pos hready.isActive)

/-- Deleting by identifier deletes the document there is. It fails exactly when there is none and the
identifiers are of a value type. -/
theorem deletesById_iff (hready : Ready state) (id : TId) :
    DeletesById repository.iRepository repository.toKey repository.session id state ↔
      (repository.idIsValueType = true →
        (repository.session state).stored.find (repository.toKey id) ≠ none) := by
  cases hvalueType : repository.idIsValueType with
  | true =>
    have hdelete : repository.deleteByIdAsync id state =
        deleteAsync ((repository.session state).stored.find (repository.toKey id))
          (repository.getAsync id state).2 := by
      rw [deleteByIdAsync_of_valueType hvalueType, getAsync_of_ready repository hready]
    cases hfound : (repository.session state).stored.find (repository.toKey id) with
    | none =>
      rw [hfound] at hdelete
      refine iff_of_false (fun hdeletes ↦ ?_) fun hpresent ↦ hpresent rfl rfl
      have hreturns : (repository.deleteByIdAsync id state).1 = .ok () := hdeletes.delete_returns
      rw [hdelete] at hreturns
      exact absurd hreturns nofun
    | some document =>
      rw [hfound] at hdelete
      have hwrite : (Command.delete document).write keyOf = .remove (repository.toKey id) :=
        congrArg Write.remove (Contents.keyOf_eq _ _ _ hfound)
      exact iff_of_true (deletesById_of_register hready hwrite hdelete)
        fun _ ↦ Option.some_ne_none document
  | false =>
    refine iff_of_true ?_ nofun
    exact deletesById_of_register hready rfl (deleteByIdAsync_of_referenceType hvalueType id)

end StoredRepository

end Stored

end SharpArch.RavenDb
