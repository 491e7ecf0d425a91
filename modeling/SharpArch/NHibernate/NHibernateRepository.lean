import SharpArch.Domain.Repositories

/-!
# The NHibernate repository and its session

`ISession` is what an NHibernate session keeps for the repository: the writes it has deferred, the
entities it tracks, and the store as it was when the current transaction began. `Get` finds what the
session would store. Queries flush first in the automatic flush modes; a commit flushes, as it does in
every mode but manual.

The repository defers its writes (`defersWrites`), and its deletion by identifier deletes the entity
there is, or nothing (`deletesById`).
-/

set_option autoImplicit false
set_option relaxedAutoImplicit false

namespace SharpArch.NHibernate

open Domain.PersistenceSupport Foundation.DeferredSession Platform.SystemTransactions
open Foundation.DeferredSession.Session (Evicts LeavesAlone leavesAlone_flush leavesAlone_remove
  leavesAlone_save leavesAlone_track)

variable {TId Entity : Type} {getId : Entity → TId}

/-- An `ISession`, with the store as it was when the current transaction began, if there is one. -/
structure ISession (getId : Entity → TId) extends Foundation.DeferredSession.Session getId where
  flushesBeforeQueries : Bool
  transaction : Option (Contents getId)

/-! ### The session -/

namespace ISession

variable [DecidableEq TId] [DecidableEq Entity]

/-- What `GetAsync` finds. -/
def get (id : TId) (session : ISession getId) : Option Entity :=
  (session.stored.executeAll session.pending).find id

def getAsync (id : TId) (session : ISession getId) : Option Entity × ISession getId :=
  (session.get id,
    { session with
      toSession := session.toSession.track fun entity ↦ session.get id = some entity })

/-- `SaveAsync`, and `SaveOrUpdateAsync`, which differ in the events they raise; the answer is the
object that is persistent from now on. -/
def saveAsync (obj : Option Entity) (session : ISession getId) :
    Except Exn Entity × ISession getId :=
  match obj with
  | none => (.error (.argumentNull "original"), session)
  | some entity => (.ok entity, { session with toSession := session.toSession.save entity })

def deleteAsync (obj : Option Entity) (session : ISession getId) :
    Except Exn Unit × ISession getId :=
  match obj with
  | none => (.error (.argumentNull "entity"), session)
  | some entity => (.ok (), { session with toSession := session.toSession.remove (getId entity) })

def evictAsync (obj : Entity) (session : ISession getId) : ISession getId :=
  { session with
    pending := session.pending.filter fun write ↦ write ≠ .put obj ∧ write ≠ .remove (getId obj)
    tracked := Function.update session.tracked obj false }

def flushAsync (session : ISession getId) : ISession getId :=
  { session with toSession := session.toSession.flush }

/-- The session after a query that finds the entities of a kind. -/
def query (finds : Entity → Bool) (session : ISession getId) : ISession getId :=
  let queried := if session.flushesBeforeQueries then session.flushAsync else session
  { queried with
    toSession := queried.toSession.track fun entity ↦
      finds entity && decide (queried.stored.find (getId entity) = some entity) }

/-- `SessionExtensions.FlushAndEvictAsync`. -/
def flushAndEvictAsync (session : Option (ISession getId)) (entity : Option Entity) :
    Except Exn (ISession getId) :=
  match session with
  | none => .error (.argumentNull "session")
  | some session =>
    match entity with
    | none => .error (.argumentNull "entity")
    | some entity => .ok (session.flushAsync.evictAsync entity)

theorem evicts_evictAsync (entity : Entity) (session : ISession getId) :
    Evicts entity session.toSession (session.evictAsync entity).toSession where
  stored_eq := rfl
  pending_subset := fun _ hmem ↦ (List.mem_filter.mp hmem).1
  put_not_pending := by
    intro hmem
    exact (of_decide_eq_true (List.mem_filter.mp hmem).2).1 rfl
  other_pending := by
    intro write hmem hne
    refine List.mem_filter.mpr ⟨hmem, decide_eq_true ⟨?_, ?_⟩⟩ <;> rintro rfl <;> exact hne rfl
  not_tracked := Function.update_self _ _ _
  other_tracked := fun _ hne ↦ Function.update_of_ne hne _ _

/-- A `Get` with another identifier leaves an entity alone. -/
theorem getAsync_leavesAlone {id : TId} {entity : Entity} (hne : id ≠ getId entity)
    (session : ISession getId) :
    LeavesAlone entity session.toSession (session.getAsync id).2.toSession := by
  refine leavesAlone_track (decide_eq_false fun hfound ↦ hne ?_)
  exact (Contents.keyOf_eq _ _ _ hfound).symm

/-- A query leaves an entity alone that it does not find. -/
theorem query_leavesAlone {finds : Entity → Bool} {entity : Entity} (hfinds : finds entity = false)
    (session : ISession getId) :
    LeavesAlone entity session.toSession (session.query finds).toSession := by
  have htrack : ∀ queried : ISession getId, LeavesAlone entity queried.toSession
      (queried.toSession.track fun other ↦
        finds other && decide (queried.stored.find (getId other) = some other)) := by
    intro queried
    refine leavesAlone_track ?_
    rw [hfinds, Bool.false_and]
  unfold query
  split_ifs
  · exact leavesAlone_flush.trans (htrack session.flushAsync)
  · exact htrack session

end ISession

/-! ### The transaction manager -/

namespace TransactionManager

def noTransactionAvailable : String := "No transaction is currently active."

variable [DecidableEq TId] [DecidableEq Entity]

/-- `CommitTransactionAsync`. -/
def commitTransactionAsync (session : ISession getId) : Except Exn Unit × ISession getId :=
  match session.transaction with
  | none => (.error (.invalidOperation noTransactionAvailable), session)
  | some _ => (.ok (), { session.flushAsync with transaction := none })

omit [DecidableEq TId] [DecidableEq Entity] in
/-- `RollbackTransactionAsync`. -/
def rollbackTransactionAsync (session : ISession getId) : Except Exn Unit × ISession getId :=
  match session.transaction with
  | none => (.error (.invalidOperation noTransactionAvailable), session)
  | some stored => (.ok (), { session with stored := stored, transaction := none })

/-- `BeginTransaction`, which answers the current transaction when there is one. -/
def beginTransaction (_isolationLevel : IsolationLevel) (session : ISession getId) :
    Except Exn Unit × ISession getId :=
  (.ok (), { session with transaction := some (session.transaction.getD session.stored) })

end TransactionManager

/-- The NHibernate manager as an `ITransactionManager`. -/
def transactionManager [DecidableEq TId] [DecidableEq Entity] :
    ITransactionManager (ISession getId) where
  beginTransaction := TransactionManager.beginTransaction
  commitTransactionAsync := TransactionManager.commitTransactionAsync
  rollbackTransactionAsync := TransactionManager.rollbackTransactionAsync
  isActive := some fun session ↦ session.transaction.isSome

/-! ### The repository -/

namespace NHibernateRepository

section Methods

variable [DecidableEq TId] [DecidableEq Entity]

/-- `GetAsync`. -/
def getAsync (id : TId) (session : ISession getId) : Option Entity × ISession getId :=
  session.getAsync id

/-- `SaveAsync`, and `SaveOrUpdateAsync`. -/
def saveAsync (entity : Option Entity) (session : ISession getId) :
    Except Exn Entity × ISession getId :=
  session.saveAsync entity

/-- `EvictAsync`. -/
def evictAsync (entity : Entity) (session : ISession getId) : ISession getId :=
  session.evictAsync entity

/-- `DeleteAsync` of an entity. -/
def deleteAsync (entity : Option Entity) (session : ISession getId) :
    Except Exn Unit × ISession getId :=
  session.deleteAsync entity

/-- `DeleteAsync` of an identifier. -/
def deleteByIdAsync (id : TId) (session : ISession getId) : Except Exn Unit × ISession getId :=
  match getAsync id session with
  | (none, found) => (.ok (), found)
  | (some entity, found) => deleteAsync (some entity) found

end Methods

variable [DecidableEq TId] [DecidableEq Entity]

/-- The repository as an `IRepository`. -/
def iRepository : IRepository TId Entity (ISession getId) where
  getAsync id session := ((.ok (getAsync id session).1), (getAsync id session).2)
  query finds session := session.query finds
  saveAsync := saveAsync
  saveOrUpdateAsync := saveAsync
  evictAsync entity session := (.ok (), evictAsync entity session)
  deleteAsync := deleteAsync
  deleteByIdAsync := deleteByIdAsync
  transactionManager := transactionManager

/-! ### What the repository does to its session -/

variable {entity : Entity} {session : ISession getId}

omit [DecidableEq TId] in
theorem saveAsync_leavesAlone {other : Option Entity}
    (hother : ∀ saved ∈ other, getId saved ≠ getId entity) :
    LeavesAlone entity session.toSession (saveAsync other session).2.toSession := by
  cases other with
  | none => exact LeavesAlone.refl _
  | some saved => exact leavesAlone_save (hother saved rfl)

omit [DecidableEq TId] [DecidableEq Entity] in
theorem deleteAsync_leavesAlone {other : Option Entity}
    (hother : ∀ deleted ∈ other, getId deleted ≠ getId entity) :
    LeavesAlone entity session.toSession (deleteAsync other session).2.toSession := by
  cases other with
  | none => exact LeavesAlone.refl _
  | some deleted => exact leavesAlone_remove (hother deleted rfl)

theorem deleteByIdAsync_of_none {id : TId} (hfound : session.get id = none) :
    deleteByIdAsync id session = (.ok (), (session.getAsync id).2) := by
  have hget : getAsync id session = (none, (session.getAsync id).2) := Prod.ext hfound rfl
  rw [deleteByIdAsync, hget]

theorem deleteByIdAsync_of_some {id : TId} {found : Entity} (hfound : session.get id = some found) :
    deleteByIdAsync id session = deleteAsync (some found) (session.getAsync id).2 := by
  have hget : getAsync id session = (some found, (session.getAsync id).2) := Prod.ext hfound rfl
  rw [deleteByIdAsync, hget]

theorem deleteByIdAsync_leavesAlone {id : TId} (hne : id ≠ getId entity) :
    LeavesAlone entity session.toSession (deleteByIdAsync id session).2.toSession := by
  have hget := session.getAsync_leavesAlone hne
  cases hfound : session.get id with
  | none =>
    rw [deleteByIdAsync_of_none hfound]
    exact hget
  | some found =>
    have hid : getId found = id := Contents.keyOf_eq _ _ _ hfound
    rw [deleteByIdAsync_of_some hfound]
    refine hget.trans (deleteAsync_leavesAlone ?_)
    rintro deleted ⟨⟩
    rw [hid]
    exact hne

theorem commitTransactionAsync_leavesAlone :
    LeavesAlone entity session.toSession
      (TransactionManager.commitTransactionAsync session).2.toSession := by
  unfold TransactionManager.commitTransactionAsync
  split
  · exact LeavesAlone.refl _
  · exact leavesAlone_flush

/-- The repository defers its writes to the flush of the session. -/
theorem defersWrites : DefersWrites (iRepository : IRepository TId Entity (ISession getId)) id
    ISession.toSession where
  save_returns _ _ := rfl
  session_save _ _ := rfl
  evict_returns _ _ := rfl
  evicts entity session := session.evicts_evictAsync entity
  call_leavesAlone := by
    intro entity session call hother
    cases call with
    | getAsync id => exact session.getAsync_leavesAlone hother
    | query finds => exact session.query_leavesAlone hother
    | saveAsync other => exact saveAsync_leavesAlone hother
    | saveOrUpdateAsync other => exact saveAsync_leavesAlone hother
    | evictAsync other =>
      exact (session.evicts_evictAsync other).leavesAlone fun hsame ↦ hother (congrArg getId hsame.symm)
    | deleteAsync other => exact deleteAsync_leavesAlone hother
    | deleteByIdAsync id => exact deleteByIdAsync_leavesAlone hother
  commit_leavesAlone _ _ := commitTransactionAsync_leavesAlone

/-- With a transaction and nothing pending, deleting by an identifier deletes the entity that has it,
or nothing. -/
theorem deletesById {key : TId} (hclean : session.pending = [])
    (htransaction : session.transaction ≠ none) :
    DeletesById (iRepository : IRepository TId Entity (ISession getId)) id ISession.toSession key
      session := by
  obtain ⟨before, hbefore⟩ := Option.ne_none_iff_exists'.mp htransaction
  have hstored : session.get key = session.stored.find key := by
    rw [ISession.get, hclean, Contents.executeAll_nil]
  have hcommit : ∀ later : ISession getId, later.transaction = some before →
      TransactionManager.commitTransactionAsync later =
        (.ok (), { later.flushAsync with transaction := none }) := by
    intro later hlater
    simp only [TransactionManager.commitTransactionAsync, hlater]
  cases hfound : session.get key with
  | none =>
    refine deletesById_of_flush (deleteByIdAsync_of_none hfound) rfl ?_ (hcommit _ hbefore) rfl
    exact Or.inr ⟨hclean, hstored ▸ hfound⟩
  | some found =>
    have hkey : getId found = key := Contents.keyOf_eq _ _ _ hfound
    have hremove : session.pending ++ [Write.remove (getId found)] = [.remove key] := by
      rw [hclean, hkey, List.nil_append]
    exact deletesById_of_flush (deleteByIdAsync_of_some hfound) rfl (Or.inl hremove)
      (hcommit _ hbefore) rfl

end NHibernateRepository

end SharpArch.NHibernate
