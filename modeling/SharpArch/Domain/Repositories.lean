import SharpArch.Domain.PersistenceSupport
import SharpArch.Foundation.DeferredSession
import SharpArch.Foundation.Run

/-!
# Repositories as the domain layer sees them

`IRepository` is the interface of the same name over the state of the session behind it. The methods
are called without a cancellation.

`DefersWrites` says what a repository does to a session that defers its writes: a save leaves a
pending put, an eviction drops it again, and neither calls about other entities nor a commit touch an
entity. On such a repository `SaveAndEvictAsync` loses every new entity
(`not_storedUntracked_of_saveAndEvictAsync`), while flushing between the save and the eviction stores
it (`storedUntracked_of_flush`).
-/

set_option autoImplicit false
set_option relaxedAutoImplicit false

namespace SharpArch.Domain.PersistenceSupport

open Foundation.DeferredSession Foundation.Run Platform.SystemTransactions

variable {TId Entity State Key : Type}

/-- `IRepository<TEntity, TId>`. `query` is the effect on the session of a query that finds the
entities of a kind, of which `GetAllAsync` is one. -/
structure IRepository (TId Entity State : Type) where
  getAsync : TId → State → Except Exn (Option Entity) × State
  query : (Entity → Bool) → State → State
  saveAsync : Option Entity → State → Except Exn Entity × State
  saveOrUpdateAsync : Option Entity → State → Except Exn Entity × State
  evictAsync : Entity → State → Except Exn Unit × State
  deleteAsync : Option Entity → State → Except Exn Unit × State
  deleteByIdAsync : TId → State → Except Exn Unit × State
  transactionManager : ITransactionManager State

/-- `RepositoryExtensions.SaveAndEvictAsync`. -/
def saveAndEvictAsync (repository : Option (IRepository TId Entity State)) (entity : Option Entity)
    (state : State) : Except Exn Unit × State :=
  match repository with
  | none => (.error (.argumentNull "repository"), state)
  | some repository =>
    match entity with
    | none => (.error (.argumentNull "entity"), state)
    | some entity =>
      match repository.saveAsync (some entity) state with
      | (.error exception, saving) => (.error exception, saving)
      | (.ok saved, saving) => repository.evictAsync saved saving

/-! ### Calls -/

/-- A call of a repository. -/
inductive RepositoryCall (TId Entity : Type)
  | getAsync (id : TId)
  | query (finds : Entity → Bool)
  | saveAsync (entity : Option Entity)
  | saveOrUpdateAsync (entity : Option Entity)
  | evictAsync (entity : Entity)
  | deleteAsync (entity : Option Entity)
  | deleteByIdAsync (id : TId)

namespace IRepository

/-- The state after a call, whether it returned or threw. -/
def step (repository : IRepository TId Entity State) (state : State) :
    RepositoryCall TId Entity → State
  | .getAsync id => (repository.getAsync id state).2
  | .query finds => repository.query finds state
  | .saveAsync entity => (repository.saveAsync entity state).2
  | .saveOrUpdateAsync entity => (repository.saveOrUpdateAsync entity state).2
  | .evictAsync entity => (repository.evictAsync entity state).2
  | .deleteAsync entity => (repository.deleteAsync entity state).2
  | .deleteByIdAsync id => (repository.deleteByIdAsync id state).2

/-- Whether a call returned or threw, and the state after it. -/
def answer (repository : IRepository TId Entity State) (state : State) :
    RepositoryCall TId Entity → Except Exn Unit × State
  | .getAsync id => ((repository.getAsync id state).1.map fun _ ↦ (), (repository.getAsync id state).2)
  | .query finds => (.ok (), repository.query finds state)
  | .saveAsync entity =>
    ((repository.saveAsync entity state).1.map fun _ ↦ (), (repository.saveAsync entity state).2)
  | .saveOrUpdateAsync entity =>
    ((repository.saveOrUpdateAsync entity state).1.map fun _ ↦ (),
      (repository.saveOrUpdateAsync entity state).2)
  | .evictAsync entity => repository.evictAsync entity state
  | .deleteAsync entity => repository.deleteAsync entity state
  | .deleteByIdAsync id => repository.deleteByIdAsync id state

theorem answer_snd (repository : IRepository TId Entity State) (state : State)
    (call : RepositoryCall TId Entity) : (repository.answer state call).2 = repository.step state call := by
  cases call <;> rfl

/-- The state after calls and a commit. -/
def commitAfter (repository : IRepository TId Entity State) (state : State)
    (calls : List (RepositoryCall TId Entity)) : State :=
  (repository.transactionManager.commitTransactionAsync (run repository.step state calls)).2

end IRepository

/-- The call is about other entities than this one. -/
def RepositoryCall.IsOther (keyOf : Entity → Key) (toKey : TId → Key) (entity : Entity) :
    RepositoryCall TId Entity → Prop
  | .getAsync id => toKey id ≠ keyOf entity
  | .query finds => finds entity = false
  | .saveAsync other => ∀ saved ∈ other, keyOf saved ≠ keyOf entity
  | .saveOrUpdateAsync other => ∀ saved ∈ other, keyOf saved ≠ keyOf entity
  | .evictAsync other => keyOf other ≠ keyOf entity
  | .deleteAsync other => ∀ deleted ∈ other, keyOf deleted ≠ keyOf entity
  | .deleteByIdAsync id => toKey id ≠ keyOf entity

/-! ### Repositories over sessions that defer their writes -/

variable {keyOf : Entity → Key}

/-- Deleting by an identifier and committing: both return, the entity with the identifier is not stored
any more and every other entity is stored as before. -/
structure DeletesById (repository : IRepository TId Entity State) (toKey : TId → Key)
    (session : State → Session keyOf) (id : TId) (state : State) : Prop where
  delete_returns : (repository.deleteByIdAsync id state).1 = .ok ()
  commit_returns : (repository.transactionManager.commitTransactionAsync
    (repository.deleteByIdAsync id state).2).1 = .ok ()
  removed : (session (repository.commitAfter state [.deleteByIdAsync id])).stored.find (toKey id) =
    none
  others : ∀ key, key ≠ toKey id →
    (session (repository.commitAfter state [.deleteByIdAsync id])).stored.find key =
      (session state).stored.find key

/-- A deletion that leaves the removal of what was stored pending, and that a commit flushes. -/
theorem deletesById_of_flush [DecidableEq Key] [DecidableEq Entity]
    {repository : IRepository TId Entity State} {toKey : TId → Key} {session : State → Session keyOf}
    {id : TId} {state deleted committed : State}
    (hdelete : repository.deleteByIdAsync id state = (.ok (), deleted))
    (hstored : (session deleted).stored = (session state).stored)
    (hpending : (session deleted).pending = [.remove (toKey id)] ∨
      (session deleted).pending = [] ∧ (session state).stored.find (toKey id) = none)
    (hcommit : repository.transactionManager.commitTransactionAsync deleted = (.ok (), committed))
    (hflush : session committed = (session deleted).flush) :
    DeletesById repository toKey session id state := by
  have hafter : repository.commitAfter state [.deleteByIdAsync id] = committed := by
    simp only [IRepository.commitAfter, run_cons, run_nil, IRepository.step, hdelete, hcommit]
  refine ⟨congrArg Prod.fst hdelete, ?_, ?_, ?_⟩
  · rw [hdelete, hcommit]
  · rw [hafter, hflush]
    rcases hpending with hremove | ⟨hnone, hmissing⟩
    · exact (Session.find_flush_of_remove hremove).1
    · rw [Session.stored_flush_of_nil hnone, hstored, hmissing]
  · intro key hne
    rw [hafter, hflush, ← hstored]
    rcases hpending with hremove | ⟨hnone, -⟩
    · exact (Session.find_flush_of_remove hremove).2 key hne
    · rw [Session.stored_flush_of_nil hnone]

variable [DecidableEq Entity]

/-- What a repository does to the session behind it. -/
structure DefersWrites (repository : IRepository TId Entity State) (toKey : TId → Key)
    (session : State → Session keyOf) : Prop where
  save_returns : ∀ entity state, (repository.saveAsync (some entity) state).1 = .ok entity
  session_save : ∀ entity state,
    session (repository.saveAsync (some entity) state).2 = (session state).save entity
  evict_returns : ∀ entity state, (repository.evictAsync entity state).1 = .ok ()
  evicts : ∀ entity state,
    Session.Evicts entity (session state) (session (repository.evictAsync entity state).2)
  call_leavesAlone : ∀ entity state call, call.IsOther keyOf toKey entity →
    Session.LeavesAlone entity (session state) (session (repository.step state call))
  commit_leavesAlone : ∀ entity state, Session.LeavesAlone entity (session state)
    (session (repository.transactionManager.commitTransactionAsync state).2)

namespace DefersWrites

variable {repository : IRepository TId Entity State} {toKey : TId → Key}
  {session : State → Session keyOf} {entity : Entity}

/-- Calls about other entities leave an entity alone. -/
theorem run_leavesAlone (hdefers : DefersWrites repository toKey session)
    (calls : List (RepositoryCall TId Entity))
    (hothers : ∀ call ∈ calls, call.IsOther keyOf toKey entity) (state : State) :
    Session.LeavesAlone entity (session state) (session (run repository.step state calls)) := by
  induction calls generalizing state with
  | nil => exact Session.LeavesAlone.refl _
  | cons call rest ih =>
    obtain ⟨hcall, hrest⟩ := List.forall_mem_cons.mp hothers
    exact (hdefers.call_leavesAlone entity state call hcall).trans (ih hrest _)

/-- So do a commit and the calls before it. -/
theorem commitAfter_leavesAlone (hdefers : DefersWrites repository toKey session)
    (calls : List (RepositoryCall TId Entity))
    (hothers : ∀ call ∈ calls, call.IsOther keyOf toKey entity) (state : State) :
    Session.LeavesAlone entity (session state) (session (repository.commitAfter state calls)) :=
  (hdefers.run_leavesAlone calls hothers state).trans (hdefers.commit_leavesAlone entity _)

/-- `SaveAndEvictAsync` evicts what it has saved. -/
theorem saveAndEvictAsync_eq (hdefers : DefersWrites repository toKey session) (state : State) :
    saveAndEvictAsync (some repository) (some entity) state =
      repository.evictAsync entity (repository.saveAsync (some entity) state).2 := by
  have hreturns := hdefers.save_returns entity state
  rcases hsave : repository.saveAsync (some entity) state with ⟨answered, saving⟩
  rw [hsave] at hreturns
  obtain rfl : answered = .ok entity := hreturns
  simp only [saveAndEvictAsync, hsave]

/-- It returns. -/
theorem saveAndEvictAsync_returns (hdefers : DefersWrites repository toKey session) (state : State) :
    (saveAndEvictAsync (some repository) (some entity) state).1 = .ok () := by
  rw [hdefers.saveAndEvictAsync_eq]
  exact hdefers.evict_returns entity _

/-- A new entity that is saved and evicted in one go is not stored by any commit that follows, whatever
happens to other entities in between. -/
theorem not_storedUntracked_of_saveAndEvictAsync (hdefers : DefersWrites repository toKey session)
    {state : State} (hnew : (session state).IsNew entity) (calls : List (RepositoryCall TId Entity))
    (hothers : ∀ call ∈ calls, call.IsOther keyOf toKey entity) :
    ¬ (session (repository.commitAfter
      (saveAndEvictAsync (some repository) (some entity) state).2 calls)).StoredUntracked entity := by
  have hevicts := hdefers.evicts entity (repository.saveAsync (some entity) state).2
  rw [hdefers.session_save, ← hdefers.saveAndEvictAsync_eq] at hevicts
  have habsent := Session.absent_of_save_evict hnew hevicts
  have hlater := (hdefers.commitAfter_leavesAlone calls hothers _).absent habsent
  intro hstored
  exact absurd (hlater.not_stored.symm.trans hstored.stored) nofun

/-- An entity that is saved, flushed and then evicted is stored and not tracked after every commit that
follows. -/
theorem storedUntracked_of_flush [DecidableEq Key] (hdefers : DefersWrites repository toKey session)
    {state flushed : State}
    (hflush : session flushed = (session (repository.saveAsync (some entity) state).2).flush)
    (calls : List (RepositoryCall TId Entity))
    (hothers : ∀ call ∈ calls, call.IsOther keyOf toKey entity) :
    (session (repository.commitAfter (repository.evictAsync entity flushed).2 calls)
      ).StoredUntracked entity := by
  have hevicts := hdefers.evicts entity flushed
  rw [hflush, hdefers.session_save] at hevicts
  obtain ⟨hpresent, huntracked⟩ := Session.present_of_save_flush_evict hevicts
  have hlater := hdefers.commitAfter_leavesAlone calls hothers
    (repository.evictAsync entity flushed).2
  exact ⟨(hlater.present hpresent).stored, hlater.not_tracked huntracked⟩

end DefersWrites

end SharpArch.Domain.PersistenceSupport
