import SharpArch.NHibernate.NHibernateRepository
import SharpArch.RavenDb.StoredDocuments

/-!
# What holds of both repositories

The NHibernate and the RavenDB repository implement one interface over sessions that defer their
writes. `deletesById_both` compares their deletions by identifier: that of RavenDB fails on a missing
identifier of a value type, every other one succeeds. `saveAndEvictAsync_loses` says that with either
repository `SaveAndEvictAsync` loses the entity, and `flush_before_evict_stores` that it is stored when
the session is flushed in between.
-/

set_option autoImplicit false
set_option relaxedAutoImplicit false

namespace SharpArch.Repositories

open Domain.PersistenceSupport Foundation.DeferredSession NHibernate RavenDb

variable {TId Entity Key Document : Type} [DecidableEq TId] [DecidableEq Entity] [DecidableEq Key]
  [DecidableEq Document] {getId : Entity → TId} {keyOf : Document → Key}

/-! ### Deleting by identifier -/

/-- With a transaction begun and nothing pending, deleting by identifier deletes the entity that has it
and nothing else, whether there is one or not, for every identifier over NHibernate; over RavenDB it
does so exactly when the identifiers are not of a value type or the identifier is one of a stored
document. -/
theorem deletesById_both (session : ISession getId) (hclean : session.pending = [])
    (htransaction : session.transaction ≠ none) (repository : StoredRepository TId keyOf)
    (state : TrackingManager Key Document) (hready : StoredRepository.Ready state) (id : TId) :
    DeletesById (NHibernateRepository.iRepository : IRepository TId Entity (ISession getId))
        (fun id ↦ id) ISession.toSession id session ∧
      (DeletesById repository.iRepository repository.toKey repository.session id state ↔
        (repository.idIsValueType = true →
          (repository.session state).stored.find (repository.toKey id) ≠ none)) :=
  ⟨NHibernateRepository.deletesById hclean htransaction, StoredRepository.deletesById_iff hready id⟩

/-- A document of a key. -/
abbrev KeyedDocument := ℕ × Bool

/-- A repository of documents with numbers for identifiers, over a database without documents. -/
def numbered : StoredRepository ℕ (Prod.fst : KeyedDocument → ℕ) :=
  StoredRepository.reading true (fun id ↦ id) (Contents.empty _)

/-- A session just opened, with a transaction begun on its manager. -/
def begun : TrackingManager ℕ KeyedDocument where
  manager := ((TransactionManager.start {}).beginTransaction .readCommitted).2
  tracked _ := false

theorem ready_begun : StoredRepository.Ready begun where
  settled := TransactionManager.settled_beginTransaction (TransactionManager.settled_start {}) _
  isActive := rfl
  pending_eq := rfl

/-- The same for NHibernate, where the database holds one entity. -/
def opened : ISession (Prod.fst : KeyedDocument → ℕ) where
  stored := (Contents.empty _).execute (.put (5, true))
  pending := []
  tracked _ := false
  flushesBeforeQueries := true
  transaction := some ((Contents.empty _).execute (.put (5, true)))

/-- Over NHibernate the entity can be deleted, and so can a document over RavenDB if it is stored. -/
theorem deletesById_both_begun :
    DeletesById (NHibernateRepository.iRepository :
        IRepository ℕ KeyedDocument (ISession (Prod.fst : KeyedDocument → ℕ)))
        (fun id ↦ id) ISession.toSession 5 opened ∧
      (DeletesById numbered.iRepository numbered.toKey numbered.session 5 begun ↔
        (numbered.idIsValueType = true →
          (numbered.session begun).stored.find (numbered.toKey 5) ≠ none)) :=
  deletesById_both opened rfl nofun numbered begun ready_begun 5

/-- Deleting a number that no document has throws. -/
theorem deleteByIdAsync_missing_throws :
    ¬ DeletesById numbered.iRepository numbered.toKey numbered.session 5 begun := by
  intro hdeletes
  have hthrows : (numbered.iRepository.deleteByIdAsync 5 begun).1 =
      .error (.argumentNull "entity") := rfl
  exact absurd (hthrows.symm.trans hdeletes.delete_returns) nofun

/-! ### Saving and evicting -/

/-- Whatever else is pending and whatever is done to other entities before the commit, neither
repository has stored a new entity that `SaveAndEvictAsync` was called for. -/
theorem saveAndEvictAsync_loses :
    (∀ (session : ISession getId) (entity : Entity) (calls : List (RepositoryCall TId Entity)),
      session.IsNew entity → (∀ call ∈ calls, call.IsOther getId (fun id ↦ id) entity) →
        ¬ (NHibernateRepository.iRepository.commitAfter
          (saveAndEvictAsync (some NHibernateRepository.iRepository) (some entity) session).2
          calls).StoredUntracked entity) ∧
      ∀ (repository : StoredRepository TId keyOf) (state : TrackingManager Key Document)
        (document : Document) (calls : List (RepositoryCall TId Document)),
        (repository.session state).IsNew document →
          (∀ call ∈ calls, call.IsOther keyOf repository.toKey document) →
            ¬ (repository.session (repository.iRepository.commitAfter
              (saveAndEvictAsync (some repository.iRepository) (some document) state).2
              calls)).StoredUntracked document := by
  refine ⟨fun session entity calls hnew hothers ↦ ?_,
    fun repository state document calls hnew hothers ↦ ?_⟩
  · exact NHibernateRepository.defersWrites.not_storedUntracked_of_saveAndEvictAsync hnew calls
      hothers
  · exact repository.defersWrites.not_storedUntracked_of_saveAndEvictAsync hnew calls hothers

/-- Flushing before the eviction, as `FlushAndEvictAsync` does, stores the entity and leaves it
untracked, over either repository. -/
theorem flush_before_evict_stores :
    (∀ (session flushed : ISession getId) (entity : Entity)
      (calls : List (RepositoryCall TId Entity)),
      (∀ call ∈ calls, call.IsOther getId (fun id ↦ id) entity) →
        ISession.flushAndEvictAsync (some (NHibernateRepository.saveAsync (some entity) session).2)
          (some entity) = .ok flushed →
          (NHibernateRepository.iRepository.commitAfter flushed calls).StoredUntracked entity) ∧
      ∀ (repository : StoredRepository TId keyOf) (state : TrackingManager Key Document)
        (document : Document) (calls : List (RepositoryCall TId Document)),
        (∀ call ∈ calls, call.IsOther keyOf repository.toKey document) →
          (repository.session (repository.iRepository.commitAfter
            (StoredRepository.evictAsync document (repository.saveChangesAsync
              (StoredRepository.saveAsync (some document) state).2)).2 calls)
            ).StoredUntracked document := by
  constructor
  · intro session flushed entity calls hothers hflushed
    obtain rfl := Except.ok.inj hflushed
    exact NHibernateRepository.defersWrites.storedUntracked_of_flush rfl calls hothers
  · intro repository state document calls hothers
    exact repository.defersWrites.storedUntracked_of_flush
      (StoredRepository.session_saveChangesAsync _) calls hothers

/-- A new entity, and another one saved before the commit. -/
theorem saveAndEvictAsync_loses_begun :
    ¬ (NHibernateRepository.iRepository.commitAfter
        (saveAndEvictAsync (some NHibernateRepository.iRepository) (some (1, true)) opened).2
        [.saveAsync (some (2, true))]).StoredUntracked (1, true) ∧
      ¬ (numbered.session (numbered.iRepository.commitAfter
        (saveAndEvictAsync (some numbered.iRepository) (some (1, true)) begun).2
        [.saveAsync (some (2, true))])).StoredUntracked (1, true) := by
  have hothers : ∀ call ∈ [RepositoryCall.saveAsync (some ((2, true) : KeyedDocument))],
      call.IsOther Prod.fst (fun id : ℕ ↦ id) (1, true) := by
    intro call hcall
    obtain rfl := List.mem_singleton.mp hcall
    intro saved hsaved
    obtain rfl := Option.mem_some.mp hsaved
    decide
  have hboth := @saveAndEvictAsync_loses ℕ KeyedDocument ℕ KeyedDocument _ _ _ _ Prod.fst Prod.fst
  exact ⟨hboth.1 opened (1, true) _ ⟨⟨rfl, fun _ h ↦ absurd h List.not_mem_nil⟩, rfl⟩ hothers,
    hboth.2 numbered begun (1, true) _ ⟨⟨rfl, fun _ h ↦ absurd h List.not_mem_nil⟩, rfl⟩ hothers⟩

/-- A document that is saved, evicted and committed is not found afterwards. -/
theorem saved_and_evicted_not_stored :
    ¬ (numbered.session (numbered.iRepository.commitAfter
      (saveAndEvictAsync (some numbered.iRepository) (some (1, true)) begun).2 [])
      ).StoredUntracked (1, true) := by
  intro hstored
  have hfind : (numbered.session (numbered.iRepository.commitAfter
      (saveAndEvictAsync (some numbered.iRepository) (some (1, true)) begun).2 [])).stored.find 1 =
    none := rfl
  exact absurd (hfind.symm.trans hstored.stored) nofun

end SharpArch.Repositories
