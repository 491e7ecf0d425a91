import SharpArch.Domain.SpecificationTrees
import SharpArch.RavenDb.StoredDocuments
import Mathlib.Data.List.Dedup

/-!
# Reading one document and reading many

`FindOneAsync` of a specification answers with nothing when it finds nothing. `FindOneAsync` of a
predicate takes that answer for a mistake and throws, with the message for more than one document, so
the two agree exactly when some document satisfies the predicate
(`findOneByPredicateAsync_correct_iff`).

`GetAllAsync` of identifiers loads their documents into a dictionary with an entry for each key, which
is null for a document that does not exist, and returns the values. It loads what `GetAsync` loads
(`getAllAsync_perm`), the missing documents included, so the list is one of documents exactly when
every identifier is one of a stored document (`getAllAsync_correct_iff`).
-/

set_option autoImplicit false
set_option relaxedAutoImplicit false

namespace SharpArch.RavenDb

open Domain.Specifications Foundation.BinderExpression Foundation.DeferredSession
  Platform.SystemTransactions

/-! ### One document -/

section FindOne

variable {Base : Type} [DecidableEq Base] {carrier : Base → Type} {Error : Type} {item : Ty Base}

/-- A predicate on documents: an expression with a boolean on each of them. -/
structure Predicate (carrier : Base → Type) (Error : Type) (item : Ty Base) where
  expression : Criteria carrier Error item
  holds : item.Denote carrier Error → Bool
  closed : expression.Closed
  evaluate_eq : ∀ document, expression.evaluate document = .ok (holds document)

/-- How a query fails: a specification throws, a predicate has no value on a document, or the session
throws. -/
inductive QueryFailure (Error : Type)
  | specification (exception : Domain.Specifications.Exception)
  | predicate (fault : Fault Error)
  | session (exception : Exn)

omit [DecidableEq Base] in
/-- The documents of a query. -/
def runQuery (query : Reading (Enumeration (item.Denote carrier Error) Error)) :
    Except (QueryFailure Error) (List (item.Denote carrier Error)) :=
  match query.run 0 with
  | .error exception => .error (.specification exception)
  | .ok (enumeration, _) =>
    match enumeration.fault with
    | some fault => .error (.predicate fault)
    | none => .ok enumeration.yielded

/-- `FindOneAsync` of a specification, over the documents of the collection. -/
def findOneBySpecificationAsync (specification : Option (QuerySpecification carrier Error item))
    (documents : List (item.Denote carrier Error)) :
    Except (QueryFailure Error) (Option (item.Denote carrier Error)) :=
  match specification with
  | none => .error (.session (.argumentNull "specification"))
  | some specification =>
    match runQuery (specification.satisfyingElementsFrom (some documents)) with
    | .error failure => .error failure
    | .ok found => (RavenDbRepository.singleOrDefaultAsync found).mapError .session

/-- `FindOneAsync` of a predicate, over the documents of the collection. -/
def findOneByPredicateAsync (expression : Option (Criteria carrier Error item))
    (documents : List (item.Denote carrier Error)) :
    Except (QueryFailure Error) (Option (item.Denote carrier Error)) :=
  match runQuery (QuerySpecification.queryableWhere documents expression) with
  | .error failure => .error failure
  | .ok found => ((RavenDbRepository.findOneAsync found).mapError .session).map some

omit [DecidableEq Base] in
/-- The answer to a search for one document, when these are the ones to be found. -/
def Answers : List (item.Denote carrier Error) →
    Except (QueryFailure Error) (Option (item.Denote carrier Error)) → Prop
  | [], outcome => outcome = .ok none
  | [document], outcome => outcome = .ok (some document)
  | _ :: _ :: _, outcome => ∃ message, outcome = .error (.session (.invalidOperation message))

variable (predicate : Predicate carrier Error item) (documents : List (item.Denote carrier Error))

/-- A predicate selects the documents on which it is true. -/
theorem select_predicate :
    select predicate.expression.evaluate documents = ⟨documents.filter predicate.holds, none⟩ := by
  rw [funext predicate.evaluate_eq]
  exact select_ok predicate.holds documents

theorem findOneByPredicateAsync_eq :
    findOneByPredicateAsync (some predicate.expression) documents =
      ((RavenDbRepository.findOneAsync (documents.filter predicate.holds)).mapError .session).map
        some := by
  have hquery : runQuery (QuerySpecification.queryableWhere documents (some predicate.expression)) =
      .ok (documents.filter predicate.holds) := by
    rw [runQuery, Tree.queryableWhere_run predicate.closed, select_predicate]
  rw [findOneByPredicateAsync, hquery]

theorem findOneBySpecificationAsync_eq :
    findOneBySpecificationAsync (some (adHoc (some predicate.expression))) documents =
      (RavenDbRepository.singleOrDefaultAsync (documents.filter predicate.holds)).mapError
        .session := by
  have hquery : runQuery ((adHoc (some predicate.expression)).satisfyingElementsFrom
      (some documents)) = .ok (documents.filter predicate.holds) := by
    rw [runQuery, adHoc, Tree.satisfyingElementsFrom_run (fun _ ↦ predicate.closed),
      select_predicate]
  simp only [findOneBySpecificationAsync, hquery]

/-- `FindOneAsync` of a predicate answers as documented, and as `FindOneAsync` of the specification
made of it, exactly when some document satisfies the predicate. -/
theorem findOneByPredicateAsync_correct_iff :
    (Answers (documents.filter predicate.holds)
        (findOneByPredicateAsync (some predicate.expression) documents) ∧
      findOneByPredicateAsync (some predicate.expression) documents =
        findOneBySpecificationAsync (some (adHoc (some predicate.expression))) documents) ↔
      ∃ document ∈ documents, predicate.holds document = true := by
  have hexists : (∃ document ∈ documents, predicate.holds document = true) ↔
      documents.filter predicate.holds ≠ [] := by
    simp only [ne_eq, List.filter_eq_nil_iff, not_forall, not_not, exists_prop]
  rw [hexists, findOneByPredicateAsync_eq, findOneBySpecificationAsync_eq]
  match documents.filter predicate.holds with
  | [] => exact iff_of_false (fun hanswers ↦ absurd hanswers.1 nofun) fun hne ↦ hne rfl
  | [document] => exact iff_of_true ⟨rfl, rfl⟩ (List.cons_ne_nil _ _)
  | _ :: _ :: _ => exact iff_of_true ⟨⟨_, rfl⟩, rfl⟩ (List.cons_ne_nil _ _)

/-- The predicate that a number is positive. -/
def positive : Predicate (fun _ : Unit ↦ ℕ) Empty (.base ()) where
  expression := Tree.positiveNumbers.matchingCriteria 0
  holds number := decide (0 < number)
  closed := Tree.positiveNumbers.closed 0
  evaluate_eq := Tree.positiveNumbers.evaluate_eq 0

/-- In an empty collection `FindOneAsync` of a predicate throws. -/
theorem findOneByPredicateAsync_empty :
    ¬ (Answers ([].filter positive.holds)
        (findOneByPredicateAsync (some positive.expression) []) ∧
      findOneByPredicateAsync (some positive.expression) [] =
        findOneBySpecificationAsync (some (adHoc (some positive.expression))) []) := by
  rintro ⟨hanswers, -⟩
  rw [findOneByPredicateAsync_eq] at hanswers
  exact absurd hanswers nofun

end FindOne

/-! ### Many documents -/

section GetAll

variable {TId Key Document : Type} [DecidableEq Key] {keyOf : Document → Key}

/-- The dictionary that `LoadAsync` of keys answers with: an entry for each of the keys, null where no
document is loaded. -/
structure LoadedDocuments (contents : Contents keyOf) (keys : List Key) where
  entries : List (Key × Option Document)
  nodup_keys : (entries.map Prod.fst).Nodup
  mem_keys_iff : ∀ key, key ∈ entries.map Prod.fst ↔ key ∈ keys
  value_eq : ∀ entry ∈ entries, entry.2 = contents.find entry.1

/-- The dictionary with its entries in the order of the keys. -/
def LoadedDocuments.ofKeys (contents : Contents keyOf) (keys : List Key) :
    LoadedDocuments contents keys where
  entries := keys.dedup.map fun key ↦ (key, contents.find key)
  nodup_keys := by
    rw [List.map_map]
    exact (List.map_id _).symm ▸ keys.nodup_dedup
  mem_keys_iff key := by
    rw [List.map_map]
    exact (List.map_id keys.dedup).symm ▸ List.mem_dedup
  value_eq := by
    intro entry hentry
    obtain ⟨key, -, rfl⟩ := List.mem_map.mp hentry
    rfl

namespace StoredRepository

/-- What `LoadAsync` of a key answers with in a session. -/
def loaded (repository : StoredRepository TId keyOf) (session : DocumentSession Key Document) :
    Contents keyOf where
  find := repository.loadAsync session
  keyOf_eq := repository.loadAsync_key session

/-- `GetAllAsync` of identifiers. A null stands for an element that is null. -/
def getAllAsync (repository : StoredRepository TId keyOf) (session : DocumentSession Key Document)
    (loadAsync : ∀ keys, LoadedDocuments (repository.loaded session) keys) (ids : List TId) :
    List (Option Document) :=
  (loadAsync (ids.map repository.toKey)).entries.map fun kvp ↦ kvp.2

/-- Some identifiers name each document once that a sequence of identifiers names. -/
structure NamesOnce (repository : StoredRepository TId keyOf) (ids distinct : List TId) : Prop where
  nodup_keys : (distinct.map repository.toKey).Nodup
  mem_keys_iff : ∀ key, key ∈ distinct.map repository.toKey ↔ key ∈ ids.map repository.toKey

/-- A list of the stored documents with one of the identifiers, each once and nothing else, as `GetAsync`
finds them. -/
structure LoadsEachOnce (repository : StoredRepository TId keyOf)
    (session : DocumentSession Key Document) (ids : List TId) (result : List (Option Document)) :
    Prop where
  not_null : none ∉ result
  nodup : result.Nodup
  mem_iff : ∀ document, some document ∈ result ↔
    ∃ id ∈ ids, repository.toRavenDbRepository.getAsync id session = some document
  perm_getAsync : ∀ distinct, repository.NamesOnce ids distinct → result.Perm
    ((distinct.filterMap fun id ↦ repository.toRavenDbRepository.getAsync id session).map some)

variable {repository : StoredRepository TId keyOf} {session : DocumentSession Key Document}
  {loadAsync : ∀ keys, LoadedDocuments (repository.loaded session) keys} {ids : List TId}

/-- The values are what `LoadAsync` answers for each key of the dictionary. -/
theorem getAllAsync_eq :
    repository.getAllAsync session loadAsync ids =
      ((loadAsync (ids.map repository.toKey)).entries.map Prod.fst).map
        (repository.loadAsync session) := by
  rw [List.map_map]
  exact List.map_congr_left (loadAsync _).value_eq

theorem mem_getAllAsync_iff (value : Option Document) :
    value ∈ repository.getAllAsync session loadAsync ids ↔
      ∃ id ∈ ids, repository.toRavenDbRepository.getAsync id session = value := by
  rw [getAllAsync_eq, List.mem_map]
  simp only [(loadAsync _).mem_keys_iff, List.mem_map]
  constructor
  · rintro ⟨key, ⟨id, hid, rfl⟩, rfl⟩
    exact ⟨id, hid, rfl⟩
  · rintro ⟨id, hid, rfl⟩
    exact ⟨repository.toKey id, ⟨id, hid, rfl⟩, rfl⟩

/-- `GetAllAsync` returns what `GetAsync` answers for each of the identifiers, nulls included. -/
theorem getAllAsync_perm {distinct : List TId} (hnames : repository.NamesOnce ids distinct) :
    (repository.getAllAsync session loadAsync ids).Perm
      (distinct.map fun id ↦ repository.toRavenDbRepository.getAsync id session) := by
  have hkeys : ((loadAsync (ids.map repository.toKey)).entries.map Prod.fst).Perm
      (distinct.map repository.toKey) := by
    refine (List.perm_ext_iff_of_nodup (loadAsync _).nodup_keys hnames.nodup_keys).mpr fun key ↦ ?_
    rw [(loadAsync _).mem_keys_iff, hnames.mem_keys_iff]
  have hget : (distinct.map fun id ↦ repository.toRavenDbRepository.getAsync id session) =
      (distinct.map repository.toKey).map (repository.loadAsync session) := List.map_map.symm
  rw [getAllAsync_eq, hget]
  exact hkeys.map _

/-- When a document is found for every identifier, no document is returned twice. -/
theorem nodup_getAllAsync
    (hfound : ∀ id ∈ ids, repository.toRavenDbRepository.getAsync id session ≠ none) :
    (repository.getAllAsync session loadAsync ids).Nodup := by
  rw [getAllAsync_eq]
  refine List.Nodup.map_on (fun key hkey other _ hsame ↦ ?_) (loadAsync _).nodup_keys
  obtain ⟨id, hid, rfl⟩ := List.mem_map.mp (((loadAsync _).mem_keys_iff key).mp hkey)
  obtain ⟨document, hdocument⟩ := Option.ne_none_iff_exists'.mp (hfound id hid)
  -- A document is loaded under its own key only.
  have hkeyOf := repository.loadAsync_key session _ document hdocument
  exact hkeyOf.symm.trans (repository.loadAsync_key session other document
    (hsame.symm.trans hdocument))

/-- `GetAllAsync` returns the stored documents with one of the identifiers, each once, nothing else and
no null, exactly when every identifier of the sequence is one of a stored document. -/
theorem getAllAsync_correct_iff (repository : StoredRepository TId keyOf)
    (session : DocumentSession Key Document)
    (loadAsync : ∀ keys, LoadedDocuments (repository.loaded session) keys) (ids : List TId) :
    repository.LoadsEachOnce session ids (repository.getAllAsync session loadAsync ids) ↔
      ∀ id ∈ ids, repository.toRavenDbRepository.getAsync id session ≠ none := by
  constructor
  · intro hloads id hid hmissing
    exact hloads.not_null ((mem_getAllAsync_iff none).mpr ⟨id, hid, hmissing⟩)
  · intro hfound
    refine ⟨?_, nodup_getAllAsync hfound, fun document ↦ mem_getAllAsync_iff _, ?_⟩
    · intro hnull
      obtain ⟨id, hid, hmissing⟩ := (mem_getAllAsync_iff none).mp hnull
      exact hfound id hid hmissing
    · intro distinct hnames
      have hperm : (repository.getAllAsync session loadAsync ids).Perm
          (distinct.map fun id ↦ repository.toRavenDbRepository.getAsync id session) :=
        getAllAsync_perm hnames
      have hsome : ∀ value ∈ distinct.map fun id ↦
          repository.toRavenDbRepository.getAsync id session, value.isSome = true := by
        intro value hvalue
        obtain ⟨id, hid, rfl⟩ := (mem_getAllAsync_iff value).mp (hperm.mem_iff.mpr hvalue)
        exact Option.isSome_iff_ne_none.mpr (hfound id hid)
      rw [List.map_filterMap_some_eq_filter_map_isSome, List.filter_eq_self.mpr hsome]
      exact hperm

/-- Asked for a document that does not exist, `GetAllAsync` returns a list with a null. -/
theorem getAllAsync_missing :
    ¬ (reading true (fun id : ℕ ↦ id) (Contents.empty fun document : ℕ ↦ document)).LoadsEachOnce
      {} [5] ((reading true (fun id : ℕ ↦ id) (Contents.empty fun document : ℕ ↦ document)
        ).getAllAsync {} (LoadedDocuments.ofKeys _) [5]) := by
  intro hloads
  exact hloads.not_null (by decide)

end StoredRepository

end GetAll

end SharpArch.RavenDb
