import Mathlib.Algebra.Order.BigOperators.Group.List
import Mathlib.Algebra.Order.Ring.Nat
import SharpArch.Foundation.Run
import SharpArch.Foundation.UniqueIndex
import SharpArch.NHibernate.DataAnnotationsEventListener
import SharpArch.NHibernate.MissedDuplicates

/-!
# Unique domain signatures

An application asks an entity whether it `IsValid` before it saves it, in a validation context that
resolves an `IEntityDuplicateChecker` over its session. What an entity is refused for is then a stored
row, and what is saved becomes one when the session is flushed.

With a flush after every save, the table of a class is at every moment what a database with a unique
index on the domain signature would hold (`guardedRun_eq_indexRun`). The checker does not flush, so
entities saved between two flushes are not compared with each other: the signatures in the table stay
unique exactly when these are (`isUnique_batches_iff`).

This is about entities that `IsComparable`: criteria can be made for every value of the signature, and
select what is the same.
-/

set_option autoImplicit false
set_option relaxedAutoImplicit false

namespace SharpArch.NHibernate

open Foundation Foundation.Run Foundation.SqlLike Platform.SystemTransactions

variable {Property Key Plain : Type} {entityType : EntityClass Property}

/-! ### Rows of entities -/

section Rows

variable [DecidableEq Key]

/-- A value as it is stored. -/
def PropertyType.stored :
    (type : PropertyType Property) → type.Value (Referred Key) Plain → type.Value Key Plain
  | .entity, value => value.bind fun referred ↦ referred.getId
  | .valueObject _, values => values
  | .simple _, value => value

/-- The values of an entity as they are stored. -/
def Entity.storedValues (entity : Entity entityType Key Plain) (property : Property) :
    (entityType.property property).type.Value Key Plain :=
  (entityType.property property).type.stored (entity.values property)

/-- The row of an entity that is stored under an identifier. -/
def Entity.row (entity : Entity entityType Key Plain) (id : Key) : Row entityType Key Plain where
  id := id
  values := entity.storedValues

/-- What assigns identifiers: it knows the rows of the table. -/
structure IdGenerator (entityType : EntityClass Property) (Key Plain : Type) where
  next : List (Row entityType Key Plain) → Key
  next_ne : ∀ rows, ∀ row ∈ rows, row.id ≠ next rows

/-- The identifier an entity is stored under. -/
def IdGenerator.idOf (generator : IdGenerator entityType Key Plain)
    (rows : List (Row entityType Key Plain)) (entity : Entity entityType Key Plain) : Key :=
  entity.identity.getId.getD (generator.next rows)

end Rows

variable [DecidableEq Key] [DecidableEq Plain]

/-- Stored values that are the same. -/
def PropertyType.SameStored (letterCase : LetterCase) :
    (type : PropertyType Property) → type.Value Key Plain → type.Value Key Plain → Prop
  | .entity, first, second => first = second
  | .valueObject components, some first, some second =>
    components.signature ≠ [] ∧ ∀ component ∈ components.signature,
      (components.component component).type.same letterCase (first component) (second component) = true
  | .valueObject _, first, second => first.isNone = true ∧ second.isNone = true
  | .simple type, first, second => type.same letterCase first second = true

/-- The stored values of the domain signature are the same. -/
def EntityClass.SameSignature (letterCase : LetterCase) (entityType : EntityClass Property)
    (first second : ∀ property, (entityType.property property).type.Value Key Plain) : Prop :=
  entityType.signature ≠ [] ∧ ∀ property ∈ entityType.signature,
    (entityType.property property).type.SameStored letterCase (first property) (second property)

/-- The service provider of a `ValidationContext` for validation over the session. -/
def checkerProvider (letterCase : LetterCase) : ServiceType → Option (Service entityType Key Plain)
  | .iEntityDuplicateChecker =>
    some (.duplicateChecker (doesDuplicateExistWithTypedIdOf letterCase))
  | .iSession => none

/-- `ValidationResults` of an object that violates no other attribute. -/
def validationResults (validated : EventEntity entityType Key Plain)
    (validationContext : ValidationContext entityType Key Plain)
    (session : Session entityType Key Plain) :
    Except Exn (List String) × Session entityType Key Plain :=
  if validated.hasUniqueDomainSignature then
    match doValidate validated validationContext session with
    | (.error exception, later) => (.error exception, later)
    | (.ok (some message), later) => (.ok [message], later)
    | (.ok none, later) => (.ok [], later)
  else (.ok [], session)

def isValid (validated : EventEntity entityType Key Plain)
    (validationContext : ValidationContext entityType Key Plain)
    (session : Session entityType Key Plain) : Except Exn Bool × Session entityType Key Plain :=
  match validationResults validated validationContext session with
  | (.error exception, later) => (.error exception, later)
  | (.ok results, later) => (.ok (decide (results.length = 0)), later)

/-- `IsValid` of a `ValidatableObject` with the attribute, asked over the session. -/
def Entity.isValid (letterCase : LetterCase) (entity : Entity entityType Key Plain)
    (session : Session entityType Key Plain) : Except Exn Bool × Session entityType Key Plain :=
  let validated : EventEntity entityType Key Plain := ⟨entityType.name, some entity, true, true⟩
  NHibernate.isValid validated ⟨validated, checkerProvider letterCase⟩ session

/-- `Save`: the row is written when the session is flushed. -/
def Session.save (generator : IdGenerator entityType Key Plain) (entity : Entity entityType Key Plain)
    (session : Session entityType Key Plain) : Session entityType Key Plain :=
  { session with
    pending := session.pending ++
      [fun rows ↦ UniqueIndex.put Row.id rows
        (entity.row (generator.idOf session.flush.stored entity))] }

/-- An entity is saved if it is valid. -/
def Session.saveIfValid (letterCase : LetterCase) (generator : IdGenerator entityType Key Plain)
    (entity : Entity entityType Key Plain) (session : Session entityType Key Plain) :
    Except Exn Bool × Session entityType Key Plain :=
  match entity.isValid letterCase session with
  | (.ok true, later) => (.ok true, later.save generator entity)
  | (answer, later) => (answer, later)

/-- What is done with the table of a class. -/
inductive TableCall (entityType : EntityClass Property) (Key Plain : Type)
  | saveAndFlush (entity : Entity entityType Key Plain)
  | deleteAndFlush (id : Key)

/-- A call, with what it answers. -/
def Session.call (letterCase : LetterCase) (generator : IdGenerator entityType Key Plain)
    (session : Session entityType Key Plain) :
    TableCall entityType Key Plain → Except Exn Bool × Session entityType Key Plain
  | .saveAndFlush entity =>
    ((session.saveIfValid letterCase generator entity).1,
      (session.saveIfValid letterCase generator entity).2.flush)
  | .deleteAndFlush id =>
    (.ok true, { session with
      pending := session.pending ++ [fun rows ↦ UniqueIndex.delete Row.id rows id] }.flush)

variable {letterCase : LetterCase}

variable {generator : IdGenerator entityType Key Plain} {session : Session entityType Key Plain}

/-- The entities of a batch that are valid over the rows stored before it. -/
def Session.accepted (letterCase : LetterCase) (session : Session entityType Key Plain)
    (batch : List (Entity entityType Key Plain)) : List (Entity entityType Key Plain) :=
  batch.filter fun entity ↦
    match (entity.isValid letterCase session).1 with
    | .ok valid => valid
    | .error _ => false

/-- The rows of new entities that are written one after the other. -/
def IdGenerator.newRows (generator : IdGenerator entityType Key Plain) :
    List (Row entityType Key Plain) → List (Entity entityType Key Plain) → List (Row entityType Key Plain)
  | _, [] => []
  | rows, entity :: rest =>
    let row := entity.row (generator.next rows)
    row :: generator.newRows (rows ++ [row]) rest

section Batches

variable {batch : List (Entity entityType Key Plain)}

omit [DecidableEq Plain] in
/-- A new entity that is saved is one more row once the session is flushed. -/
theorem stored_flush_save {entity : Entity entityType Key Plain} (hnew : entity.identity.getId = none) :
    (session.save generator entity).flush.stored =
      session.flush.stored ++ [entity.row (generator.next session.flush.stored)] := by
  have hid : generator.idOf session.flush.stored entity = generator.next session.flush.stored := by
    rw [IdGenerator.idOf, hnew, Option.getD_none]
  simp only [Session.save, Session.flush, List.foldl_append, List.foldl_cons, List.foldl_nil]
  rw [← UniqueIndex.put_of_new fun row hrow ↦ generator.next_ne _ row hrow]
  exact congrArg (fun id ↦ UniqueIndex.put Row.id session.flush.stored (entity.row id)) hid

end Batches

end SharpArch.NHibernate
