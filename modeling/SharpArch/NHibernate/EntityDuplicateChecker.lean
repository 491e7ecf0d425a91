import SharpArch.Foundation.SqlLike
import SharpArch.Platform.SystemTransactions

/-!
# The duplicate checker

`EntityDuplicateChecker` looks for a stored row with another identifier and the domain signature of an
entity. It turns every signature property into restrictions on the columns of the property, one way
for each kind of property type, and the properties of a value object one by one.

Entities and rows are typed by their class: a property holds a value of its type. A row is an entity
as it is stored, so its references are to stored entities. Restrictions are on columns: a value is
stored as itself and a null value object as a null in each of its columns. `Eq` with null selects the
rows in which the column is null.
-/

set_option autoImplicit false
set_option relaxedAutoImplicit false

namespace SharpArch.NHibernate

open Foundation.SqlLike Platform.SystemTransactions

/-! ### Classes -/

/-- The underlying types of enums. -/
inductive UnderlyingType
  | sbyte | byte | int16 | uint16 | int32 | uint32 | int64 | uint64
deriving DecidableEq, Repr

/-- The property types that `AppendSimplePropertyCriteriaTo` tells apart. A nullable enum or
`DateTime` is a nullable value type. -/
inductive SimpleType
  | enumeration (underlying : UnderlyingType)
  | dateTime
  | string
  | valueType (nullable : Bool)
  | other
deriving DecidableEq, Repr

/-- A property of a value object. -/
structure ComponentInfo where
  name : String
  type : SimpleType

/-- A value object class and what `GetSignatureProperties` returns for it. -/
structure ValueObjectClass (Property : Type) where
  signature : List Property
  component : Property → ComponentInfo

/-- The property types that `AppendSignaturePropertyCriteriaTo` tells apart: classes that implement
`IEntity<>`, value object classes and the rest. -/
inductive PropertyType (Property : Type)
  | entity
  | valueObject (components : ValueObjectClass Property)
  | simple (type : SimpleType)

/-- A property of an entity. -/
structure PropertyInfo (Property : Type) where
  name : String
  type : PropertyType Property

/-- An entity class and what `GetSignatureProperties` returns for it. -/
structure EntityClass (Property : Type) where
  name : String
  signature : List Property
  property : Property → PropertyInfo Property

/-! ### Values -/

variable {Property Key Plain : Type}

/-- The values of a simple type. A `DateTime` is its number of ticks. -/
@[reducible] def SimpleType.Value (Plain : Type) : SimpleType → Type
  | .enumeration _ => ℤ
  | .dateTime => ℕ
  | .string => Option String
  | .valueType false => Plain
  | .valueType true => Option Plain
  | .other => Option Plain

/-- The values of a property type, references to entities being of a given kind. -/
@[reducible] def PropertyType.Value (Referred Plain : Type) : PropertyType Property → Type
  | .entity => Option Referred
  | .valueObject components =>
    Option (∀ property, (components.component property).type.Value Plain)
  | .simple type => type.Value Plain

/-- The `Id` of an `Entity<TId>` and `default(TId)`. -/
structure Identity (Key : Type) where
  id : Option Key
  defaultId : Option Key
deriving DecidableEq

/-- `GetId`: null for a transient entity. -/
def Identity.getId [DecidableEq Key] (identity : Identity Key) : Option Key :=
  match identity.id with
  | none => none
  | some id => if identity.defaultId = some id then none else some id

/-- An object of a class that implements `IEntity<>`, which does not make it an `IEntity`. -/
structure Referred (Key : Type) extends Identity Key where
  isIEntity : Bool
deriving DecidableEq

/-- An entity in memory. -/
structure Entity (entityType : EntityClass Property) (Key Plain : Type) where
  identity : Identity Key
  values : ∀ property, (entityType.property property).type.Value (Referred Key) Plain

/-- A stored entity. What it refers to is stored as well. -/
structure Row (entityType : EntityClass Property) (Key Plain : Type) where
  id : Key
  values : ∀ property, (entityType.property property).type.Value Key Plain

/-! ### Columns -/

/-- What a column holds. -/
inductive SqlValue (Key Plain : Type)
  | null
  | key (value : Key)
  | integer (value : ℤ)
  | dateTime (ticks : ℕ)
  | text (value : String)
  | plain (value : Plain)
deriving DecidableEq

/-- The columns of a property: its own, that of the identifier it refers to, or that of a property of
the value object. -/
inductive Column (Property : Type)
  | whole
  | id
  | component (property : Property)

/-- What a criterion is about. -/
inductive Path (Property : Type)
  | id
  | property (property : Property) (column : Column Property)

/-- A value that may be null. -/
def SqlValue.ofOption {α : Type} (ofValue : α → SqlValue Key Plain) : Option α → SqlValue Key Plain
  | none => .null
  | some value => ofValue value

/-- A simple value is stored as itself. -/
def SimpleType.store : (type : SimpleType) → type.Value Plain → SqlValue Key Plain
  | .enumeration _, value => .integer value
  | .dateTime, ticks => .dateTime ticks
  | .string, value => .ofOption .text value
  | .valueType false, value => .plain value
  | .valueType true, value => .ofOption .plain value
  | .other, value => .ofOption .plain value

/-- What the columns of a property hold. -/
def PropertyType.store :
    (type : PropertyType Property) → type.Value Key Plain → Column Property → SqlValue Key Plain
  | .entity, value, .id => .ofOption .key value
  | .valueObject components, some values, .component property =>
    (components.component property).type.store (values property)
  | .simple type, value, .whole => type.store value
  | _, _, _ => .null

/-- The columns of a row. -/
def Row.column {entityType : EntityClass Property} (row : Row entityType Key Plain) :
    Path Property → SqlValue Key Plain
  | .id => .key row.id
  | .property property column =>
    (entityType.property property).type.store (row.values property) column

/-! ### Restrictions -/

/-- The restrictions that the checker makes. -/
inductive Restriction (Property Key Plain : Type)
  | not (restriction : Restriction Property Key Plain)
  | eq (path : Path Property) (value : SqlValue Key Plain)
  | isNull (path : Path Property)
  | insensitiveLike (path : Path Property) (value : String)

/-- A restriction selects a row. -/
def Restriction.selects [DecidableEq Key] [DecidableEq Plain] (letterCase : LetterCase)
    {entityType : EntityClass Property} (row : Row entityType Key Plain) :
    Restriction Property Key Plain → Bool
  | .not restriction => !restriction.selects letterCase row
  | .eq path value => row.column path = value
  | .isNull path => row.column path = .null
  | .insensitiveLike path value =>
    match row.column path with
    | .text text => letterCase.insensitiveLike text value
    | _ => false

/-- Restrictions added in a loop that ends at the first exception. -/
def addAll {Item : Type} (restrictions : Item → Except Exn (List (Restriction Property Key Plain))) :
    List Item → Except Exn (List (Restriction Property Key Plain))
  | [] => .ok []
  | item :: rest =>
    match restrictions item with
    | .error exception => .error exception
    | .ok added => (addAll restrictions rest).map fun more ↦ added ++ more

/-! ### The checker -/

def appendEntityIdCriteriaTo [DecidableEq Key] (path : Path Property) :
    Option (Referred Key) → Except Exn (Restriction Property Key Plain)
  | some propertyValue =>
    if propertyValue.isIEntity then .ok (.eq path (.ofOption .key propertyValue.getId))
    else .error .invalidCast
  | none => .ok (.isNull path)

def appendStringPropertyCriteriaTo (path : Path Property) :
    Option String → Restriction Property Key Plain
  | some propertyValue => .insensitiveLike path propertyValue
  | none => .isNull path

def appendValuePropertyCriteriaTo (path : Path Property) :
    Option Plain → Restriction Property Key Plain
  | some propertyValue => .eq path (.plain propertyValue)
  | none => .isNull path

-- A boxed null is told apart although the property is not nullable.
def appendDateTimePropertyCriteriaTo (path : Path Property) :
    Option ℕ → Restriction Property Key Plain
  | none => .eq path .null
  | some propertyValue =>
    if 0 < propertyValue then .eq path (.dateTime propertyValue) else .isNull path

def getPropertyName (parentPropertyName : String) (signatureProperty : String) : String :=
  if parentPropertyName.isEmpty then signatureProperty
  else if parentPropertyName.endsWith "." then parentPropertyName ++ signatureProperty
  else parentPropertyName ++ "." ++ signatureProperty

/-- The message for a property that no criterion can be made for. -/
def unsupportedPropertyMessage (entityType propertyName : String) : String :=
  "Can't determine how to use " ++ entityType ++ "." ++ propertyName ++
    " when looking for duplicate entries. To remedy this, " ++
    "you can create a custom validator or report an issue to the S#arp Architecture " ++
    "project, detailing the type that you'd like to be accommodated."

-- Unboxing an enum to `int` is an invalid cast unless `int` is its underlying type.
def appendSimplePropertyCriteriaTo (entityType propertyName : String) (path : Path Property) :
    (type : SimpleType) → type.Value Plain → Except Exn (Restriction Property Key Plain)
  | .enumeration .int32, propertyValue => .ok (.eq path (.integer propertyValue))
  | .enumeration _, _ => .error .invalidCast
  | .dateTime, propertyValue => .ok (appendDateTimePropertyCriteriaTo path (some propertyValue))
  | .string, propertyValue => .ok (appendStringPropertyCriteriaTo path propertyValue)
  | .valueType false, propertyValue => .ok (appendValuePropertyCriteriaTo path (some propertyValue))
  | .valueType true, propertyValue => .ok (appendValuePropertyCriteriaTo path propertyValue)
  | .other, _ => .error (.invalidOperation (unsupportedPropertyMessage entityType propertyName))

def appendValueObjectSignaturePropertyCriteriaTo (entityType valueObjectPropertyName : String)
    (property : Property) (components : ValueObjectClass Property) :
    Option (∀ component, (components.component component).type.Value Plain) →
      Except Exn (List (Restriction Property Key Plain))
  | none => .ok []
  | some valueObject =>
    addAll (fun component ↦
      (appendSimplePropertyCriteriaTo entityType
        (getPropertyName valueObjectPropertyName (components.component component).name)
        (.property property (.component component)) (components.component component).type
        (valueObject component)).map fun added ↦ [added]) components.signature

/-- The criteria of one property in the loop of `AppendSignaturePropertyCriteriaTo`. -/
def propertyCriteria [DecidableEq Key] (entityType propertyName : String) (property : Property) :
    (type : PropertyType Property) → type.Value (Referred Key) Plain →
      Except Exn (List (Restriction Property Key Plain))
  | .entity, propertyValue =>
    (appendEntityIdCriteriaTo (.property property .id) propertyValue).map fun added ↦ [added]
  | .valueObject components, propertyValue =>
    appendValueObjectSignaturePropertyCriteriaTo entityType propertyName property components
      propertyValue
  | .simple type, propertyValue =>
    (appendSimplePropertyCriteriaTo entityType propertyName (.property property .whole) type
      propertyValue).map fun added ↦ [added]

/-- The flush modes of a session. -/
inductive FlushMode
  | unspecified
  | manual
  | commit
  | auto
  | always
deriving DecidableEq, Repr

/-- A session over the table of a class. Its pending changes are changes of the table. -/
structure Session (entityType : EntityClass Property) (Key Plain : Type) where
  flushMode : FlushMode
  stored : List (Row entityType Key Plain)
  pending : List (List (Row entityType Key Plain) → List (Row entityType Key Plain))

section Checker

variable [DecidableEq Key] [DecidableEq Plain] (letterCase : LetterCase)
  {entityType : EntityClass Property}

def appendSignaturePropertyCriteriaTo (criteria : List (Restriction Property Key Plain))
    (entity : Entity entityType Key Plain) : Except Exn (List (Restriction Property Key Plain)) :=
  (addAll (fun property ↦ propertyCriteria entityType.name (entityType.property property).name property
    (entityType.property property).type (entity.values property)) entityType.signature).map
      fun added ↦ criteria ++ added

/-- `Flush`. -/
def Session.flush (session : Session entityType Key Plain) : Session entityType Key Plain :=
  { session with
    stored := session.pending.foldl (fun stored change ↦ change stored) session.stored
    pending := [] }

/-- `List` of a criteria with at most one result. A session in one of the automatic modes is flushed
first. -/
def Session.list (criteria : List (Restriction Property Key Plain))
    (session : Session entityType Key Plain) :
    List (Row entityType Key Plain) × Session entityType Key Plain :=
  let queried :=
    if session.flushMode = .auto ∨ session.flushMode = .always then session.flush else session
  ((queried.stored.filter fun row ↦ criteria.all (Restriction.selects letterCase row)).take 1,
    queried)

def doesDuplicateExistWithTypedIdOf (entity : Option (Entity entityType Key Plain))
    (session : Session entityType Key Plain) : Except Exn Bool × Session entityType Key Plain :=
  match entity with
  | none => (.error (.argumentNull "entity"), session)
  | some entity =>
    let previousFlushMode := session.flushMode
    let sessionForEntity := { session with flushMode := .manual }
    let checked : Except Exn Bool × Session entityType Key Plain :=
      match appendSignaturePropertyCriteriaTo
          [.not (.eq .id (.ofOption .key entity.identity.getId))] entity with
      | .error exception => (.error exception, sessionForEntity)
      | .ok criteria =>
        let (found, later) := sessionForEntity.list letterCase criteria
        (.ok (decide (found.length > 0)), later)
    (checked.1, { checked.2 with flushMode := previousFlushMode })

end Checker

end SharpArch.NHibernate
