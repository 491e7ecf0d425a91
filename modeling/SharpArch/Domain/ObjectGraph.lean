import SharpArch.Domain.SignatureCache
import SharpArch.Foundation.Fuel

/-!
# Graphs of domain objects

Entities and value objects live at addresses and refer to each other through their properties. A
reference to an object is the object itself or a proxy of it. A proxy forwards every virtual member
to its target, so that `this` is the target in all code below; only `ReferenceEquals` and a
non-virtual member can tell the two apart.

`objectEquals` is the virtual `Equals(object)`: that of `Entity<TId>` on an entity and that of
`BaseObject` on a value object. The values of two signature properties are compared with the
`Equals` of the first, which brings the recursion back; the body takes the function for that call.
-/

set_option autoImplicit false
set_option relaxedAutoImplicit false

namespace SharpArch.Domain.DomainModel

open Foundation.Fuel Platform.SystemTransactions

/-- The `Equals` and `GetHashCode` of a type of values, which agree with each other. -/
structure ValueSemantics (Value : Type) where
  equals : Value → Value → Bool
  hashCode : Value → Int32
  equals_refl : ∀ value, equals value value = true
  equals_symm : ∀ first second, equals first second = equals second first
  equals_trans : ∀ first second third, equals first second = true →
    equals second third = true → equals first third = true
  hashCode_of_equals : ∀ first second, equals first second = true →
    hashCode first = hashCode second

/-- Values compared by equality. -/
def ValueSemantics.ofEq {Value : Type} [DecidableEq Value] (hashCode : Value → Int32) :
    ValueSemantics Value where
  equals := fun first second ↦ first = second
  hashCode := hashCode
  equals_refl := by simp
  equals_symm := by simp [eq_comm]
  equals_trans := by
    intro first second third hfirst hsecond
    simp only [decide_eq_true_eq] at hfirst hsecond ⊢
    exact hfirst.trans hsecond
  hashCode_of_equals := by
    intro first second hequal
    simp only [decide_eq_true_eq] at hequal
    rw [hequal]

/-- An `Entity<TId>` for a type `TId`, or a `ValueObject`. -/
inductive ObjectKind (Class : Type)
  | entity (idType : Class)
  | valueObject
  deriving DecidableEq, Repr

/-- The classes of a program and the values its objects are made of. `defaultId` is `default(TId)`,
which is null for a reference type, and `identityHash` the hash code of `object`. -/
structure ClassTable (Class Property Leaf Key Address : Type) where
  classes : Class → ClassInfo Property
  kind : Class → ObjectKind Class
  defaultId : Class → Option Key
  leaves : ValueSemantics Leaf
  keys : ValueSemantics Key
  typeHash : Class → Int32
  identityHash : Address → Int32

/-- A reference to the object at an address, or one of the proxies of it. -/
inductive Reference (Address : Type)
  | direct (target : Address)
  | proxy (number : ℕ) (target : Address)
  deriving DecidableEq, Repr

/-- What a property holds. -/
inductive PropertyValue (Leaf Address : Type)
  | null
  | leaf (value : Leaf)
  | object (reference : Reference Address)
  deriving DecidableEq, Repr

/-- An entity or a value object, of which only an entity has an identifier. -/
structure DomainObject (Class Property Leaf Key Address : Type) where
  type : Class
  id : Option Key := none
  values : Property → PropertyValue Leaf Address

/-- The objects of a program, by address. -/
abbrev Heap (Class Property Leaf Key Address : Type) :=
  Address → DomainObject Class Property Leaf Key Address

variable {Class Property Leaf Key Address : Type}

/-- The object that executes the members called through a reference. -/
def Reference.target : Reference Address → Address
  | .direct target => target
  | .proxy _ target => target

/-! ### Transience -/

/-- `default(TId)` for the entities of a class. -/
def ClassTable.defaultIdOf (table : ClassTable Class Property Leaf Key Address) (type : Class) :
    Option Key :=
  match table.kind type with
  | .entity idType => table.defaultId idType
  | .valueObject => none

/-- `IsTransient`. -/
def isTransient (table : ClassTable Class Property Leaf Key Address)
    (object : DomainObject Class Property Leaf Key Address) : Bool :=
  match object.id with
  | none => true
  | some id =>
    match table.defaultIdOf object.type with
    | none => false
    | some default => table.keys.equals id default

/-- `GetId`. -/
def getId (table : ClassTable Class Property Leaf Key Address)
    (object : DomainObject Class Property Leaf Key Address) : Option Key :=
  if isTransient table object then none else object.id

/-- An entity that is in the store. -/
def IsPersisted (table : ClassTable Class Property Leaf Key Address)
    (object : DomainObject Class Property Leaf Key Address) : Prop :=
  (∃ idType, table.kind object.type = .entity idType) ∧ isTransient table object = false

/-- `HasSameNonDefaultIdAs`. -/
def hasSameNonDefaultIdAs (table : ClassTable Class Property Leaf Key Address)
    (this compareTo : DomainObject Class Property Leaf Key Address) : Bool :=
  !isTransient table this && !isTransient table compareTo &&
    match this.id, compareTo.id with
    | some id, some other => table.keys.equals id other
    | _, _ => false

/-! ### Equality -/

/-- How a call of `Equals` ends; `none` when the recursion is not unfolded far enough. -/
abbrev EqualsAnswer := Option (Except Exn Bool)

/-- The recursive call of `Equals`. -/
abbrev EqualsCall (Leaf Address : Type) :=
  Reference Address × PropertyValue Leaf Address → EqualsAnswer

/-- The comparison of two property values in the loop of `HasSameObjectSignatureAs`. -/
def samePropertyValue (table : ClassTable Class Property Leaf Key Address)
    (equals : EqualsCall Leaf Address) :
    PropertyValue Leaf Address → PropertyValue Leaf Address → EqualsAnswer
  | .null, .null => some (.ok true)
  | .null, _ => some (.ok false)
  | _, .null => some (.ok false)
  | .leaf value, .leaf other => some (.ok (table.leaves.equals value other))
  | .leaf _, .object _ => some (.ok false)
  | .object reference, value => equals (reference, value)

/-- The loop of `HasSameObjectSignatureAs`, which ends at the first difference. -/
def samePropertyValues (table : ClassTable Class Property Leaf Key Address)
    (equals : EqualsCall Leaf Address) (this compareTo : Property → PropertyValue Leaf Address) :
    List Property → EqualsAnswer
  | [] => some (.ok true)
  | property :: rest =>
    match samePropertyValue table equals (this property) (compareTo property) with
    | some (.ok true) => samePropertyValues table equals this compareTo rest
    | answer => answer

variable [DecidableEq Class] [DecidableEq Address]

/-- `HasSameObjectSignatureAs`. -/
def hasSameObjectSignatureAs (table : ClassTable Class Property Leaf Key Address)
    (heap : Heap Class Property Leaf Key Address) (equals : EqualsCall Leaf Address)
    (this : Address) (compareTo : Reference Address) : EqualsAnswer :=
  match signatureOf table.classes (heap this).type with
  | .error exception => some (.error exception)
  | .ok [] => some (.ok (compareTo = .direct this))
  | .ok properties =>
    samePropertyValues table equals (heap this).values (heap compareTo.target).values properties

/-- `BaseObject.Equals(object)`. -/
def baseObjectEquals (table : ClassTable Class Property Leaf Key Address)
    (heap : Heap Class Property Leaf Key Address) (equals : EqualsCall Leaf Address)
    (this : Address) : PropertyValue Leaf Address → EqualsAnswer
  | .object compareTo =>
    if compareTo = .direct this then some (.ok true)
    else if (heap this).type = (heap compareTo.target).type then
      hasSameObjectSignatureAs table heap equals this compareTo
    else some (.ok false)
  | _ => some (.ok false)

/-- `Entity<TId>.Equals(Entity<TId>)`. -/
def entityEquals (table : ClassTable Class Property Leaf Key Address)
    (heap : Heap Class Property Leaf Key Address) (equals : EqualsCall Leaf Address)
    (this : Address) : Option (Reference Address) → EqualsAnswer
  | none => some (.ok false)
  | some other =>
    if other = .direct this then some (.ok true)
    else if (heap this).type ≠ (heap other.target).type then some (.ok false)
    else if hasSameNonDefaultIdAs table (heap this) (heap other.target) then some (.ok true)
    else if isTransient table (heap this) && isTransient table (heap other.target) then
      hasSameObjectSignatureAs table heap equals this other
    else some (.ok false)

/-- `obj as Entity<TId>`. -/
def asEntity (table : ClassTable Class Property Leaf Key Address)
    (heap : Heap Class Property Leaf Key Address) (idType : Class) :
    PropertyValue Leaf Address → Option (Reference Address)
  | .object reference =>
    if table.kind (heap reference.target).type = .entity idType then some reference else none
  | _ => none

/-- The body of the virtual `Equals(object)`: the override of the class of the object. -/
def objectEqualsBody (table : ClassTable Class Property Leaf Key Address)
    (heap : Heap Class Property Leaf Key Address) (equals : EqualsCall Leaf Address)
    (call : Reference Address × PropertyValue Leaf Address) : EqualsAnswer :=
  match table.kind (heap call.1.target).type with
  | .entity idType =>
    entityEquals table heap equals call.1.target (asEntity table heap idType call.2)
  | .valueObject => baseObjectEquals table heap equals call.1.target call.2

/-- `Equals(object)`, unfolded a number of times. -/
def objectEquals (table : ClassTable Class Property Leaf Key Address)
    (heap : Heap Class Property Leaf Key Address) (n : ℕ) (this : Reference Address)
    (obj : PropertyValue Leaf Address) : EqualsAnswer :=
  approx (objectEqualsBody table heap) n (this, obj)

/-! ### The other ways to compare -/

/-- A reference that may be null, as an argument. -/
def PropertyValue.ofReference : Option (Reference Address) → PropertyValue Leaf Address
  | none => .null
  | some reference => .object reference

/-- `BaseObjectEqualityComparer.Equals`. -/
def comparerEquals (table : ClassTable Class Property Leaf Key Address)
    (heap : Heap Class Property Leaf Key Address) (n : ℕ)
    (firstObject secondObject : Option (Reference Address)) : EqualsAnswer :=
  if firstObject.isNone && secondObject.isNone then some (.ok true)
  else if xor firstObject.isNone secondObject.isNone then some (.ok false)
  else
    match firstObject with
    | none => some (.ok false)
    | some firstObject => objectEquals table heap n firstObject (.ofReference secondObject)

end SharpArch.Domain.DomainModel
