import SharpArch.Foundation.MemoTable
import SharpArch.Foundation.Run
import SharpArch.Platform.SystemTransactions

/-!
# Signature properties and their cache

Every domain class has a list of signature properties: those marked with `DomainSignatureAttribute`
for an entity, all of them for a value object, which throws when one is marked, and whatever an
overriding class returns. `BaseObject.GetSignatureProperties` looks the list up in a cache shared by
all classes. The key is the unproxied class of the object, but the factory asks the object itself,
whose runtime class may be a subclass that only pretends to be the unproxied one.

`getSignatureProperties_correct_iff` shows what that is worth over histories of any length: all calls
answer with the signature properties of the unproxied class exactly when each of them either finds
that class in the cache or comes from an object whose runtime class has the same signature
properties. Among objects of the second kind no answer depends on the calls before it
(`answers_of_history`).
-/

set_option autoImplicit false
set_option relaxedAutoImplicit false

namespace SharpArch.Domain.DomainModel

open Foundation.Run Foundation.MemoTable Platform.SystemTransactions

/-! ### Classes -/

/-- Which `GetTypeSpecificSignatureProperties` a class inherits: that of `Entity`, that of
`ValueObject`, or one of its own. -/
inductive SignatureRule (Property : Type)
  | entity
  | valueObject
  | overridden (properties : Except Exn (Option (List Property)))

/-- What reflection says of a class. -/
structure ClassInfo (Property : Type) where
  name : String
  properties : List Property
  hasDomainSignature : Property → Bool
  rule : SignatureRule Property

variable {Class Property : Type}

/-- The message of a value object class with a marked property. -/
def markedValueObjectMessage (name : String) : String :=
  "Properties were found within " ++ name ++
    " having the\n                [DomainSignature] attribute. " ++
    "The domain signature of a value object includes all\n                " ++
    "of the properties of the object by convention; consequently, adding [DomainSignature]\n" ++
    "                to the properties of a value object's properties is misleading and should be " ++
    "removed. \n                Alternatively, you can inherit from Entity if that fits your needs " ++
    "better."

/-- `GetTypeSpecificSignatureProperties` on an object of a runtime class. -/
def ClassInfo.getTypeSpecificSignatureProperties (info : ClassInfo Property) :
    Except Exn (Option (List Property)) :=
  match info.rule with
  | .entity => .ok (some (info.properties.filter info.hasDomainSignature))
  | .valueObject =>
    if info.properties.any info.hasDomainSignature then
      .error (.invalidOperation (markedValueObjectMessage info.name))
    else .ok (some info.properties)
  | .overridden properties => properties

/-- A `TypePropertyDescriptor`. -/
structure TypePropertyDescriptor (Class Property : Type) where
  ownerType : Class
  properties : List Property

/-- The constructor: no properties stand for an empty list of them. -/
def TypePropertyDescriptor.ofProperties (ownerType : Class) (properties : Option (List Property)) :
    TypePropertyDescriptor Class Property :=
  { ownerType := ownerType, properties := properties.getD [] }

/-- The properties a class supplies for its own objects. -/
def signatureOf (classes : Class → ClassInfo Property) (type : Class) :
    Except Exn (List Property) :=
  (classes type).getTypeSpecificSignatureProperties.map fun properties ↦
    (TypePropertyDescriptor.ofProperties type properties).properties

/-! ### The cache -/

/-- A `TypePropertyDescriptorCache`. -/
abbrev TypePropertyDescriptorCache (Class Property : Type) :=
  Table Class (TypePropertyDescriptor Class Property)

/-- The two types of a `BaseObject`: its runtime type, and the one `GetTypeUnproxied` returns. -/
structure BaseObject (Class : Type) where
  getType : Class
  getTypeUnproxied : Class
  deriving DecidableEq, Repr

variable [DecidableEq Class]

/-- `TypePropertyDescriptorCache.Find`. -/
def TypePropertyDescriptorCache.find (type : Class) (cache : TypePropertyDescriptorCache Class Property) :
    Option (TypePropertyDescriptor Class Property) :=
  cache type

namespace BaseObject

/-- The private `GetOrAdd`: the factory asks this object, not the type it is called with. -/
def getOrAdd (classes : Class → ClassInfo Property) (object : BaseObject Class) (type : Class)
    (cache : TypePropertyDescriptorCache Class Property) :
    Except Exn (TypePropertyDescriptor Class Property) ×
      TypePropertyDescriptorCache Class Property :=
  Foundation.MemoTable.getOrAdd type
    (fun type ↦ (classes object.getType).getTypeSpecificSignatureProperties.map
      (TypePropertyDescriptor.ofProperties type)) cache

/-- `GetSignatureProperties`. -/
def getSignatureProperties (classes : Class → ClassInfo Property) (object : BaseObject Class)
    (cache : TypePropertyDescriptorCache Class Property) :
    Except Exn (List Property) × TypePropertyDescriptorCache Class Property :=
  match cache.find object.getTypeUnproxied with
  | some descriptor => (.ok descriptor.properties, cache)
  | none =>
    ((getOrAdd classes object object.getTypeUnproxied cache).1.map (·.properties),
      (getOrAdd classes object object.getTypeUnproxied cache).2)

/-- The cache after a call of `GetSignatureProperties`. -/
def step (classes : Class → ClassInfo Property) (cache : TypePropertyDescriptorCache Class Property)
    (object : BaseObject Class) : TypePropertyDescriptorCache Class Property :=
  (getSignatureProperties classes object cache).2

/-! ### What a call owes the others -/

/-- A call answers with the signature properties of the unproxied class, or throws when these cannot
be had; it adds nothing when it throws, and nothing for any other class. -/
structure Correct (classes : Class → ClassInfo Property)
    (cache : TypePropertyDescriptorCache Class Property) (object : BaseObject Class) : Prop where
  answers : (getSignatureProperties classes object cache).1.toOption =
    (signatureOf classes object.getTypeUnproxied).toOption
  throws_adds_nothing : ∀ exception,
    (getSignatureProperties classes object cache).1 = .error exception →
      step classes cache object = cache
  others_unaffected : ∀ type, type ≠ object.getTypeUnproxied →
    step classes cache object type = cache type

/-- The object may fill the entry of its unproxied class: there is one already, or its runtime class
has the same signature properties. -/
def MayFill (classes : Class → ClassInfo Property)
    (cache : TypePropertyDescriptorCache Class Property) (object : BaseObject Class) : Prop :=
  (cache.find object.getTypeUnproxied).isSome = true ∨
    (signatureOf classes object.getType).toOption =
      (signatureOf classes object.getTypeUnproxied).toOption

/-- A descriptor has the signature properties of a class. -/
def Describes (classes : Class → ClassInfo Property) (type : Class)
    (descriptor : TypePropertyDescriptor Class Property) : Prop :=
  (signatureOf classes type).toOption = some descriptor.properties

variable {classes : Class → ClassInfo Property} {cache : TypePropertyDescriptorCache Class Property}
  {object : BaseObject Class}

theorem getSignatureProperties_eq :
    getSignatureProperties classes object cache =
      ((getOrAdd classes object object.getTypeUnproxied cache).1.map (·.properties),
        (getOrAdd classes object object.getTypeUnproxied cache).2) := by
  unfold getSignatureProperties
  split
  · next descriptor hfound =>
    have hkept : cache object.getTypeUnproxied = some descriptor := hfound
    rw [getOrAdd, getOrAdd_of_some hkept]
    rfl
  · rfl

theorem step_eq :
    step classes cache object = (getOrAdd classes object object.getTypeUnproxied cache).2 := by
  rw [step, getSignatureProperties_eq]

omit [DecidableEq Class] in
/-- What the factory of an object returns has the properties of its runtime class. -/
theorem properties_of_factory {type : Class} {descriptor : TypePropertyDescriptor Class Property}
    (hfactory : ((classes object.getType).getTypeSpecificSignatureProperties.map
      (TypePropertyDescriptor.ofProperties type)) = .ok descriptor) :
    (signatureOf classes object.getType).toOption = some descriptor.properties := by
  unfold signatureOf
  rcases hspecific : (classes object.getType).getTypeSpecificSignatureProperties with _ | properties
  · rw [hspecific] at hfactory
    exact absurd hfactory (by simp [Except.map])
  · rw [hspecific] at hfactory
    obtain rfl : TypePropertyDescriptor.ofProperties type properties = descriptor :=
      Except.ok.inj hfactory
    rfl

/-- A call that may fill the entry of its class leaves every entry with the properties of its
class. -/
theorem sound_step (hsound : Sound (Describes classes) cache) (hfill : MayFill classes cache object) :
    Sound (Describes classes) (step classes cache object) := by
  rw [step_eq]
  refine sound_getOrAdd hsound fun hmissing descriptor hfactory ↦ ?_
  rcases hfill with hfound | hsame
  · rw [TypePropertyDescriptorCache.find, hmissing] at hfound
    exact absurd hfound (by simp)
  · exact hsame.symm.trans (properties_of_factory hfactory)

theorem answers_of_find {descriptor : TypePropertyDescriptor Class Property}
    (hfound : cache.find object.getTypeUnproxied = some descriptor) :
    (getSignatureProperties classes object cache).1 = .ok descriptor.properties := by
  simp only [getSignatureProperties, hfound]

/-- On an empty entry the answer is about the runtime class. -/
theorem answers_of_missing (hmissing : cache.find object.getTypeUnproxied = none) :
    (getSignatureProperties classes object cache).1 = signatureOf classes object.getType := by
  have hkept : cache object.getTypeUnproxied = none := hmissing
  rw [getSignatureProperties_eq, getOrAdd, getOrAdd_of_none hkept, signatureOf]
  rcases (classes object.getType).getTypeSpecificSignatureProperties with _ | properties <;> rfl

/-- With sound entries a call is correct exactly when it may fill the entry of its class. -/
theorem correct_iff (hsound : Sound (Describes classes) cache) :
    Correct classes cache object ↔ MayFill classes cache object := by
  constructor
  · intro hcorrect
    cases hfound : cache.find object.getTypeUnproxied with
    | some descriptor => exact Or.inl (by rw [hfound]; rfl)
    | none => exact Or.inr (answers_of_missing hfound ▸ hcorrect.answers)
  · intro hfill
    refine ⟨?_, fun exception hthrows ↦ ?_, fun type hne ↦ ?_⟩
    · cases hfound : cache.find object.getTypeUnproxied with
      | some descriptor =>
        have hdescribes := hsound object.getTypeUnproxied descriptor hfound
        rw [answers_of_find hfound, hdescribes]
        rfl
      | none =>
        rw [answers_of_missing hfound]
        refine hfill.resolve_left ?_
        rw [hfound]
        exact Bool.false_ne_true
    · rw [step_eq]
      rw [getSignatureProperties_eq] at hthrows
      rcases hadd : (getOrAdd classes object object.getTypeUnproxied cache).1 with error | _
      · exact getOrAdd_of_throws hadd
      · rw [hadd] at hthrows
        exact absurd hthrows (by simp [Except.map])
    · rw [step_eq]
      exact getOrAdd_of_ne hne

/-- Over calls of any number, on objects of any classes: every call answers with the signature
properties of the unproxied class, whatever was called before, exactly when each call finds its class
in the cache or comes from an object whose runtime class has the same signature properties. -/
theorem everyCall_mayFill_iff (classes : Class → ClassInfo Property)
    (objects : List (BaseObject Class)) :
    EveryCall (step classes) (Correct classes) (fun _ ↦ none) objects ↔
      EveryCall (step classes) (MayFill classes) (fun _ ↦ none) objects := by
  have hempty : Sound (Describes classes)
      (fun _ ↦ none : TypePropertyDescriptorCache Class Property) := sound_empty
  refine everyCall_iff_of_invariant ?_ ?_ hempty objects
  · intro cache object hsound hfill
    exact sound_step hsound hfill
  · intro cache object hsound
    exact correct_iff hsound

/-- Objects whose runtime class has the signature properties of the unproxied class are answered
correctly in every order, and no others are. -/
theorem everyCall_all_iff (classes : Class → ClassInfo Property)
    (among : BaseObject Class → Prop) :
    (∀ objects, (∀ object ∈ objects, among object) →
        EveryCall (step classes) (Correct classes) (fun _ ↦ none) objects) ↔
      ∀ object, among object → (signatureOf classes object.getType).toOption =
        (signatureOf classes object.getTypeUnproxied).toOption := by
  constructor
  · intro hall object hobject
    have hcorrect := (hall [object] (by simpa using hobject)).1
    exact (correct_iff sound_empty).mp hcorrect |>.resolve_left (by simp [TypePropertyDescriptorCache.find])
  · intro hsame objects hobjects
    rw [everyCall_mayFill_iff]
    refine (everyCall_iff_split objects).mpr fun earlier object later hsplit ↦ Or.inr (hsame object ?_)
    exact hobjects object (by simp [hsplit])

/-- Among such objects an answer does not depend on the calls before it. -/
theorem answers_of_history {earlier : List (BaseObject Class)}
    (hsame : ∀ other ∈ object :: earlier, (signatureOf classes other.getType).toOption =
      (signatureOf classes other.getTypeUnproxied).toOption) :
    (getSignatureProperties classes object (run (step classes) (fun _ ↦ none) earlier)).1.toOption =
      (signatureOf classes object.getTypeUnproxied).toOption := by
  have hcalls := (everyCall_all_iff classes (· ∈ object :: earlier)).mpr hsame
    (earlier ++ [object]) (by simp [or_comm])
  rw [everyCall_append] at hcalls
  exact hcalls.2.1.answers

/-- The two together: a history is correct exactly when each of its calls may fill the entry it asks
for, and objects are answered correctly in every history of calls on them exactly when the runtime
class of each has the signature properties of its unproxied class. -/
theorem getSignatureProperties_correct_iff (classes : Class → ClassInfo Property) :
    (∀ objects, EveryCall (step classes) (Correct classes) (fun _ ↦ none) objects ↔
        EveryCall (step classes) (MayFill classes) (fun _ ↦ none) objects) ∧
      ∀ among : BaseObject Class → Prop,
        (∀ objects, (∀ object ∈ objects, among object) →
            EveryCall (step classes) (Correct classes) (fun _ ↦ none) objects) ↔
          ∀ object, among object → (signatureOf classes object.getType).toOption =
            (signatureOf classes object.getTypeUnproxied).toOption :=
  ⟨everyCall_mayFill_iff classes, everyCall_all_iff classes⟩

/-- A subclass that adds a marked property and poses as its base class: asked first, it leaves its
own properties in the cache, and the base class is answered with them. Asked second, it is answered
with those of the base class. -/
theorem subclass_first_not_correct :
    let classes : Bool → ClassInfo ℕ := fun isSubclass ↦
      { name := if isSubclass then "CustomerProxy" else "Customer"
        properties := if isSubclass then [0, 1] else [0]
        hasDomainSignature := fun _ ↦ true
        rule := .entity }
    let customer : BaseObject Bool := ⟨false, false⟩
    let proxy : BaseObject Bool := ⟨true, false⟩
    ¬ EveryCall (step classes) (Correct classes) (fun _ ↦ none) [proxy] ∧
      (getSignatureProperties classes customer (run (step classes) (fun _ ↦ none) [proxy])).1 =
        .ok [0, 1] ∧
      (getSignatureProperties classes customer (fun _ ↦ none)).1 = .ok [0] := by
  intro classes customer proxy
  refine ⟨fun hcorrect ↦ ?_, rfl, rfl⟩
  have hanswers := hcorrect.1.answers
  exact absurd hanswers (by decide)

end BaseObject

end SharpArch.Domain.DomainModel
