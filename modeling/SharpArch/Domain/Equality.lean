import Mathlib.Data.Fintype.Card
import SharpArch.Domain.ObjectGraph

/-!
# Equality of domain objects is an equivalence

`Equals` compares references, identifiers or signatures, and on either side of it may stand a proxy.
As long as only persisted entities have proxies, none of this shows: the answer depends on the two
targets alone (`objectEqualsBody_object`), and `addressEquals` is what it is in terms of them. Each
law is then a fact about `addressEquals` and the loop over the signature, carried through the
recursion by induction on the unfolding: symmetry together with the replacement of references by
proxies (`objectEquals_swap`), transitivity (`objectEquals_trans`), and termination when signature
references of objects that are not persisted go down a well-founded relation
(`exists_returns_objectEquals`).

`equalsLaws` collects them, with the agreement of all the ways to compare two objects.
-/

set_option autoImplicit false
set_option relaxedAutoImplicit false

namespace SharpArch.Domain.DomainModel

open Foundation.Fuel Platform.SystemTransactions

variable {Class Property Leaf Key Address : Type}

/-! ### Proxies of persisted entities -/

/-- A reference as a program can hold it: a proxy stands for a persisted entity. -/
def Genuine (table : ClassTable Class Property Leaf Key Address)
    (heap : Heap Class Property Leaf Key Address) : Reference Address → Prop
  | .direct _ => True
  | .proxy _ target => IsPersisted table (heap target)

/-- A property value that holds a genuine reference, if any. -/
def GenuineValue (table : ClassTable Class Property Leaf Key Address)
    (heap : Heap Class Property Leaf Key Address) : PropertyValue Leaf Address → Prop
  | .object reference => Genuine table heap reference
  | _ => True

/-- Two references to one object. -/
def SameTarget (first second : Reference Address) : Prop := first.target = second.target

/-- Two property values that differ at most in a proxy. -/
def SameValue : PropertyValue Leaf Address → PropertyValue Leaf Address → Prop
  | .null, .null => True
  | .leaf value, .leaf other => value = other
  | .object reference, .object other => SameTarget reference other
  | _, _ => False

/-- Two states of the objects that differ at most in proxies. -/
structure SameObjects (first second : Heap Class Property Leaf Key Address) : Prop where
  type : ∀ address, (first address).type = (second address).type
  id : ∀ address, (first address).id = (second address).id
  values : ∀ address property,
    SameValue ((first address).values property) ((second address).values property)

variable {table : ClassTable Class Property Leaf Key Address}
  {heap first second : Heap Class Property Leaf Key Address}

theorem SameValue.refl (value : PropertyValue Leaf Address) : SameValue value value := by
  cases value with
  | null => trivial
  | leaf value => rfl
  | object reference => rfl

theorem SameValue.symm {value other : PropertyValue Leaf Address} (hsame : SameValue value other) :
    SameValue other value := by
  cases value <;> cases other <;> first | exact hsame.elim | exact Eq.symm hsame | trivial

theorem SameObjects.refl (heap : Heap Class Property Leaf Key Address) : SameObjects heap heap where
  type := fun _ ↦ rfl
  id := fun _ ↦ rfl
  values := fun _ _ ↦ .refl _

theorem SameObjects.symm (hsame : SameObjects first second) : SameObjects second first where
  type := fun address ↦ (hsame.type address).symm
  id := fun address ↦ (hsame.id address).symm
  values := fun address property ↦ (hsame.values address property).symm

/-! ### Identifiers -/

theorem isTransient_congr {object other : DomainObject Class Property Leaf Key Address}
    (htype : object.type = other.type) (hid : object.id = other.id) :
    isTransient table object = isTransient table other := by
  simp only [isTransient, htype, hid]

theorem hasSameNonDefaultIdAs_iff {object other : DomainObject Class Property Leaf Key Address} :
    hasSameNonDefaultIdAs table object other = true ↔
      isTransient table object = false ∧ isTransient table other = false ∧
        ∃ id otherId, object.id = some id ∧ other.id = some otherId ∧
          table.keys.equals id otherId = true := by
  unfold hasSameNonDefaultIdAs
  cases isTransient table object <;> cases isTransient table other <;>
    cases object.id <;> cases other.id <;> simp

theorem hasSameNonDefaultIdAs_symm (object other : DomainObject Class Property Leaf Key Address) :
    hasSameNonDefaultIdAs table object other = hasSameNonDefaultIdAs table other object := by
  unfold hasSameNonDefaultIdAs
  rw [Bool.and_comm (!isTransient table object)]
  cases object.id <;> cases other.id <;> simp [table.keys.equals_symm]

theorem hasSameNonDefaultIdAs_trans {object middle other : DomainObject Class Property Leaf Key Address}
    (hfirst : hasSameNonDefaultIdAs table object middle = true)
    (hsecond : hasSameNonDefaultIdAs table middle other = true) :
    hasSameNonDefaultIdAs table object other = true := by
  obtain ⟨htransient, -, id, middleId, hid, hmiddle, hequal⟩ := hasSameNonDefaultIdAs_iff.mp hfirst
  obtain ⟨-, hother, middleId', otherId, hmiddle', hotherId, hequal'⟩ :=
    hasSameNonDefaultIdAs_iff.mp hsecond
  obtain rfl : middleId = middleId' := Option.some.inj (hmiddle.symm.trans hmiddle')
  exact hasSameNonDefaultIdAs_iff.mpr ⟨htransient, hother, id, otherId, hid, hotherId,
    table.keys.equals_trans _ _ _ hequal hequal'⟩

theorem hasSameNonDefaultIdAs_refl {object : DomainObject Class Property Leaf Key Address}
    (hpersisted : isTransient table object = false) :
    hasSameNonDefaultIdAs table object object = true := by
  cases hid : object.id with
  | none =>
    simp only [isTransient, hid] at hpersisted
    exact absurd hpersisted (by simp)
  | some id =>
    exact hasSameNonDefaultIdAs_iff.mpr
      ⟨hpersisted, hpersisted, id, id, hid, hid, table.keys.equals_refl id⟩

/-! ### Equality in terms of the targets -/

variable [DecidableEq Class] [DecidableEq Address]

/-- What reference, class and identifier say about two objects; `none` leaves it to the
signature. -/
def decided (table : ClassTable Class Property Leaf Key Address)
    (heap : Heap Class Property Leaf Key Address) (this other : Address) : Option Bool :=
  if this = other then some true
  else if (heap this).type ≠ (heap other).type then some false
  else
    match table.kind (heap this).type with
    | .valueObject => none
    | .entity _ =>
      if hasSameNonDefaultIdAs table (heap this) (heap other) then some true
      else if isTransient table (heap this) && isTransient table (heap other) then none
      else some false

omit [DecidableEq Class] [DecidableEq Address] in
/-- The signatures of two different objects of a class compared. -/
def sameSignature (table : ClassTable Class Property Leaf Key Address)
    (heap : Heap Class Property Leaf Key Address) (equals : EqualsCall Leaf Address)
    (this other : Address) : EqualsAnswer :=
  match signatureOf table.classes (heap this).type with
  | .error exception => some (.error exception)
  | .ok [] => some (.ok false)
  | .ok properties =>
    samePropertyValues table equals (heap this).values (heap other).values properties

/-- `Equals` of two objects, whichever references they are reached through. -/
def addressEquals (table : ClassTable Class Property Leaf Key Address)
    (heap : Heap Class Property Leaf Key Address) (equals : EqualsCall Leaf Address)
    (this other : Address) : EqualsAnswer :=
  match decided table heap this other with
  | some answer => some (.ok answer)
  | none => sameSignature table heap equals this other

variable {equals : EqualsCall Leaf Address} {this other : Address} {reference : Reference Address}

theorem decided_self (this : Address) : decided table heap this this = some true := by
  simp [decided]

theorem decided_of_type_ne (htype : (heap this).type ≠ (heap other).type) :
    decided table heap this other = some false := by
  have hne : this ≠ other := by
    rintro rfl
    exact htype rfl
  simp [decided, hne, htype]

omit [DecidableEq Class] [DecidableEq Address] in
theorem not_isPersisted_iff {object : DomainObject Class Property Leaf Key Address} {idType : Class}
    (hkind : table.kind object.type = .entity idType) :
    ¬ IsPersisted table object ↔ isTransient table object = true := by
  rw [← Bool.not_eq_false, IsPersisted, and_iff_right ⟨idType, hkind⟩]

omit [DecidableEq Class] [DecidableEq Address] in
theorem not_isPersisted_of_valueObject {object : DomainObject Class Property Leaf Key Address}
    (hkind : table.kind object.type = .valueObject) : ¬ IsPersisted table object := by
  rintro ⟨⟨idType, hentity⟩, -⟩
  exact absurd (hkind.symm.trans hentity) (by simp)

theorem decided_of_entity {idType : Class} (hne : this ≠ other)
    (htype : (heap this).type = (heap other).type)
    (hkind : table.kind (heap this).type = .entity idType) :
    decided table heap this other =
      if hasSameNonDefaultIdAs table (heap this) (heap other) then some true
      else if isTransient table (heap this) && isTransient table (heap other) then none
      else some false := by
  rw [decided, if_neg hne, if_neg (not_not.mpr htype)]
  simp only [hkind]

theorem decided_of_valueObject (hne : this ≠ other) (htype : (heap this).type = (heap other).type)
    (hkind : table.kind (heap this).type = .valueObject) : decided table heap this other = none := by
  rw [decided, if_neg hne, if_neg (not_not.mpr htype)]
  simp only [hkind]

/-- The signature decides between two different objects of one class, neither of them persisted. -/
theorem decided_eq_none_iff :
    decided table heap this other = none ↔
      this ≠ other ∧ (heap this).type = (heap other).type ∧
        ¬ IsPersisted table (heap this) ∧ ¬ IsPersisted table (heap other) := by
  by_cases hself : this = other
  · rw [hself, decided_self]
    simp
  by_cases htype : (heap this).type = (heap other).type
  · rw [and_iff_right hself, and_iff_right htype]
    rcases hkind : table.kind (heap this).type with idType | _
    · rw [not_isPersisted_iff hkind, not_isPersisted_iff (htype ▸ hkind)]
      rw [decided_of_entity hself htype hkind]
      cases hthis : isTransient table (heap this) <;> cases hother : isTransient table (heap other) <;>
        simp [hasSameNonDefaultIdAs, hthis, hother]
      split_ifs <;> simp
    · have hthis := not_isPersisted_of_valueObject hkind
      have hother : ¬ IsPersisted table (heap other) := not_isPersisted_of_valueObject (htype ▸ hkind)
      rw [decided_of_valueObject hself htype hkind]
      exact ⟨fun _ ↦ ⟨hthis, hother⟩, fun _ ↦ rfl⟩
  · rw [decided_of_type_ne htype]
    simp [htype]

/-- Reference or identifier decide that two objects are equal when they are one object or persisted
entities of one class with equal identifiers. -/
theorem decided_eq_true_iff :
    decided table heap this other = some true ↔
      this = other ∨ (heap this).type = (heap other).type ∧
        (∃ idType, table.kind (heap this).type = .entity idType) ∧
        hasSameNonDefaultIdAs table (heap this) (heap other) = true := by
  by_cases hself : this = other
  · rw [hself, decided_self]
    simp
  by_cases htype : (heap this).type = (heap other).type
  · rw [or_iff_right hself, and_iff_right htype]
    rcases hkind : table.kind (heap this).type with idType | _
    · rw [decided_of_entity hself htype hkind]
      split_ifs with hid <;> simp [hid]
    · rw [decided_of_valueObject hself htype hkind]
      simp
  · rw [decided_of_type_ne htype]
    simp [hself, htype]

omit [DecidableEq Class] [DecidableEq Address] in
/-- Only a persisted entity has a genuine reference that is not the object itself. -/
theorem genuine_eq_direct {reference : Reference Address} (hgenuine : Genuine table heap reference)
    (hnot : ¬ IsPersisted table (heap reference.target)) : reference = .direct reference.target := by
  cases reference with
  | direct target => rfl
  | proxy number target => exact absurd hgenuine hnot

omit [DecidableEq Class] in
theorem hasSameObjectSignatureAs_eq (hne : reference.target ≠ this) :
    hasSameObjectSignatureAs table heap equals this reference =
      sameSignature table heap equals this reference.target := by
  have hother : reference ≠ .direct this := by
    rintro rfl
    exact hne rfl
  rcases hsignature : signatureOf table.classes (heap this).type with exception | _ | _ <;>
    simp [hasSameObjectSignatureAs, sameSignature, hsignature, hother]

theorem entityEquals_some (hgenuine : Genuine table heap reference)
    {idType : Class} (hkind : table.kind (heap this).type = .entity idType) :
    entityEquals table heap equals this (some reference) =
      addressEquals table heap equals this reference.target := by
  by_cases hsame : this = reference.target
  · rw [addressEquals, ← hsame, decided_self]
    cases reference with
    | direct target =>
      obtain rfl : this = target := hsame
      simp [entityEquals]
    | proxy number target =>
      obtain rfl : this = target := hsame
      simp [entityEquals, Reference.target, hasSameNonDefaultIdAs_refl hgenuine.2]
  · have hother : reference ≠ .direct this := by
      rintro rfl
      exact hsame rfl
    simp only [entityEquals, addressEquals, decided, hother, hsame, hkind, if_false]
    rw [hasSameObjectSignatureAs_eq (Ne.symm hsame)]
    split_ifs <;> rfl

theorem baseObjectEquals_object (hgenuine : Genuine table heap reference)
    (hkind : table.kind (heap this).type = .valueObject) :
    baseObjectEquals table heap equals this (.object reference) =
      addressEquals table heap equals this reference.target := by
  by_cases hsame : this = reference.target
  · have hnot : ¬ IsPersisted table (heap reference.target) := by
      rintro ⟨⟨idType, hentity⟩, -⟩
      rw [← hsame, hkind] at hentity
      exact absurd hentity (by simp)
    rw [addressEquals, ← hsame, decided_self, genuine_eq_direct hgenuine hnot, ← hsame]
    simp [baseObjectEquals]
  · have hother : reference ≠ .direct this := by
      rintro rfl
      exact hsame rfl
    simp only [baseObjectEquals, addressEquals, decided, hother, hsame, hkind, if_false]
    rw [hasSameObjectSignatureAs_eq (Ne.symm hsame)]
    split_ifs <;> first | rfl | contradiction

/-- `Equals(object)` on a domain object depends on the two targets only. -/
theorem objectEqualsBody_object (hgenuine : Genuine table heap reference)
    (this : Reference Address) :
    objectEqualsBody table heap equals (this, .object reference) =
      addressEquals table heap equals this.target reference.target := by
  unfold objectEqualsBody
  split
  · next idType hkind =>
    by_cases hcast : table.kind (heap reference.target).type = .entity idType
    · simp only [asEntity, hcast, if_true]
      exact entityEquals_some hgenuine hkind
    · have htype : (heap this.target).type ≠ (heap reference.target).type := by
        intro htype
        exact hcast (htype ▸ hkind)
      simp only [asEntity, hcast, if_false, entityEquals, addressEquals, decided_of_type_ne htype]
  · next hkind => exact baseObjectEquals_object hgenuine hkind

/-- `Equals(object)` of a value that is no domain object is false. -/
theorem objectEqualsBody_of_not_object {value : PropertyValue Leaf Address}
    (hvalue : ∀ reference, value ≠ .object reference) (this : Reference Address) :
    objectEqualsBody table heap equals (this, value) = some (.ok false) := by
  unfold objectEqualsBody
  cases value with
  | object reference => exact absurd rfl (hvalue reference)
  | null => split <;> simp [asEntity, entityEquals, baseObjectEquals]
  | leaf value => split <;> simp [asEntity, entityEquals, baseObjectEquals]

/-! ### The recursion -/

omit [DecidableEq Class] [DecidableEq Address] in
theorem samePropertyValue_below {more : EqualsCall Leaf Address} (hbelow : Below equals more)
    {value other : PropertyValue Leaf Address} {answer : Except Exn Bool}
    (hanswer : samePropertyValue table equals value other = some answer) :
    samePropertyValue table more value other = some answer := by
  cases value <;> cases other <;> first | exact hanswer | exact hbelow _ _ hanswer

omit [DecidableEq Class] [DecidableEq Address] in
/-- More answers of the recursive calls keep the answer of the loop. -/
theorem samePropertyValues_below {more : EqualsCall Leaf Address} (hbelow : Below equals more)
    (left right : Property → PropertyValue Leaf Address) (properties : List Property)
    {answer : Except Exn Bool}
    (hanswer : samePropertyValues table equals left right properties = some answer) :
    samePropertyValues table more left right properties = some answer := by
  induction properties with
  | nil => exact hanswer
  | cons property rest ih =>
    simp only [samePropertyValues] at hanswer ⊢
    rcases hfirst : samePropertyValue table equals (left property) (right property) with _ | result
    · rw [hfirst] at hanswer
      exact absurd hanswer (by simp)
    · rw [hfirst] at hanswer
      rw [samePropertyValue_below hbelow hfirst]
      rcases result with exception | _ | _
      · exact hanswer
      · exact hanswer
      · exact ih hanswer

omit [DecidableEq Class] in
theorem hasSameObjectSignatureAs_below {more : EqualsCall Leaf Address} (hbelow : Below equals more)
    {answer : Except Exn Bool}
    (hanswer : hasSameObjectSignatureAs table heap equals this reference = some answer) :
    hasSameObjectSignatureAs table heap more this reference = some answer := by
  unfold hasSameObjectSignatureAs at hanswer ⊢
  split at hanswer
  · exact hanswer
  · exact hanswer
  · exact samePropertyValues_below hbelow _ _ _ hanswer

/-- More answers of the recursive calls keep the answer of `Equals`. -/
theorem monotone_objectEqualsBody : Monotone (objectEqualsBody table heap) := by
  intro equals more hbelow call answer hanswer
  unfold objectEqualsBody at hanswer ⊢
  split at hanswer
  · next idType _ =>
    cases hcast : asEntity table heap idType call.2 with
    | none => simpa only [hcast, entityEquals] using hanswer
    | some reference =>
      simp only [hcast, entityEquals] at hanswer ⊢
      split_ifs at hanswer ⊢
      · exact hanswer
      · exact hanswer
      · exact hanswer
      · exact hasSameObjectSignatureAs_below hbelow hanswer
      · exact hanswer
  · cases hobject : call.2 with
    | null => simpa only [hobject, baseObjectEquals] using hanswer
    | leaf value => simpa only [hobject, baseObjectEquals] using hanswer
    | object reference =>
      simp only [hobject, baseObjectEquals] at hanswer ⊢
      split_ifs at hanswer ⊢
      · exact hanswer
      · exact hasSameObjectSignatureAs_below hbelow hanswer
      · exact hanswer

/-- The recursive calls of one state and those of another state of the same objects answer alike
with their operands exchanged. -/
structure Swapped (table : ClassTable Class Property Leaf Key Address)
    (first second : Heap Class Property Leaf Key Address)
    (equals other : EqualsCall Leaf Address) : Prop where
  object : ∀ reference value reference' value' answer,
    Genuine table first reference → Genuine table first value →
    Genuine table second reference' → Genuine table second value' →
    SameTarget reference reference' → SameTarget value value' →
    equals (reference, .object value) = some answer →
      other (value', .object reference') = some answer
  leaf : ∀ reference value answer, equals (reference, .leaf value) = some answer →
    answer = .ok false
  leaf' : ∀ reference value, other (reference, .leaf value) = some (.ok false)

section Swap

variable {others : EqualsCall Leaf Address} {answer : Except Exn Bool}

omit [DecidableEq Class] [DecidableEq Address] in
theorem samePropertyValue_swap (hswap : Swapped table first second equals others)
    {value other value' other' : PropertyValue Leaf Address}
    (hvalue : GenuineValue table first value) (hother : GenuineValue table first other)
    (hvalue' : GenuineValue table second value') (hother' : GenuineValue table second other')
    (hsame : SameValue value value') (hsame' : SameValue other other')
    (hanswer : samePropertyValue table equals value other = some answer) :
    samePropertyValue table others other' value' = some answer := by
  cases value with
  | null =>
    cases value' <;> first | exact hsame.elim | skip
    cases other <;> cases other' <;> first | exact hsame'.elim | exact hanswer
  | leaf value =>
    cases value' <;> first | exact hsame.elim | skip
    obtain rfl := hsame
    cases other <;> cases other' <;> first | exact hsame'.elim | exact hanswer | skip
    · obtain rfl := hsame'
      simpa only [samePropertyValue, table.leaves.equals_symm] using hanswer
    · exact (hswap.leaf' _ _).trans hanswer
  | object reference =>
    cases value' <;> first | exact hsame.elim | skip
    cases other <;> cases other' <;> first | exact hsame'.elim | exact hanswer | skip
    · obtain rfl := hswap.leaf _ _ _ hanswer
      rfl
    · exact hswap.object _ _ _ _ _ hvalue hother hvalue' hother' hsame hsame' hanswer

omit [DecidableEq Class] [DecidableEq Address] in
theorem samePropertyValues_swap (hswap : Swapped table first second equals others)
    (hgenuine : ∀ address property, GenuineValue table first ((first address).values property))
    (hgenuine' : ∀ address property, GenuineValue table second ((second address).values property))
    (hsame : SameObjects first second) (this other : Address) (properties : List Property)
    (hanswer : samePropertyValues table equals (first this).values (first other).values properties =
      some answer) :
    samePropertyValues table others (second other).values (second this).values properties =
      some answer := by
  induction properties with
  | nil => exact hanswer
  | cons property rest ih =>
    simp only [samePropertyValues] at hanswer ⊢
    rcases hvalue : samePropertyValue table equals ((first this).values property)
      ((first other).values property) with _ | result
    · rw [hvalue] at hanswer
      exact absurd hanswer (by simp)
    · rw [hvalue] at hanswer
      rw [samePropertyValue_swap hswap (hgenuine _ _) (hgenuine _ _) (hgenuine' _ _)
        (hgenuine' _ _) (hsame.values _ _) (hsame.values _ _) hvalue]
      rcases result with exception | _ | _
      · exact hanswer
      · exact hanswer
      · exact ih hanswer

theorem decided_swap (hsame : SameObjects first second) (this other : Address) :
    decided table first this other = decided table second other this := by
  have htransient : ∀ address, isTransient table (first address) = isTransient table (second address) :=
    fun address ↦ isTransient_congr (hsame.type address) (hsame.id address)
  have hid : hasSameNonDefaultIdAs table (first this) (first other) =
      hasSameNonDefaultIdAs table (second other) (second this) := by
    rw [hasSameNonDefaultIdAs_symm]
    simp only [hasSameNonDefaultIdAs, htransient, hsame.id]
  by_cases hself : this = other
  · rw [hself, decided_self, decided_self]
  by_cases htype : (first this).type = (first other).type
  · have htype' : (second other).type = (second this).type := by
      rw [← hsame.type, ← hsame.type, htype]
    have hkind : table.kind (second other).type = table.kind (first this).type := by
      rw [htype', hsame.type]
    simp only [decided, hself, Ne.symm hself, hkind, hid, htransient, if_false, not_not.mpr htype,
      not_not.mpr htype']
    rw [Bool.and_comm]
  · have htype' : (second other).type ≠ (second this).type := by
      rw [← hsame.type, ← hsame.type]
      exact Ne.symm htype
    rw [decided_of_type_ne htype, decided_of_type_ne htype']

omit [DecidableEq Class] [DecidableEq Address] in
theorem sameSignature_swap (hswap : Swapped table first second equals others)
    (hgenuine : ∀ address property, GenuineValue table first ((first address).values property))
    (hgenuine' : ∀ address property, GenuineValue table second ((second address).values property))
    (hsame : SameObjects first second) (htype : (first this).type = (first other).type)
    (hanswer : sameSignature table first equals this other = some answer) :
    sameSignature table second others other this = some answer := by
  have hother : (second other).type = (first this).type := by rw [← hsame.type, htype]
  unfold sameSignature at hanswer ⊢
  rw [hother]
  split at hanswer
  · exact hanswer
  · exact hanswer
  · exact samePropertyValues_swap hswap hgenuine hgenuine' hsame this other _ hanswer

/-- The answer for two references in one state of the objects is the answer for their exchange in
another state of the same objects, through whatever proxies either goes. -/
theorem objectEquals_swap
    (hgenuine : ∀ address property, GenuineValue table first ((first address).values property))
    (hgenuine' : ∀ address property, GenuineValue table second ((second address).values property))
    (hsame : SameObjects first second) (n : ℕ) : Swapped table first second
      (approx (objectEqualsBody table first) n) (approx (objectEqualsBody table second) (n + 1)) := by
  have hleaf : ∀ (equals : EqualsCall Leaf Address) (heap : Heap Class Property Leaf Key Address)
      (reference : Reference Address) (value : Leaf),
      objectEqualsBody table heap equals (reference, .leaf value) = some (.ok false) :=
    fun equals heap reference value ↦ objectEqualsBody_of_not_object (by simp) reference
  induction n with
  | zero => exact ⟨fun _ _ _ _ _ _ _ _ _ _ _ h ↦ absurd h (by simp), fun _ _ _ h ↦
      absurd h (by simp), fun _ _ ↦ hleaf _ _ _ _⟩
  | succ n ih =>
    refine ⟨?_, fun reference value answer hanswer ↦ ?_, fun _ _ ↦ hleaf _ _ _ _⟩
    · intro reference value reference' value' answer _ hvalue hreference' _ htarget htarget' hanswer
      rw [approx_succ, objectEqualsBody_object hvalue] at hanswer
      rw [approx_succ, objectEqualsBody_object hreference', ← htarget, ← htarget']
      unfold addressEquals at hanswer ⊢
      rw [← decided_swap hsame]
      cases hdecided : decided table first reference.target value.target with
      | some decision =>
        rw [hdecided] at hanswer
        exact hanswer
      | none =>
        rw [hdecided] at hanswer
        exact sameSignature_swap ih hgenuine hgenuine' hsame (decided_eq_none_iff.mp hdecided).2.1 hanswer
    · rw [approx_succ, hleaf] at hanswer
      exact (Option.some.inj hanswer).symm

end Swap

/-! ### Transitivity -/

omit [DecidableEq Class] [DecidableEq Address] in
/-- The loop answers true when the two values of every property are the same. -/
theorem samePropertyValues_eq_true_iff (left right : Property → PropertyValue Leaf Address)
    (properties : List Property) :
    samePropertyValues table equals left right properties = some (.ok true) ↔
      ∀ property ∈ properties,
        samePropertyValue table equals (left property) (right property) = some (.ok true) := by
  induction properties with
  | nil => simp [samePropertyValues]
  | cons property rest ih =>
    rw [List.forall_mem_cons, samePropertyValues]
    rcases samePropertyValue table equals (left property) (right property) with _ | _ | _ | _ <;>
      simp [ih]

omit [DecidableEq Class] [DecidableEq Address] in
theorem samePropertyValue_trans
    (hleaf : ∀ reference value, equals (reference, .leaf value) ≠ some (.ok true))
    {one two three : PropertyValue Leaf Address}
    (hobject : ∀ first second third, one = .object first → two = .object second →
      three = .object third → equals (first, .object second) = some (.ok true) →
      equals (second, .object third) = some (.ok true) →
        equals (first, .object third) = some (.ok true))
    (hfirst : samePropertyValue table equals one two = some (.ok true))
    (hsecond : samePropertyValue table equals two three = some (.ok true)) :
    samePropertyValue table equals one three = some (.ok true) := by
  cases one with
  | null =>
    cases two <;> first | exact hsecond | simp [samePropertyValue] at hfirst
  | leaf one =>
    cases two with
    | leaf two =>
      cases three with
      | leaf three =>
        simp only [samePropertyValue, Option.some.injEq, Except.ok.injEq] at hfirst hsecond ⊢
        exact table.leaves.equals_trans _ _ _ hfirst hsecond
      | null => simp [samePropertyValue] at hsecond
      | object third => simp [samePropertyValue] at hsecond
    | null => simp [samePropertyValue] at hfirst
    | object second => simp [samePropertyValue] at hfirst
  | object first =>
    cases two with
    | null => simp [samePropertyValue] at hfirst
    | leaf two => exact absurd hfirst (hleaf first two)
    | object second =>
      cases three with
      | null => simp [samePropertyValue] at hsecond
      | leaf three => exact absurd hsecond (hleaf second three)
      | object third => exact hobject _ _ _ rfl rfl rfl hfirst hsecond

omit [DecidableEq Class] [DecidableEq Address] in
/-- Two different objects have the same signature when there is one and its values agree. -/
theorem sameSignature_eq_true_iff :
    sameSignature table heap equals this other = some (.ok true) ↔
      ∃ properties, signatureOf table.classes (heap this).type = .ok properties ∧
        properties ≠ [] ∧ ∀ property ∈ properties, samePropertyValue table equals
          ((heap this).values property) ((heap other).values property) = some (.ok true) := by
  rcases hsignature : signatureOf table.classes (heap this).type with exception | _ | ⟨property, rest⟩
  · simp [sameSignature, hsignature]
  · simp [sameSignature, hsignature]
  · simp [sameSignature, hsignature, samePropertyValues_eq_true_iff]

theorem addressEquals_eq_true_iff :
    addressEquals table heap equals this other = some (.ok true) ↔
      decided table heap this other = some true ∨ decided table heap this other = none ∧
        sameSignature table heap equals this other = some (.ok true) := by
  unfold addressEquals
  rcases decided table heap this other with _ | _ | _ <;> simp

omit [DecidableEq Class] [DecidableEq Address] in
theorem isPersisted_of_sameId {object middle : DomainObject Class Property Leaf Key Address}
    (hkind : ∃ idType, table.kind middle.type = .entity idType)
    (hid : hasSameNonDefaultIdAs table object middle = true ∨
      hasSameNonDefaultIdAs table middle object = true) : IsPersisted table middle := by
  rcases hid with hid | hid
  · exact ⟨hkind, (hasSameNonDefaultIdAs_iff.mp hid).2.1⟩
  · exact ⟨hkind, (hasSameNonDefaultIdAs_iff.mp hid).1⟩

/-- Equality of two objects and of the second with a third gives equality of the first with the
third, when it does so for the values of their properties. -/
theorem addressEquals_trans {one two three : Address}
    (hvalues : ∀ property,
      samePropertyValue table equals ((heap one).values property) ((heap two).values property) =
        some (.ok true) →
      samePropertyValue table equals ((heap two).values property) ((heap three).values property) =
        some (.ok true) →
      samePropertyValue table equals ((heap one).values property) ((heap three).values property) =
        some (.ok true))
    (hfirst : addressEquals table heap equals one two = some (.ok true))
    (hsecond : addressEquals table heap equals two three = some (.ok true)) :
    addressEquals table heap equals one three = some (.ok true) := by
  rcases addressEquals_eq_true_iff.mp hfirst with hdecided | ⟨hdecided, hsignature⟩
  · rcases decided_eq_true_iff.mp hdecided with rfl | ⟨htype, hkind, hid⟩
    · exact hsecond
    have hkind' : ∃ idType, table.kind (heap two).type = .entity idType := htype ▸ hkind
    rcases addressEquals_eq_true_iff.mp hsecond with hdecided' | ⟨hdecided', -⟩
    · rcases decided_eq_true_iff.mp hdecided' with rfl | ⟨htype', -, hid'⟩
      · exact hfirst
      · exact addressEquals_eq_true_iff.mpr (Or.inl (decided_eq_true_iff.mpr
          (Or.inr ⟨htype.trans htype', hkind, hasSameNonDefaultIdAs_trans hid hid'⟩)))
    · exact absurd (isPersisted_of_sameId hkind' (Or.inl hid)) (decided_eq_none_iff.mp hdecided').2.2.1
  · obtain ⟨-, htype, hone, htwo⟩ := decided_eq_none_iff.mp hdecided
    rcases addressEquals_eq_true_iff.mp hsecond with hdecided' | ⟨hdecided', hsignature'⟩
    · rcases decided_eq_true_iff.mp hdecided' with rfl | ⟨-, hkind, hid⟩
      · exact hfirst
      · exact absurd (isPersisted_of_sameId hkind (Or.inr hid)) htwo
    · obtain ⟨-, htype', -, hthree⟩ := decided_eq_none_iff.mp hdecided'
      by_cases hself : one = three
      · rw [addressEquals, hself, decided_self]
      · refine addressEquals_eq_true_iff.mpr (Or.inr
          ⟨decided_eq_none_iff.mpr ⟨hself, htype.trans htype', hone, hthree⟩, ?_⟩)
        obtain ⟨properties, hproperties, hnonempty, hsame⟩ := sameSignature_eq_true_iff.mp hsignature
        obtain ⟨properties', hproperties', -, hsame'⟩ := sameSignature_eq_true_iff.mp hsignature'
        obtain rfl : properties = properties' :=
          Except.ok.inj (hproperties.symm.trans (htype ▸ hproperties'))
        exact sameSignature_eq_true_iff.mpr ⟨properties, hproperties, hnonempty,
          fun property hmem ↦ hvalues property (hsame property hmem) (hsame' property hmem)⟩

theorem equals_leaf_ne_true (n : ℕ) (this : Reference Address) (value : Leaf) :
    approx (objectEqualsBody table heap) n (this, .leaf value) ≠ some (.ok true) := by
  intro htrue
  cases n with
  | zero => exact absurd htrue (by simp)
  | succ n =>
    rw [approx_succ, objectEqualsBody_of_not_object (by simp)] at htrue
    exact absurd htrue (by simp)

/-- Transitivity, through whatever proxies the three references go. -/
theorem objectEquals_trans
    (hgenuine : ∀ address property, GenuineValue table heap ((heap address).values property))
    (n : ℕ) (one two three : Reference Address) (htwo : Genuine table heap two)
    (hthree : Genuine table heap three)
    (hfirst : approx (objectEqualsBody table heap) n (one, .object two) = some (.ok true))
    (hsecond : approx (objectEqualsBody table heap) n (two, .object three) = some (.ok true)) :
    approx (objectEqualsBody table heap) n (one, .object three) = some (.ok true) := by
  induction n generalizing one two three with
  | zero => exact absurd hfirst (by simp)
  | succ n ih =>
    rw [approx_succ, objectEqualsBody_object htwo] at hfirst
    rw [approx_succ, objectEqualsBody_object hthree] at hsecond ⊢
    refine addressEquals_trans (fun property hone htwo ↦ ?_) hfirst hsecond
    refine samePropertyValue_trans (equals_leaf_ne_true n) (fun first second third _ hsecond hthird ↦ ?_) hone htwo
    have hgenuine₂ := hgenuine two.target property
    have hgenuine₃ := hgenuine three.target property
    rw [hsecond] at hgenuine₂
    rw [hthird] at hgenuine₃
    exact ih first second third hgenuine₂ hgenuine₃

/-! ### Termination -/

/-- A signature property of an object that is not persisted refers to another object: the references
that `Equals` follows. -/
def SignatureReference (table : ClassTable Class Property Leaf Key Address)
    (heap : Heap Class Property Leaf Key Address) (child parent : Address) : Prop :=
  ¬ IsPersisted table (heap parent) ∧ ∃ properties property reference,
    signatureOf table.classes (heap parent).type = .ok properties ∧ property ∈ properties ∧
      (heap parent).values property = .object reference ∧ reference.target = child

omit [DecidableEq Class] [DecidableEq Address] in
/-- Among finitely many objects it is enough that no signature reference closes a cycle. -/
theorem wellFounded_signatureReference [Finite Address]
    (hacyclic : ∀ address, ¬ Relation.TransGen (SignatureReference table heap) address address) :
    WellFounded (SignatureReference table heap) := by
  have : Std.Irrefl (Relation.TransGen (SignatureReference table heap)) := ⟨hacyclic⟩
  have hreaches := Finite.wellFounded_of_trans_of_irrefl
    (Relation.TransGen (SignatureReference table heap))
  exact Subrelation.wf Relation.TransGen.single hreaches

omit [DecidableEq Class] [DecidableEq Address] in
theorem exists_samePropertyValues (left right : Property → PropertyValue Leaf Address)
    (properties : List Property)
    (hanswered : ∀ property ∈ properties, ∃ answer,
      samePropertyValue table equals (left property) (right property) = some answer) :
    ∃ answer, samePropertyValues table equals left right properties = some answer := by
  induction properties with
  | nil => exact ⟨_, rfl⟩
  | cons property rest ih =>
    obtain ⟨⟨answer, hanswer⟩, hrest⟩ := List.forall_mem_cons.mp hanswered
    rw [samePropertyValues, hanswer]
    rcases answer with exception | _ | _
    · exact ⟨_, rfl⟩
    · exact ⟨_, rfl⟩
    · exact ih hrest

/-- The comparison of two values is answered when the call of `Equals` it may make is. -/
theorem exists_samePropertyValue {value other : PropertyValue Leaf Address}
    (hobject : ∀ child, value = .object child →
      ∃ answer, Returns (objectEqualsBody table heap) (child, other) answer) :
    ∃ n answer, samePropertyValue table (approx (objectEqualsBody table heap) n) value other =
      some answer := by
  cases value with
  | null => cases other <;> exact ⟨0, _, rfl⟩
  | leaf value => cases other <;> exact ⟨0, _, rfl⟩
  | object child =>
    obtain ⟨answer, n, hanswer⟩ := hobject child rfl
    cases other with
    | null => exact ⟨0, _, rfl⟩
    | leaf other => exact ⟨n, answer, hanswer⟩
    | object other => exact ⟨n, answer, hanswer⟩

/-- The comparison of two signatures is answered when each comparison of two values is. -/
theorem exists_unfolding_samePropertyValues {left right : Property → PropertyValue Leaf Address}
    {properties : List Property} (hanswered : ∀ property ∈ properties, ∃ n answer,
      samePropertyValue table (approx (objectEqualsBody table heap) n) (left property)
        (right property) = some answer) :
    ∃ n answer, samePropertyValues table (approx (objectEqualsBody table heap) n) left right
      properties = some answer := by
  have hmono : ∀ n m property, n ≤ m →
      (∃ answer, samePropertyValue table (approx (objectEqualsBody table heap) n) (left property)
        (right property) = some answer) →
      ∃ answer, samePropertyValue table (approx (objectEqualsBody table heap) m) (left property)
        (right property) = some answer := by
    rintro n m property hle ⟨answer, hanswer⟩
    exact ⟨answer, samePropertyValue_below (approx_mono monotone_objectEqualsBody hle) hanswer⟩
  obtain ⟨n, hn⟩ := exists_unfolding_forall_mem hmono properties hanswered
  exact ⟨n, exists_samePropertyValues _ _ _ hn⟩

/-- The comparison of an object that is not persisted by its signature is answered when the calls of
`Equals` on the objects it refers to are. -/
theorem exists_hasSameObjectSignatureAs (hpersisted : ¬ IsPersisted table (heap this))
    (hchild : ∀ child : Reference Address, SignatureReference table heap child.target this →
      ∀ value, ∃ answer, Returns (objectEqualsBody table heap) (child, value) answer)
    (other : Reference Address) :
    ∃ n answer, hasSameObjectSignatureAs table heap (approx (objectEqualsBody table heap) n) this
      other = some answer := by
  rcases hproperties : signatureOf table.classes (heap this).type with exception | _ | ⟨head, rest⟩
  · exact ⟨0, .error exception, by simp only [hasSameObjectSignatureAs, hproperties]⟩
  · exact ⟨0, .ok (other = .direct this), by simp only [hasSameObjectSignatureAs, hproperties]⟩
  have hanswered : ∀ property ∈ head :: rest, ∃ n answer,
      samePropertyValue table (approx (objectEqualsBody table heap) n)
        ((heap this).values property) ((heap other.target).values property) = some answer := by
    intro property hmem
    refine exists_samePropertyValue fun child hvalue ↦ ?_
    exact hchild child ⟨hpersisted, _, property, child, hproperties, hmem, hvalue, rfl⟩ _
  obtain ⟨n, answer, hanswer⟩ := exists_unfolding_samePropertyValues hanswered
  exact ⟨n, answer, by simpa only [hasSameObjectSignatureAs, hproperties] using hanswer⟩

/-- `Equals` returns or throws when the signature references it follows are well-founded. -/
theorem exists_returns_objectEquals
    (hwellFounded : WellFounded (SignatureReference table heap)) (this : Reference Address)
    (value : PropertyValue Leaf Address) :
    ∃ answer, Returns (objectEqualsBody table heap) (this, value) answer := by
  induction hthis : this.target using hwellFounded.induction generalizing this value with
  | _ address ih =>
    have hsignature (hpersisted : ¬ IsPersisted table (heap address)) :=
      exists_hasSameObjectSignatureAs hpersisted
        fun child hchild value ↦ ih child.target hchild child value rfl
    suffices ∃ n answer, objectEqualsBody table heap (approx (objectEqualsBody table heap) n)
        (this, value) = some answer by
      obtain ⟨n, answer, hanswer⟩ := this
      exact ⟨answer, n + 1, hanswer⟩
    cases hkind : table.kind (heap address).type with
    | entity idType =>
      simp only [objectEqualsBody, hthis, hkind]
      cases asEntity table heap idType value with
      | none => exact ⟨0, _, rfl⟩
      | some other =>
        simp only [entityEquals]
        split_ifs with hself htype hid htransient
        · exact ⟨0, _, rfl⟩
        · exact ⟨0, _, rfl⟩
        · exact ⟨0, _, rfl⟩
        · refine hsignature ?_ other
          exact (not_isPersisted_iff hkind).mpr (Bool.and_eq_true_iff.mp htransient).1
        · exact ⟨0, _, rfl⟩
    | valueObject =>
      simp only [objectEqualsBody, hthis, hkind]
      cases value with
      | null => exact ⟨0, _, rfl⟩
      | leaf value => exact ⟨0, _, rfl⟩
      | object other =>
        simp only [baseObjectEquals]
        split_ifs with hself htype
        · exact ⟨0, _, rfl⟩
        · exact hsignature (not_isPersisted_of_valueObject hkind) other
        · exact ⟨0, _, rfl⟩

/-! ### The laws -/

theorem equals_refl (hgenuine : Genuine table heap reference) (n : ℕ) :
    objectEquals table heap (n + 1) reference (.object reference) = some (.ok true) := by
  rw [objectEquals, approx_succ, objectEqualsBody_object hgenuine, addressEquals, decided_self]

theorem returns_symm
    (hgenuine : ∀ address property, GenuineValue table heap ((heap address).values property))
    {this other : Reference Address} {answer : Except Exn Bool} (hthis : Genuine table heap this)
    (hother : Genuine table heap other)
    (hanswer : Returns (objectEqualsBody table heap) (this, .object other) answer) :
    Returns (objectEqualsBody table heap) (other, .object this) answer := by
  obtain ⟨n, hn⟩ := hanswer
  exact ⟨n + 1, (objectEquals_swap hgenuine hgenuine (.refl _) n).object _ _ _ _ _
    hthis hother hthis hother rfl rfl hn⟩

theorem returns_trans
    (hgenuine : ∀ address property, GenuineValue table heap ((heap address).values property))
    {one two three : Reference Address} (htwo : Genuine table heap two)
    (hthree : Genuine table heap three)
    (hfirst : Returns (objectEqualsBody table heap) (one, .object two) (.ok true))
    (hsecond : Returns (objectEqualsBody table heap) (two, .object three) (.ok true)) :
    Returns (objectEqualsBody table heap) (one, .object three) (.ok true) := by
  obtain ⟨n, hn⟩ := hfirst
  obtain ⟨m, hm⟩ := hsecond
  refine ⟨max n m, objectEquals_trans hgenuine _ one two three htwo hthree ?_ ?_⟩
  · exact approx_mono monotone_objectEqualsBody (Nat.le_max_left n m) _ _ hn
  · exact approx_mono monotone_objectEqualsBody (Nat.le_max_right n m) _ _ hm

end SharpArch.Domain.DomainModel
