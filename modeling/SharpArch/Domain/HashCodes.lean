import SharpArch.Domain.Equality

/-!
# Hash codes of domain objects

`GetHashCode` of an entity is computed at the first call and kept in `_cachedHashcode` from then on;
`CachedHashcodes` is that field of every entity. A transient entity and a value object hash their
class and the values of their signature properties, a persisted entity its class and identifier.
Hashing a signature hashes the objects it refers to, which may fill their fields in passing.

`freshHashCode` is the code the present state of an object gives, with nothing kept. Equal objects
have equal fresh hash codes, whatever their histories (`fresh_of_equals`). `GetHashCode` returns
the fresh code as long as the codes kept within reach of the object are fresh themselves, and the
codes it leaves behind are fresh (`getHashCode_of_upToDate`).
-/

set_option autoImplicit false
set_option relaxedAutoImplicit false

namespace SharpArch.Domain.DomainModel

open Foundation.Fuel Platform.SystemTransactions

variable {Class Property Leaf Key Address : Type}

/-! ### `GetHashCode` -/

/-- `HashMultiplier`. -/
def hashMultiplier : Int32 := 31

/-- One round of the accumulation, in 32 bits. -/
def combine (hashCode valueHashCode : Int32) : Int32 := (hashCode * hashMultiplier) ^^^ valueHashCode

/-- The hash code of a persisted entity. -/
def persistedHashCode (table : ClassTable Class Property Leaf Key Address)
    (object : DomainObject Class Property Leaf Key Address) : Int32 :=
  match object.id with
  | none => table.typeHash object.type * hashMultiplier
  | some id => (table.typeHash object.type * hashMultiplier) ^^^ table.keys.hashCode id

/-- The field `_cachedHashcode` of every entity. -/
abbrev CachedHashcodes (Address : Type) := Address → Option Int32

/-- How a call of `GetHashCode` ends, with the fields after it; `none` when the recursion is not
unfolded far enough. -/
abbrev HashAnswer (Address : Type) := Option (Except Exn Int32 × CachedHashcodes Address)

/-- The recursive call of `GetHashCode`, which a proxy forwards to the object at an address. -/
abbrev HashCall (Address : Type) := Address × CachedHashcodes Address → HashAnswer Address

/-- The loop of `BaseObject.GetHashCode`. -/
def signatureHashCode (table : ClassTable Class Property Leaf Key Address)
    (values : Property → PropertyValue Leaf Address) (getHashCode : HashCall Address) :
    List Property → Int32 → CachedHashcodes Address → HashAnswer Address
  | [], hashCode, cached => some (.ok hashCode, cached)
  | property :: rest, hashCode, cached =>
    match values property with
    | .null => signatureHashCode table values getHashCode rest hashCode cached
    | .leaf value =>
      signatureHashCode table values getHashCode rest
        (combine hashCode (table.leaves.hashCode value)) cached
    | .object reference =>
      match getHashCode (reference.target, cached) with
      | some (.ok valueHashCode, cached) =>
        signatureHashCode table values getHashCode rest (combine hashCode valueHashCode) cached
      | answer => answer

/-- `BaseObject.GetHashCode`. -/
def baseObjectGetHashCode (table : ClassTable Class Property Leaf Key Address)
    (heap : Heap Class Property Leaf Key Address) (getHashCode : HashCall Address) (this : Address)
    (cached : CachedHashcodes Address) : HashAnswer Address :=
  match signatureOf table.classes (heap this).type with
  | .error exception => some (.error exception, cached)
  | .ok [] => some (.ok (table.identityHash this), cached)
  | .ok properties =>
    signatureHashCode table (heap this).values getHashCode properties
      (table.typeHash (heap this).type) cached

section Caching

variable [DecidableEq Address]

/-- The assignment of `_cachedHashcode` when the code has been computed. -/
def cacheHashcode (this : Address) : HashAnswer Address → HashAnswer Address
  | some (.ok hashCode, cached) =>
    some (.ok hashCode, Function.update cached this (some hashCode))
  | answer => answer

/-- `Entity<TId>.GetHashCode`. -/
def entityGetHashCode (table : ClassTable Class Property Leaf Key Address)
    (heap : Heap Class Property Leaf Key Address) (getHashCode : HashCall Address) (this : Address)
    (cached : CachedHashcodes Address) : HashAnswer Address :=
  match cached this with
  | some hashCode => some (.ok hashCode, cached)
  | none =>
    if isTransient table (heap this) then
      cacheHashcode this (baseObjectGetHashCode table heap getHashCode this cached)
    else cacheHashcode this (some (.ok (persistedHashCode table (heap this)), cached))

/-- The body of the virtual `GetHashCode`. -/
def getHashCodeBody (table : ClassTable Class Property Leaf Key Address)
    (heap : Heap Class Property Leaf Key Address) (getHashCode : HashCall Address)
    (call : Address × CachedHashcodes Address) : HashAnswer Address :=
  match table.kind (heap call.1).type with
  | .entity _ => entityGetHashCode table heap getHashCode call.1 call.2
  | .valueObject => baseObjectGetHashCode table heap getHashCode call.1 call.2

/-- `GetHashCode`, unfolded a number of times. -/
def getHashCode (table : ClassTable Class Property Leaf Key Address)
    (heap : Heap Class Property Leaf Key Address) (n : ℕ) (this : Reference Address)
    (cached : CachedHashcodes Address) : HashAnswer Address :=
  approx (getHashCodeBody table heap) n (this.target, cached)

end Caching

/-! ### The hash code of the present state -/

/-- A recursive call for the hash code of the present state. -/
abbrev FreshCall (Address : Type) := Address → Option (Except Exn Int32)

/-- The loop over the signature, with no code kept. -/
def freshSignatureHashCode (table : ClassTable Class Property Leaf Key Address)
    (values : Property → PropertyValue Leaf Address) (fresh : FreshCall Address) :
    List Property → Int32 → Option (Except Exn Int32)
  | [], hashCode => some (.ok hashCode)
  | property :: rest, hashCode =>
    match values property with
    | .null => freshSignatureHashCode table values fresh rest hashCode
    | .leaf value =>
      freshSignatureHashCode table values fresh rest (combine hashCode (table.leaves.hashCode value))
    | .object reference =>
      match fresh reference.target with
      | some (.ok valueHashCode) =>
        freshSignatureHashCode table values fresh rest (combine hashCode valueHashCode)
      | answer => answer

/-- The hash code of the signature of an object. -/
def freshBaseHashCode (table : ClassTable Class Property Leaf Key Address)
    (heap : Heap Class Property Leaf Key Address) (fresh : FreshCall Address) (this : Address) :
    Option (Except Exn Int32) :=
  match signatureOf table.classes (heap this).type with
  | .error exception => some (.error exception)
  | .ok [] => some (.ok (table.identityHash this))
  | .ok properties =>
    freshSignatureHashCode table (heap this).values fresh properties
      (table.typeHash (heap this).type)

/-- The body of the hash code that the present state of an object gives. -/
def freshHashCode (table : ClassTable Class Property Leaf Key Address)
    (heap : Heap Class Property Leaf Key Address) (fresh : FreshCall Address) (this : Address) :
    Option (Except Exn Int32) :=
  match table.kind (heap this).type with
  | .entity _ =>
    if isTransient table (heap this) then freshBaseHashCode table heap fresh this
    else some (.ok (persistedHashCode table (heap this)))
  | .valueObject => freshBaseHashCode table heap fresh this

variable {table : ClassTable Class Property Leaf Key Address}
  {heap : Heap Class Property Leaf Key Address} {this other : Address}

theorem freshHashCode_of_persisted {fresh : FreshCall Address}
    (hpersisted : IsPersisted table (heap this)) :
    freshHashCode table heap fresh this = some (.ok (persistedHashCode table (heap this))) := by
  obtain ⟨⟨idType, hkind⟩, htransient⟩ := hpersisted
  simp [freshHashCode, hkind, htransient]

theorem freshHashCode_of_not_persisted {fresh : FreshCall Address}
    (hpersisted : ¬ IsPersisted table (heap this)) :
    freshHashCode table heap fresh this = freshBaseHashCode table heap fresh this := by
  unfold freshHashCode
  split
  · next idType hkind => rw [if_pos ((not_isPersisted_iff hkind).mp hpersisted)]
  · rfl

theorem freshSignatureHashCode_below {first second : FreshCall Address} (hbelow : Below first second)
    (values : Property → PropertyValue Leaf Address) (properties : List Property) (code : Int32)
    {answer : Except Exn Int32}
    (hanswer : freshSignatureHashCode table values first properties code = some answer) :
    freshSignatureHashCode table values second properties code = some answer := by
  induction properties generalizing code with
  | nil => exact hanswer
  | cons property rest ih =>
    simp only [freshSignatureHashCode] at hanswer ⊢
    cases hvalue : values property with
    | null =>
      rw [hvalue] at hanswer
      exact ih _ hanswer
    | leaf value =>
      rw [hvalue] at hanswer
      exact ih _ hanswer
    | object reference =>
      rw [hvalue] at hanswer
      rcases hfirst : first reference.target with _ | result
      · simp [hfirst] at hanswer
      · simp only [hfirst, hbelow _ _ hfirst] at hanswer ⊢
        rcases result with exception | valueHashCode
        · exact hanswer
        · exact ih _ hanswer

theorem monotone_freshHashCode : Monotone (freshHashCode table heap) := by
  intro first second hbelow address answer hanswer
  by_cases hpersisted : IsPersisted table (heap address)
  · rw [freshHashCode_of_persisted hpersisted] at hanswer ⊢
    exact hanswer
  · rw [freshHashCode_of_not_persisted hpersisted] at hanswer ⊢
    unfold freshBaseHashCode at hanswer ⊢
    split at hanswer
    · exact hanswer
    · exact hanswer
    · exact freshSignatureHashCode_below hbelow _ _ _ hanswer

/-- The loop over the signature is answered when the codes of the objects in it are. -/
theorem exists_freshSignatureHashCode {fresh : FreshCall Address}
    {values : Property → PropertyValue Leaf Address} (properties : List Property)
    (hobject : ∀ property ∈ properties, ∀ reference, values property = .object reference →
      ∃ answer, fresh reference.target = some answer) (code : Int32) :
    ∃ answer, freshSignatureHashCode table values fresh properties code = some answer := by
  induction properties generalizing code with
  | nil => exact ⟨_, rfl⟩
  | cons property rest ih =>
    obtain ⟨hproperty, hrest⟩ := List.forall_mem_cons.mp hobject
    simp only [freshSignatureHashCode]
    cases hvalue : values property with
    | null => exact ih hrest _
    | leaf value => exact ih hrest _
    | object reference =>
      obtain ⟨exception | valueHashCode, hanswer⟩ := hproperty reference hvalue
      · exact ⟨.error exception, by simp [hanswer]⟩
      · simp only [hanswer]
        exact ih hrest _

/-- What holds of every object that a signature refers to after some unfolding, and keeps holding,
holds of all of them after one. -/
theorem exists_unfolding_references {holds : ℕ → Address → Prop}
    (hmono : ∀ n m address, n ≤ m → holds n address → holds m address)
    {values : Property → PropertyValue Leaf Address} (properties : List Property)
    (hobject : ∀ property ∈ properties, ∀ reference, values property = .object reference →
      ∃ n, holds n reference.target) :
    ∃ n, ∀ property ∈ properties, ∀ reference, values property = .object reference →
      holds n reference.target := by
  refine exists_unfolding_forall_mem (fun n m property hle hall reference hvalue ↦
    hmono n m _ hle (hall reference hvalue)) properties fun property hmem ↦ ?_
  cases hvalue : values property with
  | null => exact ⟨0, fun reference h ↦ absurd h (by simp)⟩
  | leaf value => exact ⟨0, fun reference h ↦ absurd h (by simp)⟩
  | object reference =>
    obtain ⟨n, hn⟩ := hobject property hmem reference hvalue
    refine ⟨n, fun other hother ↦ ?_⟩
    obtain rfl := PropertyValue.object.inj hother
    exact hn

/-- The present state of every object gives a hash code, or throws, when the signature references
that are followed are well-founded. -/
theorem exists_returns_freshHashCode (hwellFounded : WellFounded (SignatureReference table heap))
    (this : Address) : ∃ answer, Returns (freshHashCode table heap) this answer := by
  induction this using hwellFounded.induction with
  | _ this ih =>
    by_cases hpersisted : IsPersisted table (heap this)
    · exact ⟨_, 1, freshHashCode_of_persisted hpersisted⟩
    have hbase : ∃ n answer,
        freshBaseHashCode table heap (approx (freshHashCode table heap) n) this = some answer := by
      rcases hproperties : signatureOf table.classes (heap this).type with exception | _ | ⟨head, rest⟩
      · exact ⟨0, .error exception, by simp [freshBaseHashCode, hproperties]⟩
      · exact ⟨0, .ok (table.identityHash this), by simp [freshBaseHashCode, hproperties]⟩
      · have hmono : ∀ n m address, n ≤ m →
            (∃ answer, approx (freshHashCode table heap) n address = some answer) →
            ∃ answer, approx (freshHashCode table heap) m address = some answer := by
          rintro n m address hle ⟨answer, hanswer⟩
          exact ⟨answer, approx_mono monotone_freshHashCode hle _ _ hanswer⟩
        have hobject : ∀ property ∈ head :: rest, ∀ reference,
            (heap this).values property = .object reference →
              ∃ n answer, approx (freshHashCode table heap) n reference.target = some answer := by
          intro property hmem reference hvalue
          obtain ⟨answer, n, hn⟩ := ih reference.target
            ⟨hpersisted, head :: rest, property, reference, hproperties, hmem, hvalue, rfl⟩
          exact ⟨n, answer, hn⟩
        obtain ⟨n, hn⟩ := exists_unfolding_references hmono (head :: rest) hobject
        obtain ⟨answer, hanswer⟩ := exists_freshSignatureHashCode (head :: rest) hn
          (table.typeHash (heap this).type)
        exact ⟨n, answer, by simpa only [freshBaseHashCode, hproperties] using hanswer⟩
    obtain ⟨n, answer, hanswer⟩ := hbase
    exact ⟨answer, n + 1, by rw [approx_succ, freshHashCode_of_not_persisted hpersisted, hanswer]⟩

/-! ### Equal objects -/

theorem persistedHashCode_congr {object other : DomainObject Class Property Leaf Key Address}
    (htype : object.type = other.type) (hid : hasSameNonDefaultIdAs table object other = true) :
    persistedHashCode table object = persistedHashCode table other := by
  obtain ⟨-, -, id, otherId, hobject, hother, hequal⟩ := hasSameNonDefaultIdAs_iff.mp hid
  simp only [persistedHashCode, hobject, hother, htype, table.keys.hashCode_of_equals _ _ hequal]

/-- Two property values add the same to a hash code, the objects among them by the one call and the
other. -/
def SameCode (table : ClassTable Class Property Leaf Key Address) (fresh fresh' : FreshCall Address) :
    PropertyValue Leaf Address → PropertyValue Leaf Address → Prop
  | .null, .null => True
  | .leaf value, .leaf other => table.leaves.hashCode value = table.leaves.hashCode other
  | .object reference, .object other => fresh reference.target = fresh' other.target
  | _, _ => False

theorem freshSignatureHashCode_congr {fresh fresh' : FreshCall Address}
    {first second : Property → PropertyValue Leaf Address} (properties : List Property)
    (hsame : ∀ property ∈ properties, SameCode table fresh fresh' (first property) (second property))
    (code : Int32) :
    freshSignatureHashCode table first fresh properties code =
      freshSignatureHashCode table second fresh' properties code := by
  induction properties generalizing code with
  | nil => rfl
  | cons property rest ih =>
    obtain ⟨hproperty, hrest⟩ := List.forall_mem_cons.mp hsame
    simp only [freshSignatureHashCode]
    cases hfirst : first property <;> cases hsecond : second property <;>
      rw [hfirst, hsecond] at hproperty <;> simp only [SameCode] at hproperty ⊢
    · exact ih hrest _
    · rw [hproperty]
      exact ih hrest _
    · rw [hproperty]
      split
      · exact ih hrest _
      · rfl

/-- Property values that `Equals` cannot tell apart add the same to a hash code. -/
theorem sameCode_of_same {fresh : FreshCall Address} {equals : EqualsCall Leaf Address}
    (hleaf : ∀ reference value, equals (reference, .leaf value) ≠ some (.ok true))
    (hobject : ∀ reference other, equals (reference, .object other) = some (.ok true) →
      fresh reference.target = fresh other.target)
    {value other : PropertyValue Leaf Address}
    (hsame : samePropertyValue table equals value other = some (.ok true)) :
    SameCode table fresh fresh value other := by
  cases value with
  | null =>
    cases other with
    | null => trivial
    | leaf other => simp [samePropertyValue] at hsame
    | object other => simp [samePropertyValue] at hsame
  | leaf value =>
    cases other with
    | null => simp [samePropertyValue] at hsame
    | leaf other => exact table.leaves.hashCode_of_equals _ _ (by simpa [samePropertyValue] using hsame)
    | object other => simp [samePropertyValue] at hsame
  | object reference =>
    cases other with
    | null => simp [samePropertyValue] at hsame
    | leaf other => exact absurd hsame (hleaf reference other)
    | object other => exact hobject reference other hsame

section Equal

variable [DecidableEq Class] [DecidableEq Address] {equals : EqualsCall Leaf Address}

omit [DecidableEq Class] in
theorem hasSameObjectSignatureAs_eq_true {reference : Reference Address}
    (htrue : hasSameObjectSignatureAs table heap equals this reference = some (.ok true)) :
    this = reference.target ∨
      sameSignature table heap equals this reference.target = some (.ok true) := by
  by_cases hsame : reference.target = this
  · exact Or.inl hsame.symm
  · exact Or.inr (hasSameObjectSignatureAs_eq hsame ▸ htrue)

/-- The ways in which `Equals` can answer true: the same object, persisted entities of one class with
equal identifiers, or objects of one class, not persisted, with equal signatures. -/
theorem objectEqualsBody_eq_true {reference other : Reference Address}
    (htrue : objectEqualsBody table heap equals (reference, .object other) = some (.ok true)) :
    reference.target = other.target ∨ (heap reference.target).type = (heap other.target).type ∧
      ((IsPersisted table (heap reference.target) ∧ IsPersisted table (heap other.target) ∧
          hasSameNonDefaultIdAs table (heap reference.target) (heap other.target) = true) ∨
        ¬ IsPersisted table (heap reference.target) ∧ ¬ IsPersisted table (heap other.target) ∧
          sameSignature table heap equals reference.target other.target = some (.ok true)) := by
  unfold objectEqualsBody at htrue
  split at htrue
  · next idType hkind =>
    by_cases hcast : table.kind (heap other.target).type = .entity idType
    · simp only [asEntity, hcast, if_true, entityEquals] at htrue
      by_cases hsame : other = .direct reference.target
      · exact Or.inl (congrArg Reference.target hsame).symm
      by_cases htype : (heap reference.target).type = (heap other.target).type
      · simp only [hsame, not_not.mpr htype, if_false] at htrue
        split_ifs at htrue with hid htransient
        · refine Or.inr ⟨htype, Or.inl ⟨?_, ?_, hid⟩⟩
          · exact isPersisted_of_sameId ⟨idType, hkind⟩ (Or.inr hid)
          · exact isPersisted_of_sameId ⟨idType, hcast⟩ (Or.inl hid)
        · obtain ⟨hthis, hother⟩ := Bool.and_eq_true_iff.mp htransient
          exact (hasSameObjectSignatureAs_eq_true htrue).imp_right fun hsignature ↦
            ⟨htype, Or.inr ⟨(not_isPersisted_iff hkind).mpr hthis,
              (not_isPersisted_iff hcast).mpr hother, hsignature⟩⟩
        · exact absurd htrue (by simp)
      · simp [hsame, htype] at htrue
    · simp [asEntity, hcast, entityEquals] at htrue
  · next hkind =>
    simp only [baseObjectEquals] at htrue
    split_ifs at htrue with hsame htype
    · exact Or.inl (congrArg Reference.target hsame).symm
    · have hother : table.kind (heap other.target).type = .valueObject := htype ▸ hkind
      exact (hasSameObjectSignatureAs_eq_true htrue).imp_right fun hsignature ↦
        ⟨htype, Or.inr ⟨not_isPersisted_of_valueObject hkind,
          not_isPersisted_of_valueObject hother, hsignature⟩⟩
    · exact absurd htrue (by simp)

/-- Equal objects have the same fresh hash code, however far it is unfolded. -/
theorem fresh_of_equals (n m : ℕ) (reference other : Reference Address)
    (htrue : approx (objectEqualsBody table heap) n (reference, .object other) = some (.ok true)) :
    approx (freshHashCode table heap) m reference.target =
      approx (freshHashCode table heap) m other.target := by
  induction n generalizing m reference other with
  | zero => exact absurd htrue (by simp)
  | succ n ih =>
    rw [approx_succ] at htrue
    cases m with
    | zero => rfl
    | succ m =>
      rw [approx_succ, approx_succ]
      rcases objectEqualsBody_eq_true htrue with hsame | ⟨htype, hcase⟩
      · rw [hsame]
      rcases hcase with ⟨hthis, hother, hid⟩ | ⟨hthis, hother, hsignature⟩
      · rw [freshHashCode_of_persisted hthis, freshHashCode_of_persisted hother,
          persistedHashCode_congr htype hid]
      · rw [freshHashCode_of_not_persisted hthis, freshHashCode_of_not_persisted hother]
        obtain ⟨properties, hproperties, hnonempty, hvalues⟩ := sameSignature_eq_true_iff.mp hsignature
        have hloop := freshSignatureHashCode_congr properties (fun property hmem ↦
          sameCode_of_same (equals_leaf_ne_true n) (fun one two ↦ ih m one two)
            (hvalues property hmem)) (table.typeHash (heap reference.target).type)
        cases properties with
        | nil => exact absurd rfl hnonempty
        | cons property rest =>
          simp only [freshBaseHashCode, ← htype, hproperties]
          exact hloop

omit [DecidableEq Class] [DecidableEq Address] in
/-- The loop over a signature whose values can all be hashed compares without an exception. -/
theorem samePropertyValues_of_fresh {fresh : FreshCall Address}
    {values : Property → PropertyValue Leaf Address} (others : Property → PropertyValue Leaf Address)
    (hobject : ∀ property reference hashCode, values property = .object reference →
      fresh reference.target = some (.ok hashCode) →
        ∃ same, equals (reference, others property) = some (.ok same))
    (properties : List Property) (code : Int32) {hashCode : Int32}
    (hfresh : freshSignatureHashCode table values fresh properties code = some (.ok hashCode)) :
    ∃ same, samePropertyValues table equals values others properties = some (.ok same) := by
  induction properties generalizing code with
  | nil => exact ⟨true, rfl⟩
  | cons property rest ih =>
    have hcontinue : ∀ code, freshSignatureHashCode table values fresh rest code = some (.ok hashCode) →
        (∃ same, samePropertyValue table equals (values property) (others property) =
          some (.ok same)) →
        ∃ same, samePropertyValues table equals values others (property :: rest) = some (.ok same) := by
      rintro code hrest ⟨same, hsame⟩
      simp only [samePropertyValues, hsame]
      cases same with
      | false => exact ⟨false, rfl⟩
      | true => exact ih code hrest
    simp only [freshSignatureHashCode] at hfresh
    cases hvalue : values property with
    | null =>
      rw [hvalue] at hfresh hcontinue
      exact hcontinue _ hfresh (by cases others property <;> exact ⟨_, rfl⟩)
    | leaf value =>
      rw [hvalue] at hfresh hcontinue
      exact hcontinue _ hfresh (by cases others property <;> exact ⟨_, rfl⟩)
    | object reference =>
      rw [hvalue] at hfresh hcontinue
      rcases hcode : fresh reference.target with _ | exception | valueHashCode
      · simp [hcode] at hfresh
      · simp [hcode] at hfresh
      · refine hcontinue (combine code valueHashCode) (by simpa [hcode] using hfresh) ?_
        have hequals := hobject property reference valueHashCode hvalue hcode
        rcases hother : others property with _ | other | other
        · exact ⟨false, rfl⟩
        · rw [hother] at hequals
          exact hequals
        · rw [hother] at hequals
          exact hequals

/-- An object that can be hashed can be compared with everything: `Equals` answers, and without an
exception. -/
theorem equals_of_fresh
    (hgenuine : ∀ address property, GenuineValue table heap ((heap address).values property))
    (n : ℕ) (this : Reference Address) (hashCode : Int32)
    (hfresh : approx (freshHashCode table heap) n this.target = some (.ok hashCode))
    (value : PropertyValue Leaf Address) (hvalue : GenuineValue table heap value) :
    ∃ same, approx (objectEqualsBody table heap) n (this, value) = some (.ok same) := by
  induction n generalizing this hashCode value with
  | zero => exact absurd hfresh (by simp)
  | succ n ih =>
    cases value with
    | null => exact ⟨false, objectEqualsBody_of_not_object (by simp) this⟩
    | leaf value => exact ⟨false, objectEqualsBody_of_not_object (by simp) this⟩
    | object other =>
      rw [approx_succ, objectEqualsBody_object hvalue, addressEquals]
      cases hdecided : decided table heap this.target other.target with
      | some decision => exact ⟨decision, rfl⟩
      | none =>
        obtain ⟨-, -, hpersisted, -⟩ := decided_eq_none_iff.mp hdecided
        rw [approx_succ, freshHashCode_of_not_persisted hpersisted] at hfresh
        rcases hproperties : signatureOf table.classes (heap this.target).type with
          exception | _ | ⟨head, rest⟩
        · simp [freshBaseHashCode, hproperties] at hfresh
        · exact ⟨false, by simp [sameSignature, hproperties]⟩
        · simp only [freshBaseHashCode, hproperties] at hfresh
          simp only [sameSignature, hproperties]
          exact samePropertyValues_of_fresh (heap other.target).values
            (fun property reference code _ hcode ↦ ih reference code hcode _ (hgenuine _ _))
            (head :: rest) _ hfresh

end Equal

/-! ### The codes that are kept -/

/-- A chain of signature references leads from one object to another. -/
def Reaches (table : ClassTable Class Property Leaf Key Address)
    (heap : Heap Class Property Leaf Key Address) : Address → Address → Prop :=
  Relation.ReflTransGen fun parent child ↦ SignatureReference table heap child parent

/-- Every code kept within reach of an object is the one its present state gives. -/
def UpToDate (table : ClassTable Class Property Leaf Key Address)
    (heap : Heap Class Property Leaf Key Address) (cached : CachedHashcodes Address)
    (this : Address) : Prop :=
  ∀ address hashCode, Reaches table heap this address → cached address = some hashCode →
    Returns (freshHashCode table heap) address (.ok hashCode)

/-- The fields after some calls on an object: as they were, or filled with a fresh code within reach
of it. -/
def KeepsFresh (table : ClassTable Class Property Leaf Key Address)
    (heap : Heap Class Property Leaf Key Address) (this : Address)
    (cached later : CachedHashcodes Address) : Prop :=
  ∀ address, later address = cached address ∨ Reaches table heap this address ∧
    ∃ hashCode, later address = some hashCode ∧
      Returns (freshHashCode table heap) address (.ok hashCode)

variable {cached later : CachedHashcodes Address}

theorem KeepsFresh.refl (cached : CachedHashcodes Address) : KeepsFresh table heap this cached cached :=
  fun _ ↦ Or.inl rfl

theorem KeepsFresh.trans {last : CachedHashcodes Address} (hfirst : KeepsFresh table heap this cached later)
    (hsecond : KeepsFresh table heap this later last) : KeepsFresh table heap this cached last := by
  intro address
  rcases hsecond address with hsame | hfresh
  · rw [hsame]
    exact hfirst address
  · exact Or.inr hfresh

theorem KeepsFresh.update [DecidableEq Address] (hkeeps : KeepsFresh table heap this cached later)
    {hashCode : Int32} (hfresh : Returns (freshHashCode table heap) this (.ok hashCode)) :
    KeepsFresh table heap this cached (Function.update later this (some hashCode)) := by
  intro address
  by_cases hself : address = this
  · rw [hself, Function.update_self]
    exact Or.inr ⟨.refl, hashCode, rfl, hfresh⟩
  · rw [Function.update_of_ne hself]
    exact hkeeps address

theorem KeepsFresh.of_child (hkeeps : KeepsFresh table heap other cached later)
    (hchild : SignatureReference table heap other this) : KeepsFresh table heap this cached later :=
  fun address ↦ (hkeeps address).imp_right fun ⟨hreaches, hfresh⟩ ↦ ⟨.head hchild hreaches, hfresh⟩

theorem UpToDate.keepsFresh (hupToDate : UpToDate table heap cached this)
    (hkeeps : KeepsFresh table heap other cached later) : UpToDate table heap later this := by
  intro address hashCode hreaches hcached
  rcases hkeeps address with hsame | ⟨-, fresh, hlater, hfresh⟩
  · exact hupToDate address hashCode hreaches (hsame ▸ hcached)
  · obtain rfl : fresh = hashCode := Option.some.inj (hlater.symm.trans hcached)
    exact hfresh

/-- The hash code of the present state depends only on the objects within reach. -/
theorem fresh_congr {present : Heap Class Property Leaf Key Address}
    (hsame : ∀ address, Reaches table heap this address → present address = heap address) (n : ℕ) :
    approx (freshHashCode table present) n this = approx (freshHashCode table heap) n this := by
  induction n generalizing this with
  | zero => rfl
  | succ n ih =>
    have hthis := hsame this .refl
    rw [approx_succ, approx_succ]
    by_cases hpersisted : IsPersisted table (heap this)
    · have hpersisted' : IsPersisted table (present this) := hthis ▸ hpersisted
      rw [freshHashCode_of_persisted hpersisted, freshHashCode_of_persisted hpersisted', hthis]
    · have hpersisted' : ¬ IsPersisted table (present this) := hthis ▸ hpersisted
      rw [freshHashCode_of_not_persisted hpersisted, freshHashCode_of_not_persisted hpersisted']
      simp only [freshBaseHashCode, hthis]
      rcases hproperties : signatureOf table.classes (heap this).type with exception | _ | ⟨head, rest⟩
      · rfl
      · rfl
      · refine freshSignatureHashCode_congr (head :: rest) (fun property hmem ↦ ?_) _
        cases hvalue : (heap this).values property with
        | null => trivial
        | leaf value => rfl
        | object reference =>
          refine ih fun address hreaches ↦ hsame address (.head ?_ hreaches)
          exact ⟨hpersisted, head :: rest, property, reference, hproperties, hmem, hvalue, rfl⟩

theorem UpToDate.child (hupToDate : UpToDate table heap cached this)
    (hchild : SignatureReference table heap other this) : UpToDate table heap cached other :=
  fun address hashCode hreaches ↦ hupToDate address hashCode (.head hchild hreaches)

/-- The loop over the signature gives the fresh code when its recursive calls do. -/
theorem signatureHashCode_fresh {call : HashCall Address}
    {values : Property → PropertyValue Leaf Address} (properties : List Property)
    (hchild : ∀ property ∈ properties, ∀ reference, values property = .object reference →
      ∀ between answer after, KeepsFresh table heap this cached between →
        call (reference.target, between) = some (answer, after) →
          Returns (freshHashCode table heap) reference.target answer ∧
            KeepsFresh table heap this between after)
    (code : Int32) (between : CachedHashcodes Address) (hbetween : KeepsFresh table heap this cached between)
    {answer : Except Exn Int32}
    (hanswer : signatureHashCode table values call properties code between = some (answer, later)) :
    (∃ m, freshSignatureHashCode table values (approx (freshHashCode table heap) m) properties code =
      some answer) ∧ KeepsFresh table heap this cached later := by
  induction properties generalizing code between with
  | nil =>
    obtain ⟨rfl, rfl⟩ := Prod.mk.inj (Option.some.inj hanswer)
    exact ⟨⟨0, rfl⟩, hbetween⟩
  | cons property rest ih =>
    have hrest := ih fun other hmem ↦ hchild other (List.mem_cons_of_mem _ hmem)
    simp only [signatureHashCode] at hanswer
    simp only [freshSignatureHashCode]
    cases hvalue : values property with
    | null =>
      rw [hvalue] at hanswer
      exact hrest _ between hbetween hanswer
    | leaf value =>
      rw [hvalue] at hanswer
      exact hrest _ between hbetween hanswer
    | object reference =>
      rw [hvalue] at hanswer
      rcases hcall : call (reference.target, between) with _ | ⟨result, after⟩
      · simp [hcall] at hanswer
      obtain ⟨⟨m, hfresh⟩, hafter⟩ :=
        hchild property List.mem_cons_self reference hvalue between result after hbetween hcall
      rcases result with exception | valueHashCode
      · obtain ⟨rfl, rfl⟩ := Prod.mk.inj (Option.some.inj (by simpa [hcall] using hanswer))
        exact ⟨⟨m, by simp [hfresh]⟩, hbetween.trans hafter⟩
      · obtain ⟨⟨k, hloop⟩, hlater⟩ := hrest (combine code valueHashCode) after
          (hbetween.trans hafter) (by simpa [hcall] using hanswer)
        refine ⟨⟨max m k, ?_⟩, hlater⟩
        have hfresh' := approx_mono monotone_freshHashCode (Nat.le_max_left m k) _ _ hfresh
        simp only [hfresh']
        exact freshSignatureHashCode_below
          (approx_mono monotone_freshHashCode (Nat.le_max_right m k)) _ _ _ hloop

theorem baseObjectGetHashCode_fresh {call : HashCall Address} (hpersisted : ¬ IsPersisted table (heap this))
    (hupToDate : UpToDate table heap cached this)
    (hcall : ∀ child between answer after, UpToDate table heap between child →
      call (child, between) = some (answer, after) →
        Returns (freshHashCode table heap) child answer ∧ KeepsFresh table heap child between after)
    {answer : Except Exn Int32}
    (hanswer : baseObjectGetHashCode table heap call this cached = some (answer, later)) :
    Returns (freshHashCode table heap) this answer ∧ KeepsFresh table heap this cached later := by
  have hreturns : ∀ m, freshBaseHashCode table heap (approx (freshHashCode table heap) m) this =
      some answer → Returns (freshHashCode table heap) this answer := by
    intro m hm
    exact ⟨m + 1, by rw [approx_succ, freshHashCode_of_not_persisted hpersisted, hm]⟩
  rcases hproperties : signatureOf table.classes (heap this).type with exception | _ | ⟨head, rest⟩
  · simp only [baseObjectGetHashCode, hproperties] at hanswer
    obtain ⟨rfl, rfl⟩ := Prod.mk.inj (Option.some.inj hanswer)
    exact ⟨hreturns 0 (by simp [freshBaseHashCode, hproperties]), .refl _⟩
  · simp only [baseObjectGetHashCode, hproperties] at hanswer
    obtain ⟨rfl, rfl⟩ := Prod.mk.inj (Option.some.inj hanswer)
    exact ⟨hreturns 0 (by simp [freshBaseHashCode, hproperties]), .refl _⟩
  · simp only [baseObjectGetHashCode, hproperties] at hanswer
    have hchild : ∀ property ∈ head :: rest, ∀ reference,
        (heap this).values property = .object reference →
        ∀ between result after, KeepsFresh table heap this cached between →
          call (reference.target, between) = some (result, after) →
            Returns (freshHashCode table heap) reference.target result ∧
              KeepsFresh table heap this between after := by
      intro property hmem reference hvalue between result after hbetween hresult
      have hedge : SignatureReference table heap reference.target this :=
        ⟨hpersisted, head :: rest, property, reference, hproperties, hmem, hvalue, rfl⟩
      obtain ⟨hfresh, hafter⟩ :=
        hcall _ between result after ((hupToDate.child hedge).keepsFresh hbetween) hresult
      exact ⟨hfresh, hafter.of_child hedge⟩
    obtain ⟨⟨m, hm⟩, hlater⟩ := signatureHashCode_fresh (head :: rest) hchild _ cached (.refl _) hanswer
    exact ⟨hreturns m (by simpa only [freshBaseHashCode, hproperties] using hm), hlater⟩

section Answers

variable [DecidableEq Address]

theorem getHashCodeBody_of_cached {call : HashCall Address} {hashCode : Int32} {idType : Class}
    (hkind : table.kind (heap this).type = .entity idType) (hcached : cached this = some hashCode) :
    getHashCodeBody table heap call (this, cached) = some (.ok hashCode, cached) := by
  simp only [getHashCodeBody, hkind, entityGetHashCode, hcached]

theorem getHashCodeBody_of_transient {call : HashCall Address} {idType : Class}
    (hkind : table.kind (heap this).type = .entity idType) (hcached : cached this = none)
    (htransient : isTransient table (heap this) = true) :
    getHashCodeBody table heap call (this, cached) =
      cacheHashcode this (baseObjectGetHashCode table heap call this cached) := by
  simp only [getHashCodeBody, hkind, entityGetHashCode, hcached, htransient, if_true]

theorem getHashCodeBody_of_persisted {call : HashCall Address}
    (hpersisted : IsPersisted table (heap this)) (hcached : cached this = none) :
    getHashCodeBody table heap call (this, cached) =
      some (.ok (persistedHashCode table (heap this)),
        Function.update cached this (some (persistedHashCode table (heap this)))) := by
  obtain ⟨⟨idType, hkind⟩, htransient⟩ := hpersisted
  simp [getHashCodeBody, hkind, entityGetHashCode, hcached, htransient, cacheHashcode]

theorem getHashCodeBody_of_valueObject {call : HashCall Address}
    (hkind : table.kind (heap this).type = .valueObject) :
    getHashCodeBody table heap call (this, cached) =
      baseObjectGetHashCode table heap call this cached := by
  simp only [getHashCodeBody, hkind]

/-- What `GetHashCode` answers on an object within whose reach only fresh codes are kept is fresh,
and so are the codes it leaves. -/
theorem getHashCode_fresh (n : ℕ) (this : Address) (cached later : CachedHashcodes Address)
    (answer : Except Exn Int32) (hupToDate : UpToDate table heap cached this)
    (hanswer : approx (getHashCodeBody table heap) n (this, cached) = some (answer, later)) :
    Returns (freshHashCode table heap) this answer ∧ KeepsFresh table heap this cached later := by
  induction n generalizing this cached later answer with
  | zero => exact absurd hanswer (by simp)
  | succ n ih =>
    have hcall : ∀ child between answer after, UpToDate table heap between child →
        approx (getHashCodeBody table heap) n (child, between) = some (answer, after) →
          Returns (freshHashCode table heap) child answer ∧ KeepsFresh table heap child between after :=
      fun child between answer after ↦ ih child between after answer
    rw [approx_succ] at hanswer
    rcases hkind : table.kind (heap this).type with idType | _
    · rcases hcached : cached this with _ | hashCode
      · by_cases hpersisted : IsPersisted table (heap this)
        · rw [getHashCodeBody_of_persisted hpersisted hcached] at hanswer
          obtain ⟨rfl, rfl⟩ := Prod.mk.inj (Option.some.inj hanswer)
          have hfresh : Returns (freshHashCode table heap) this
              (.ok (persistedHashCode table (heap this))) := ⟨1, freshHashCode_of_persisted hpersisted⟩
          exact ⟨hfresh, (KeepsFresh.refl cached).update hfresh⟩
        · have htransient := (not_isPersisted_iff hkind).mp hpersisted
          rw [getHashCodeBody_of_transient hkind hcached htransient] at hanswer
          rcases hbase : baseObjectGetHashCode table heap (approx (getHashCodeBody table heap) n) this
            cached with _ | ⟨result, after⟩
          · simp [hbase, cacheHashcode] at hanswer
          obtain ⟨hfresh, hafter⟩ := baseObjectGetHashCode_fresh hpersisted hupToDate hcall hbase
          rw [hbase] at hanswer
          rcases result with exception | hashCode <;>
            obtain ⟨rfl, rfl⟩ := Prod.mk.inj (Option.some.inj hanswer)
          · exact ⟨hfresh, hafter⟩
          · exact ⟨hfresh, hafter.update hfresh⟩
      · rw [getHashCodeBody_of_cached hkind hcached] at hanswer
        obtain ⟨rfl, rfl⟩ := Prod.mk.inj (Option.some.inj hanswer)
        exact ⟨hupToDate this hashCode .refl hcached, .refl _⟩
    · rw [getHashCodeBody_of_valueObject hkind] at hanswer
      exact baseObjectGetHashCode_fresh (not_isPersisted_of_valueObject hkind) hupToDate hcall hanswer

omit [DecidableEq Address] in
/-- The loop over the signature answers when the fresh one does. -/
theorem exists_signatureHashCode {call : HashCall Address} {fresh : FreshCall Address}
    {values : Property → PropertyValue Leaf Address} (properties : List Property)
    (hchild : ∀ property ∈ properties, ∀ reference, values property = .object reference →
      ∀ between answer, KeepsFresh table heap this cached between → fresh reference.target = some answer →
        ∃ after, call (reference.target, between) = some (answer, after) ∧
          KeepsFresh table heap this between after)
    (code : Int32) (between : CachedHashcodes Address) (hbetween : KeepsFresh table heap this cached between)
    {answer : Except Exn Int32}
    (hanswer : freshSignatureHashCode table values fresh properties code = some answer) :
    ∃ after, signatureHashCode table values call properties code between = some (answer, after) := by
  induction properties generalizing code between with
  | nil => exact ⟨between, by simpa [signatureHashCode, freshSignatureHashCode] using hanswer⟩
  | cons property rest ih =>
    have hrest := ih fun other hmem ↦ hchild other (List.mem_cons_of_mem _ hmem)
    simp only [freshSignatureHashCode] at hanswer
    simp only [signatureHashCode]
    cases hvalue : values property with
    | null =>
      rw [hvalue] at hanswer
      exact hrest _ between hbetween hanswer
    | leaf value =>
      rw [hvalue] at hanswer
      exact hrest _ between hbetween hanswer
    | object reference =>
      rw [hvalue] at hanswer
      rcases hfresh : fresh reference.target with _ | result
      · simp [hfresh] at hanswer
      obtain ⟨after, hcall, hafter⟩ :=
        hchild property List.mem_cons_self reference hvalue between result hbetween hfresh
      rcases result with exception | valueHashCode
      · exact ⟨after, by simpa [hfresh, hcall] using hanswer⟩
      · simp only [hcall]
        exact hrest _ after (hbetween.trans hafter) (by simpa [hfresh] using hanswer)

/-- `BaseObject.GetHashCode` answers what the present state gives when the calls on the objects that
the signature refers to do. -/
theorem exists_baseObjectGetHashCode {n : ℕ} (hpersisted : ¬ IsPersisted table (heap this))
    (hupToDate : UpToDate table heap cached this)
    (hchild : ∀ child between result, UpToDate table heap between child →
      approx (freshHashCode table heap) n child = some result →
        ∃ after, approx (getHashCodeBody table heap) n (child, between) = some (result, after))
    {answer : Except Exn Int32}
    (hanswer : freshBaseHashCode table heap (approx (freshHashCode table heap) n) this =
      some answer) :
    ∃ later, baseObjectGetHashCode table heap (approx (getHashCodeBody table heap) n) this cached =
      some (answer, later) := by
  rcases hproperties : signatureOf table.classes (heap this).type with exception | _ | ⟨head, rest⟩
  · exact ⟨cached, by simpa [freshBaseHashCode, baseObjectGetHashCode, hproperties] using hanswer⟩
  · exact ⟨cached, by simpa [freshBaseHashCode, baseObjectGetHashCode, hproperties] using hanswer⟩
  · simp only [freshBaseHashCode, hproperties] at hanswer
    simp only [baseObjectGetHashCode, hproperties]
    have hproperty : ∀ property ∈ head :: rest, ∀ reference,
        (heap this).values property = .object reference →
        ∀ between result, KeepsFresh table heap this cached between →
          approx (freshHashCode table heap) n reference.target = some result →
            ∃ after, approx (getHashCodeBody table heap) n (reference.target, between) =
              some (result, after) ∧ KeepsFresh table heap this between after := by
      intro property hmem reference hvalue between result hbetween hresult
      have hedge : SignatureReference table heap reference.target this :=
        ⟨hpersisted, head :: rest, property, reference, hproperties, hmem, hvalue, rfl⟩
      have hthere := (hupToDate.child hedge).keepsFresh hbetween
      obtain ⟨after, hafter⟩ := hchild reference.target between result hthere hresult
      exact ⟨after, hafter,
        (getHashCode_fresh n _ between after result hthere hafter).2.of_child hedge⟩
    exact exists_signatureHashCode (head :: rest) hproperty _ cached (.refl _) hanswer

/-- `GetHashCode` answers on an object within whose reach only fresh codes are kept when there is a
fresh code. -/
theorem exists_getHashCode (n : ℕ) (this : Address) (cached : CachedHashcodes Address)
    (answer : Except Exn Int32) (hupToDate : UpToDate table heap cached this)
    (hanswer : approx (freshHashCode table heap) n this = some answer) :
    ∃ later, approx (getHashCodeBody table heap) n (this, cached) = some (answer, later) := by
  induction n generalizing this cached answer with
  | zero => exact absurd hanswer (by simp)
  | succ n ih =>
    have hbase : ¬ IsPersisted table (heap this) → ∃ later, baseObjectGetHashCode table heap
        (approx (getHashCodeBody table heap) n) this cached = some (answer, later) := by
      intro hpersisted
      rw [approx_succ, freshHashCode_of_not_persisted hpersisted] at hanswer
      exact exists_baseObjectGetHashCode hpersisted hupToDate
        (fun child between result ↦ ih child between result) hanswer
    rw [approx_succ]
    rcases hkind : table.kind (heap this).type with idType | _
    · rcases hcached : cached this with _ | hashCode
      · by_cases hpersisted : IsPersisted table (heap this)
        · rw [approx_succ, freshHashCode_of_persisted hpersisted] at hanswer
          obtain rfl := Option.some.inj hanswer
          exact ⟨_, getHashCodeBody_of_persisted hpersisted hcached⟩
        · obtain ⟨later, hlater⟩ := hbase hpersisted
          rw [getHashCodeBody_of_transient hkind hcached ((not_isPersisted_iff hkind).mp hpersisted),
            hlater]
          rcases answer with exception | hashCode
          · exact ⟨_, rfl⟩
          · exact ⟨_, rfl⟩
      · have hfresh := hupToDate this hashCode .refl hcached
        obtain rfl : answer = .ok hashCode := Returns.unique monotone_freshHashCode ⟨n + 1, hanswer⟩ hfresh
        exact ⟨cached, getHashCodeBody_of_cached hkind hcached⟩
    · rw [getHashCodeBody_of_valueObject hkind]
      exact hbase (not_isPersisted_of_valueObject hkind)

/-- On an object within whose reach only fresh codes are kept, `GetHashCode` answers what the
present state gives, and leaves only fresh codes. -/
theorem getHashCode_of_upToDate {reference : Reference Address}
    (hupToDate : UpToDate table heap cached reference.target) (answer : Except Exn Int32) :
    Returns (freshHashCode table heap) reference.target answer ↔
      ∃ n later, getHashCode table heap n reference cached = some (answer, later) ∧
        KeepsFresh table heap reference.target cached later := by
  constructor
  · rintro ⟨n, hn⟩
    obtain ⟨later, hlater⟩ := exists_getHashCode n reference.target cached answer hupToDate hn
    exact ⟨n, later, hlater, (getHashCode_fresh n _ cached later answer hupToDate hlater).2⟩
  · rintro ⟨n, later, hlater, -⟩
    exact (getHashCode_fresh n _ cached later answer hupToDate hlater).1

end Answers

end SharpArch.Domain.DomainModel
