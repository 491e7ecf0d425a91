import Mathlib.Data.List.Chain
import SharpArch.Domain.HashCodes

/-!
# `Equals` and `GetHashCode` terminate on cyclic graphs

Bidirectional associations make object graphs cyclic. `Equals` and `GetHashCode` follow a signature
reference only from an object that is not persisted: on a persisted entity the identifier decides.
So a graph is safe when each of its cycles passes through a persisted entity (`CyclesPersisted`),
which among finitely many objects makes the references that are followed well-founded
(`wellFounded_of_transientAcyclic`).

`equals_getHashCode_terminate` is for every reference to an object, the proxies among them genuine or
not, for every argument of `Equals`, and for every state of the hash codes that are kept.
-/

set_option autoImplicit false
set_option relaxedAutoImplicit false

namespace SharpArch.Domain.DomainModel

open Foundation.Fuel Platform.SystemTransactions

variable {Class Property Leaf Key Address : Type}

/-! ### Cycles -/

/-- A signature property of an object refers to another object. -/
def PropertyReference (table : ClassTable Class Property Leaf Key Address)
    (heap : Heap Class Property Leaf Key Address) (parent child : Address) : Prop :=
  ∃ properties property reference, signatureOf table.classes (heap parent).type = .ok properties ∧
    property ∈ properties ∧ (heap parent).values property = .object reference ∧
      reference.target = child

/-- Every cycle of signature references passes through a persisted entity. -/
def CyclesPersisted (table : ClassTable Class Property Leaf Key Address)
    (heap : Heap Class Property Leaf Key Address) : Prop :=
  ∀ first rest, List.IsChain (PropertyReference table heap) (first :: (rest ++ [first])) →
    ∃ address ∈ first :: rest, IsPersisted table (heap address)

/-- A signature reference between two objects that are not persisted: transient entities and value
objects. -/
def TransientReference (table : ClassTable Class Property Leaf Key Address)
    (heap : Heap Class Property Leaf Key Address) (parent child : Address) : Prop :=
  ¬ IsPersisted table (heap parent) ∧ ¬ IsPersisted table (heap child) ∧
    PropertyReference table heap parent child

/-- Signature references between transient entities and value objects are acyclic. -/
def TransientAcyclic (table : ClassTable Class Property Leaf Key Address)
    (heap : Heap Class Property Leaf Key Address) : Prop :=
  ∀ address, ¬ Relation.TransGen (TransientReference table heap) address address

section Cycles

variable {table : ClassTable Class Property Leaf Key Address}
  {heap : Heap Class Property Leaf Key Address}

/-- When every cycle passes through a persisted entity, none is made of transient entities and value
objects. -/
theorem CyclesPersisted.transientAcyclic (hcycles : CyclesPersisted table heap) :
    TransientAcyclic table heap := by
  intro address hcycle
  obtain ⟨child, hfirst, hback⟩ := Relation.TransGen.head'_iff.mp hcycle
  obtain ⟨rest, hchain, hlast⟩ := List.exists_isChain_cons_of_relationReflTransGen hback
  have hcyclic : List.IsChain (TransientReference table heap) (address :: child :: rest) :=
    .cons_cons hfirst hchain
  have hnotPersisted : ∀ object ∈ address :: child :: rest, ¬ IsPersisted table (heap object) :=
    List.IsChain.induction (fun object ↦ ¬ IsPersisted table (heap object)) _ hcyclic
      (fun _ _ hreference _ ↦ hreference.2.1) fun _ ↦ hfirst.1
  -- the cycle ends where it began
  have hsplit : (child :: rest).dropLast ++ [address] = child :: rest := by
    rw [← hlast]
    exact List.dropLast_concat_getLast _
  obtain ⟨object, hmem, hpersisted⟩ := hcycles address (child :: rest).dropLast (by
    rw [hsplit]
    exact hcyclic.imp fun _ _ hreference ↦ hreference.2.2)
  refine hnotPersisted object ?_ hpersisted
  rw [← hsplit]
  rcases List.mem_cons.mp hmem with hhere | hbefore
  · exact List.mem_cons.mpr (Or.inl hhere)
  · exact List.mem_cons_of_mem _ (List.mem_append_left _ hbefore)

theorem not_isPersisted_of_transGen {child parent : Address}
    (hpath : Relation.TransGen (SignatureReference table heap) child parent) :
    ¬ IsPersisted table (heap parent) := by
  cases hpath with
  | single hlast => exact hlast.1
  | tail _ hlast => exact hlast.1

/-- A chain of references that are followed, down to an object that is not persisted, joins objects
that are not persisted. -/
theorem transGen_transientReference {child parent : Address}
    (hchild : ¬ IsPersisted table (heap child))
    (hpath : Relation.TransGen (SignatureReference table heap) child parent) :
    Relation.TransGen (TransientReference table heap) parent child := by
  induction hpath with
  | single hlast => exact .single ⟨hlast.1, hchild, hlast.2⟩
  | tail hbefore hlast ih => exact .head ⟨hlast.1, not_isPersisted_of_transGen hbefore, hlast.2⟩ ih

/-- Among finitely many objects the references that are followed are well-founded when those between
transient entities and value objects are acyclic. -/
theorem wellFounded_of_transientAcyclic [Finite Address] (hacyclic : TransientAcyclic table heap) :
    WellFounded (SignatureReference table heap) :=
  wellFounded_signatureReference fun address hcycle ↦
    hacyclic address (transGen_transientReference (not_isPersisted_of_transGen hcycle) hcycle)

end Cycles

/-! ### `GetHashCode` -/

variable [DecidableEq Address] {table : ClassTable Class Property Leaf Key Address}
  {heap : Heap Class Property Leaf Key Address} {this : Address}

omit [DecidableEq Address] in
theorem signatureHashCode_below {first second : HashCall Address} (hbelow : Below first second)
    (values : Property → PropertyValue Leaf Address) (properties : List Property) (code : Int32)
    (cached : CachedHashcodes Address) {answer : Except Exn Int32 × CachedHashcodes Address}
    (hanswer : signatureHashCode table values first properties code cached = some answer) :
    signatureHashCode table values second properties code cached = some answer := by
  induction properties generalizing code cached with
  | nil => exact hanswer
  | cons property rest ih =>
    simp only [signatureHashCode] at hanswer ⊢
    cases hvalue : values property with
    | null =>
      rw [hvalue] at hanswer
      exact ih _ _ hanswer
    | leaf value =>
      rw [hvalue] at hanswer
      exact ih _ _ hanswer
    | object reference =>
      rw [hvalue] at hanswer
      rcases hfirst : first (reference.target, cached) with _ | ⟨result, after⟩
      · simp [hfirst] at hanswer
      · simp only [hfirst, hbelow _ _ hfirst] at hanswer ⊢
        rcases result with exception | valueHashCode
        · exact hanswer
        · exact ih _ _ hanswer

omit [DecidableEq Address] in
theorem baseObjectGetHashCode_below {first second : HashCall Address} (hbelow : Below first second)
    (cached : CachedHashcodes Address) {answer : Except Exn Int32 × CachedHashcodes Address}
    (hanswer : baseObjectGetHashCode table heap first this cached = some answer) :
    baseObjectGetHashCode table heap second this cached = some answer := by
  unfold baseObjectGetHashCode at hanswer ⊢
  split at hanswer
  · exact hanswer
  · exact hanswer
  · exact signatureHashCode_below hbelow _ _ _ _ hanswer

theorem monotone_getHashCodeBody : Monotone (getHashCodeBody table heap) := by
  rintro first second hbelow ⟨address, cached⟩ answer hanswer
  cases hkind : table.kind (heap address).type with
  | valueObject =>
    rw [getHashCodeBody_of_valueObject hkind] at hanswer ⊢
    exact baseObjectGetHashCode_below hbelow _ hanswer
  | entity idType =>
    cases hcached : cached address with
    | some hashCode =>
      rw [getHashCodeBody_of_cached hkind hcached] at hanswer ⊢
      exact hanswer
    | none =>
      by_cases hpersisted : IsPersisted table (heap address)
      · rw [getHashCodeBody_of_persisted hpersisted hcached] at hanswer ⊢
        exact hanswer
      · have htransient := (not_isPersisted_iff hkind).mp hpersisted
        rw [getHashCodeBody_of_transient hkind hcached htransient] at hanswer ⊢
        rcases hbase : baseObjectGetHashCode table heap first address cached with _ | result
        · simp [hbase, cacheHashcode] at hanswer
        · rw [baseObjectGetHashCode_below hbelow _ hbase, ← hbase]
          exact hanswer

omit [DecidableEq Address] in
/-- The loop over the signature is answered when every call it may make is, whatever codes are
kept. -/
theorem exists_signatureHashCode_answer {call : HashCall Address}
    {values : Property → PropertyValue Leaf Address} (properties : List Property)
    (hobject : ∀ property ∈ properties, ∀ reference, values property = .object reference →
      ∀ cached, ∃ answer, call (reference.target, cached) = some answer)
    (code : Int32) (cached : CachedHashcodes Address) :
    ∃ answer, signatureHashCode table values call properties code cached = some answer := by
  induction properties generalizing code cached with
  | nil => exact ⟨_, rfl⟩
  | cons property rest ih =>
    obtain ⟨hproperty, hrest⟩ := List.forall_mem_cons.mp hobject
    simp only [signatureHashCode]
    cases hvalue : values property with
    | null => exact ih hrest _ _
    | leaf value => exact ih hrest _ _
    | object reference =>
      obtain ⟨⟨exception | valueHashCode, after⟩, hanswer⟩ := hproperty reference hvalue cached
      · exact ⟨(.error exception, after), by simp only [hanswer]⟩
      · simp only [hanswer]
        exact ih hrest _ _

/-- Unfolded far enough, `BaseObject.GetHashCode` answers when the calls on the objects that the
signature refers to do. -/
theorem exists_unfolding_baseObjectGetHashCode (hpersisted : ¬ IsPersisted table (heap this))
    (hchild : ∀ child, SignatureReference table heap child this → ∃ n, ∀ cached, ∃ answer,
      approx (getHashCodeBody table heap) n (child, cached) = some answer) :
    ∃ n, ∀ cached, ∃ answer, baseObjectGetHashCode table heap
      (approx (getHashCodeBody table heap) n) this cached = some answer := by
  rcases hproperties : signatureOf table.classes (heap this).type with exception | _ | ⟨head, rest⟩
  · exact ⟨0, fun cached ↦ ⟨(.error exception, cached), by
      simp only [baseObjectGetHashCode, hproperties]⟩⟩
  · exact ⟨0, fun cached ↦ ⟨(.ok (table.identityHash this), cached), by
      simp only [baseObjectGetHashCode, hproperties]⟩⟩
  have hmono : ∀ n m address, n ≤ m →
      (∀ cached, ∃ answer, approx (getHashCodeBody table heap) n (address, cached) = some answer) →
      ∀ cached, ∃ answer, approx (getHashCodeBody table heap) m (address, cached) = some answer := by
    intro n m address hle hanswered cached
    obtain ⟨answer, hanswer⟩ := hanswered cached
    exact ⟨answer, approx_mono monotone_getHashCodeBody hle _ _ hanswer⟩
  obtain ⟨n, hn⟩ := exists_unfolding_references hmono (head :: rest)
    fun property hmem reference hvalue ↦ hchild reference.target
      ⟨hpersisted, head :: rest, property, reference, hproperties, hmem, hvalue, rfl⟩
  refine ⟨n, fun cached ↦ ?_⟩
  simp only [baseObjectGetHashCode, hproperties]
  exact exists_signatureHashCode_answer (head :: rest) hn _ _

/-- Unfolded far enough, `GetHashCode` answers on an object whatever codes are kept, when the
references it follows are well-founded. -/
theorem exists_unfolding_getHashCode (hwellFounded : WellFounded (SignatureReference table heap))
    (this : Address) :
    ∃ n, ∀ cached, ∃ answer, approx (getHashCodeBody table heap) n (this, cached) = some answer := by
  induction this using hwellFounded.induction with
  | _ this ih =>
    by_cases hpersisted : IsPersisted table (heap this)
    · refine ⟨1, fun cached ↦ ?_⟩
      rw [approx_succ]
      cases hcached : cached this with
      | none => exact ⟨_, getHashCodeBody_of_persisted hpersisted hcached⟩
      | some hashCode =>
        obtain ⟨idType, hkind⟩ := hpersisted.1
        exact ⟨_, getHashCodeBody_of_cached hkind hcached⟩
    obtain ⟨n, hn⟩ := exists_unfolding_baseObjectGetHashCode hpersisted ih
    refine ⟨n + 1, fun cached ↦ ?_⟩
    obtain ⟨⟨result, after⟩, hanswer⟩ := hn cached
    rw [approx_succ]
    cases hkind : table.kind (heap this).type with
    | valueObject => exact ⟨_, (getHashCodeBody_of_valueObject hkind).trans hanswer⟩
    | entity idType =>
      cases hcached : cached this with
      | some hashCode => exact ⟨_, getHashCodeBody_of_cached hkind hcached⟩
      | none =>
        rw [getHashCodeBody_of_transient hkind hcached ((not_isPersisted_iff hkind).mp hpersisted),
          hanswer]
        cases result <;> exact ⟨_, rfl⟩

/-! ### Termination -/

/-- Over finitely many objects, in cycles or not, of which every cycle of signature references passes
through a persisted entity: `Equals` ends on every object, whatever it is compared with, and
`GetHashCode` on every object, whatever hash codes are kept. -/
theorem equals_getHashCode_terminate [DecidableEq Class] [Finite Address]
    (hcycles : CyclesPersisted table heap) :
    (∀ this value, ∃ answer, Returns (objectEqualsBody table heap) (this, value) answer) ∧
      ∀ this cached, ∃ answer, Returns (getHashCodeBody table heap) (this, cached) answer := by
  have hwellFounded := wellFounded_of_transientAcyclic hcycles.transientAcyclic
  refine ⟨exists_returns_objectEquals hwellFounded, fun this cached ↦ ?_⟩
  obtain ⟨n, hn⟩ := exists_unfolding_getHashCode hwellFounded this
  obtain ⟨answer, hanswer⟩ := hn cached
  exact ⟨answer, n, hanswer⟩

/-- A transient order and a persisted customer that refer to each other. -/
theorem equals_getHashCode_terminate_order :
    let table : ClassTable Bool ℕ ℕ ℕ Bool :=
      { classes := fun _ ↦ ⟨"Order", [0], fun _ ↦ true, .entity⟩
        kind := fun _ ↦ .entity false
        defaultId := fun _ ↦ some 0
        leaves := .ofEq fun value ↦ Int32.ofNat value
        keys := .ofEq fun id ↦ Int32.ofNat id
        typeHash := fun _ ↦ 0
        identityHash := fun _ ↦ 0 }
    let heap : Heap Bool ℕ ℕ ℕ Bool := fun isCustomer ↦
      ⟨isCustomer, if isCustomer then some 7 else none, fun _ ↦ .object (.direct !isCustomer)⟩
    CyclesPersisted table heap ∧
      (∀ this value, ∃ answer, Returns (objectEqualsBody table heap) (this, value) answer) ∧
        ∀ this cached, ∃ answer, Returns (getHashCodeBody table heap) (this, cached) answer := by
  intro table heap
  have hcustomer : IsPersisted table (heap true) := ⟨⟨false, rfl⟩, rfl⟩
  have hreference : ∀ parent child, PropertyReference table heap parent child → child = !parent := by
    rintro parent child ⟨properties, property, reference, -, -, hvalue, rfl⟩
    obtain rfl := PropertyValue.object.inj hvalue
    rfl
  have hcycles : CyclesPersisted table heap := by
    intro first rest hchain
    cases first with
    | true => exact ⟨true, List.mem_cons_self, hcustomer⟩
    | false =>
      cases rest with
      | nil =>
        obtain ⟨hself, -⟩ := List.isChain_cons_cons.mp hchain
        exact absurd (hreference _ _ hself) (by simp)
      | cons next rest =>
        obtain ⟨hnext, -⟩ := List.isChain_cons_cons.mp hchain
        obtain rfl := hreference _ _ hnext
        exact ⟨true, by simp, hcustomer⟩
  exact ⟨hcycles, equals_getHashCode_terminate hcycles⟩

end SharpArch.Domain.DomainModel
