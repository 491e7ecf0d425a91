import Mathlib.Data.Fintype.Option
import SharpArch.Domain.GraphTermination

/-!
# Hash codes of equal objects when none is kept

`Objects` are the objects of a program with the hash codes they keep. `Equals` looks at the objects
only, and `GetHashCode` fills fields that nothing else looks at. When no hash code is kept, two
equal objects answer `GetHashCode` alike in either order, although the first of the two calls leaves
codes that the second may read: every code it leaves is the one the object would give anew
(`HashInOrder`).

The answer is a hash code unless the signature of a class within reach cannot be told, which is so
for a value object class with a marked property; then both calls throw what that signature throws
(`equal_objects_hash_alike_uncached`). An object of such a class is equal to itself all the same
(`unhashable_value_object`).
-/

set_option autoImplicit false
set_option relaxedAutoImplicit false

namespace SharpArch.Domain.DomainModel

open Foundation.Fuel Platform.SystemTransactions

variable {Class Property Leaf Key Address : Type}

/-! ### Objects with the codes they keep -/

/-- The objects of a program and the field `_cachedHashcode` of each entity. -/
structure Objects (Class Property Leaf Key Address : Type) where
  heap : Heap Class Property Leaf Key Address
  cached : CachedHashcodes Address

namespace Objects

variable [DecidableEq Address]

/-- `Equals(object)`. -/
def equals [DecidableEq Class] (table : ClassTable Class Property Leaf Key Address)
    (objects : Objects Class Property Leaf Key Address) (n : ℕ) (this : Reference Address)
    (obj : PropertyValue Leaf Address) : EqualsAnswer :=
  objectEquals table objects.heap n this obj

/-- `GetHashCode`, with the objects after the call. -/
def getHashCode (table : ClassTable Class Property Leaf Key Address)
    (objects : Objects Class Property Leaf Key Address) (n : ℕ) (this : Reference Address) :
    Option (Except Exn Int32 × Objects Class Property Leaf Key Address) :=
  (DomainModel.getHashCode table objects.heap n this objects.cached).map fun answered ↦
    (answered.1, { objects with cached := answered.2 })

/-- Every code kept is the one its object gives anew. -/
def CachesAgree (table : ClassTable Class Property Leaf Key Address)
    (objects : Objects Class Property Leaf Key Address) : Prop :=
  ∀ address hashCode, objects.cached address = some hashCode →
    Returns (freshHashCode table objects.heap) address (.ok hashCode)

/-- `GetHashCode` on one object and then on another gives the same answer, leaves codes that agree
with what the objects give anew, and changes nothing that a later `Equals` observes. -/
def HashInOrder [DecidableEq Class] (table : ClassTable Class Property Leaf Key Address)
    (objects : Objects Class Property Leaf Key Address) (first second : Reference Address)
    (answer : Except Exn Int32) : Prop :=
  ∃ n between last, objects.getHashCode table n first = some (answer, between) ∧
    between.getHashCode table n second = some (answer, last) ∧ last.CachesAgree table ∧
      ∀ m this obj, last.equals table m this obj = objects.equals table m this obj

end Objects

/-! ### Where an exception comes from -/

variable {table : ClassTable Class Property Leaf Key Address}
  {heap : Heap Class Property Leaf Key Address} {this : Address} {exception : Exn}

/-- The signature of the class of an object within reach throws. -/
def Unhashable (table : ClassTable Class Property Leaf Key Address)
    (heap : Heap Class Property Leaf Key Address) (this : Address) (exception : Exn) : Prop :=
  ∃ address, Reaches table heap this address ∧
    signatureOf table.classes (heap address).type = .error exception

/-- The loop over the signature throws what the code of one of the objects in it throws. -/
theorem exists_throws_of_freshSignatureHashCode {fresh : FreshCall Address}
    {values : Property → PropertyValue Leaf Address} (properties : List Property) (code : Int32)
    (hthrows : freshSignatureHashCode table values fresh properties code =
      some (.error exception)) :
    ∃ property ∈ properties, ∃ reference, values property = .object reference ∧
      fresh reference.target = some (.error exception) := by
  induction properties generalizing code with
  | nil => simp [freshSignatureHashCode] at hthrows
  | cons property rest ih =>
    have hrest : ∀ code, freshSignatureHashCode table values fresh rest code =
        some (.error exception) → ∃ other ∈ property :: rest, ∃ reference,
          values other = .object reference ∧ fresh reference.target = some (.error exception) := by
      intro code hthrows
      obtain ⟨other, hmem, hother⟩ := ih code hthrows
      exact ⟨other, List.mem_cons_of_mem _ hmem, hother⟩
    simp only [freshSignatureHashCode] at hthrows
    cases hvalue : values property with
    | null =>
      rw [hvalue] at hthrows
      exact hrest _ hthrows
    | leaf value =>
      rw [hvalue] at hthrows
      exact hrest _ hthrows
    | object reference =>
      rw [hvalue] at hthrows
      rcases hfresh : fresh reference.target with _ | thrown | valueHashCode
      · simp [hfresh] at hthrows
      · obtain rfl : thrown = exception := by simpa [hfresh] using hthrows
        exact ⟨property, List.mem_cons_self, reference, hvalue, hfresh⟩
      · exact hrest _ (by simpa [hfresh] using hthrows)

/-- The code of the present state throws only what the signature of an object within reach
throws. -/
theorem unhashable_of_throws (n : ℕ) (this : Address)
    (hthrows : approx (freshHashCode table heap) n this = some (.error exception)) :
    Unhashable table heap this exception := by
  induction n generalizing this with
  | zero => exact absurd hthrows (by simp)
  | succ n ih =>
    rw [approx_succ] at hthrows
    by_cases hpersisted : IsPersisted table (heap this)
    · simp [freshHashCode_of_persisted hpersisted] at hthrows
    rw [freshHashCode_of_not_persisted hpersisted] at hthrows
    rcases hproperties : signatureOf table.classes (heap this).type with thrown | _ | ⟨head, rest⟩
    · obtain rfl : thrown = exception := by simpa [freshBaseHashCode, hproperties] using hthrows
      exact ⟨this, .refl, hproperties⟩
    · simp [freshBaseHashCode, hproperties] at hthrows
    · simp only [freshBaseHashCode, hproperties] at hthrows
      obtain ⟨property, hmem, reference, hvalue, hfresh⟩ :=
        exists_throws_of_freshSignatureHashCode _ _ hthrows
      have hedge : SignatureReference table heap reference.target this :=
        ⟨hpersisted, head :: rest, property, reference, hproperties, hmem, hvalue, rfl⟩
      obtain ⟨address, hreaches, hthrown⟩ := ih reference.target hfresh
      exact ⟨address, .head hedge hreaches, hthrown⟩

/-! ### Equal objects -/

section Equal

variable [DecidableEq Class] [DecidableEq Address]

/-- With no code kept, two objects that give the same code anew give it in order. -/
theorem hashInOrder_of_fresh {first second : Reference Address} {answer : Except Exn Int32}
    (hfirst : Returns (freshHashCode table heap) first.target answer)
    (hsecond : Returns (freshHashCode table heap) second.target answer) :
    Objects.HashInOrder table ⟨heap, fun _ ↦ none⟩ first second answer := by
  obtain ⟨n, hn⟩ := hfirst
  obtain ⟨m, hm⟩ := hsecond
  have hnone : ∀ this, UpToDate table heap (fun _ ↦ none) this :=
    fun _ _ _ _ hcached ↦ absurd hcached (by simp)
  obtain ⟨between, hbetween⟩ := exists_getHashCode (max n m) first.target (fun _ ↦ none) answer
    (hnone _) (approx_mono monotone_freshHashCode (Nat.le_max_left n m) _ _ hn)
  have hkeeps := (getHashCode_fresh _ _ _ _ _ (hnone _) hbetween).2
  have hupToDate : UpToDate table heap between second.target := (hnone _).keepsFresh hkeeps
  obtain ⟨last, hlast⟩ := exists_getHashCode (max n m) second.target between answer hupToDate
    (approx_mono monotone_freshHashCode (Nat.le_max_right n m) _ _ hm)
  have hkeeps' := (getHashCode_fresh _ _ _ _ _ hupToDate hlast).2
  refine ⟨max n m, ⟨heap, between⟩, ⟨heap, last⟩, ?_, ?_, ?_, fun _ _ _ ↦ rfl⟩
  · exact congrArg (Option.map _) hbetween
  · exact congrArg (Option.map _) hlast
  · intro address hashCode hcached
    have hbetweenAgrees : ∀ hashCode, between address = some hashCode →
        Returns (freshHashCode table heap) address (.ok hashCode) := by
      intro hashCode hcached
      rcases hkeeps address with hsame | ⟨-, code, hcode, hfresh⟩
      · exact absurd (hsame.symm.trans hcached) (by simp)
      · obtain rfl : code = hashCode := Option.some.inj (hcode.symm.trans hcached)
        exact hfresh
    rcases hkeeps' address with hsame | ⟨-, code, hcode, hfresh⟩
    · exact hbetweenAgrees hashCode (hsame ▸ hcached)
    · obtain rfl : code = hashCode := Option.some.inj (hcode.symm.trans hcached)
      exact hfresh

/-- Over finitely many objects none of which keeps a hash code, with no cycle of signature references
among transient entities and value objects: two objects that are equal answer `GetHashCode` alike,
in either order. The answer is a code, or what the signature of an object within reach throws. -/
theorem equal_objects_hash_alike_uncached [Finite Address] (hacyclic : TransientAcyclic table heap)
    {one two : Reference Address}
    (hequal : Returns (objectEqualsBody table heap) (one, .object two) (.ok true)) :
    let objects : Objects Class Property Leaf Key Address := ⟨heap, fun _ ↦ none⟩
    ∃ answer, objects.HashInOrder table one two answer ∧ objects.HashInOrder table two one answer ∧
      ((∃ hashCode, answer = .ok hashCode) ∨
        ∃ exception, answer = .error exception ∧ Unhashable table heap one.target exception) := by
  intro objects
  obtain ⟨answer, n, hn⟩ :=
    exists_returns_freshHashCode (wellFounded_of_transientAcyclic hacyclic) one.target
  obtain ⟨k, hk⟩ := hequal
  have hone : Returns (freshHashCode table heap) one.target answer := ⟨n, hn⟩
  have htwo : Returns (freshHashCode table heap) two.target answer :=
    ⟨n, (fresh_of_equals k n one two hk).symm.trans hn⟩
  refine ⟨answer, hashInOrder_of_fresh hone htwo, hashInOrder_of_fresh htwo hone, ?_⟩
  cases answer with
  | ok hashCode => exact Or.inl ⟨hashCode, rfl⟩
  | error exception => exact Or.inr ⟨exception, rfl, unhashable_of_throws n one.target hn⟩

/-- Two transient orders, one of which holds their persisted customer through a proxy. -/
theorem equal_objects_hash_alike_uncached_orders :
    let table : ClassTable Bool ℕ ℕ ℕ (Option Bool) :=
      { classes := fun _ ↦ ⟨"Order", [0], fun _ ↦ true, .entity⟩
        kind := fun _ ↦ .entity false
        defaultId := fun _ ↦ some 0
        leaves := .ofEq fun value ↦ Int32.ofNat value
        keys := .ofEq fun id ↦ Int32.ofNat id
        typeHash := fun isCustomer ↦ if isCustomer then 11 else 13
        identityHash := fun _ ↦ 0 }
    let heap : Heap Bool ℕ ℕ ℕ (Option Bool) := fun
      | none => ⟨true, some 7, fun _ ↦ .leaf 3⟩
      | some false => ⟨false, none, fun _ ↦ .object (.direct none)⟩
      | some true => ⟨false, none, fun _ ↦ .object (.proxy 0 none)⟩
    let objects : Objects Bool ℕ ℕ ℕ (Option Bool) := ⟨heap, fun _ ↦ none⟩
    TransientAcyclic table heap ∧
      Returns (objectEqualsBody table heap)
        (.direct (some false), .object (.direct (some true))) (.ok true) ∧
      ∃ answer, objects.HashInOrder table (.direct (some false)) (.direct (some true)) answer ∧
        objects.HashInOrder table (.direct (some true)) (.direct (some false)) answer ∧
        ((∃ hashCode, answer = .ok hashCode) ∨ ∃ exception, answer = .error exception ∧
          Unhashable table heap (some false) exception) := by
  intro table heap objects
  have hcustomer : IsPersisted table (heap none) := ⟨⟨false, rfl⟩, rfl⟩
  have hreference : ∀ parent child, ¬ TransientReference table heap parent child := by
    rintro parent child ⟨hparent, hchild, properties, property, reference, -, -, hvalue, rfl⟩
    rcases parent with _ | _ | _
    · exact hparent hcustomer
    · obtain rfl := PropertyValue.object.inj hvalue
      exact hchild hcustomer
    · obtain rfl := PropertyValue.object.inj hvalue
      exact hchild hcustomer
  have hacyclic : TransientAcyclic table heap := by
    intro address hcycle
    obtain ⟨child, hfirst, -⟩ := Relation.TransGen.head'_iff.mp hcycle
    exact hreference address child hfirst
  have hequal : Returns (objectEqualsBody table heap)
      (.direct (some false), .object (.direct (some true))) (.ok true) := ⟨2, rfl⟩
  exact ⟨hacyclic, hequal, equal_objects_hash_alike_uncached hacyclic hequal⟩

/-- An object of a value object class with a marked property is equal to itself, and its hash code
cannot be computed. -/
theorem unhashable_value_object :
    let table : ClassTable Unit ℕ ℕ ℕ Unit :=
      { classes := fun _ ↦ ⟨"Money", [0], fun _ ↦ true, .valueObject⟩
        kind := fun _ ↦ .valueObject
        defaultId := fun _ ↦ some 0
        leaves := .ofEq fun value ↦ Int32.ofNat value
        keys := .ofEq fun id ↦ Int32.ofNat id
        typeHash := fun _ ↦ 0
        identityHash := fun _ ↦ 0 }
    let heap : Heap Unit ℕ ℕ ℕ Unit := fun _ ↦ ⟨(), none, fun _ ↦ .leaf 5⟩
    let objects : Objects Unit ℕ ℕ ℕ Unit := ⟨heap, fun _ ↦ none⟩
    let money : Reference Unit := .direct ()
    TransientAcyclic table heap ∧
      Returns (objectEqualsBody table heap) (money, .object money) (.ok true) ∧
      ¬ ∃ hashCode, objects.HashInOrder table money money (.ok hashCode) := by
  intro table heap objects money
  refine ⟨fun address hcycle ↦ ?_, ⟨1, rfl⟩, ?_⟩
  · obtain ⟨child, ⟨-, -, properties, property, reference, -, -, hvalue, -⟩, -⟩ :=
      Relation.TransGen.head'_iff.mp hcycle
    exact absurd hvalue (by simp [heap])
  · rintro ⟨hashCode, n, between, last, hfirst, -⟩
    cases n with
    | zero => simp [Objects.getHashCode, DomainModel.getHashCode] at hfirst
    | succ n =>
      have hthrows : objects.getHashCode table (n + 1) money =
          some (.error (.invalidOperation (markedValueObjectMessage "Money")), objects) := rfl
      rw [hthrows] at hfirst
      exact absurd hfirst (by simp)

end Equal

end SharpArch.Domain.DomainModel
