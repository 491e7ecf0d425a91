import SharpArch.Domain.HashCodes
import SharpArch.Foundation.HashedSet
import SharpArch.Foundation.Run

/-!
# Histories of entities, and the LINQ set operators

A program creates entities and value objects, sets their properties, assigns identifiers, and calls
`Equals` and `GetHashCode` in any order. `Equals` looks at the present state, but a hash code that
was asked for once is the one of the state it was asked for in, so two equal entities may keep
different codes and the set operators may miss that they are equal.

They do not when the codes kept within reach of the two are those of the present state
(`equal_hashCodes_of_upToDate`). That is so in every state of a history in which nothing is changed
that a kept code depends on (`allFresh_run`).
-/

set_option autoImplicit false
set_option relaxedAutoImplicit false

namespace SharpArch.Domain.DomainModel

open Foundation.Fuel Foundation.Run Foundation.HashedSet Platform.SystemTransactions

variable {Class Property Leaf Key : Type}

/-! ### Histories -/

/-- The objects created so far, at the addresses below `count`, and the codes kept. -/
structure ObjectState (Class Property Leaf Key : Type) where
  count : ℕ
  heap : Heap Class Property Leaf Key ℕ
  cached : CachedHashcodes ℕ

/-- What a program does with its domain objects. `assignId` is any of the ways an identifier is set,
and a call of `GetHashCode` says how far its recursion is unfolded. -/
inductive ObjectEvent (Class Property Leaf Key : Type)
  | create (object : DomainObject Class Property Leaf Key ℕ)
  | setProperty (this : ℕ) (property : Property) (value : PropertyValue Leaf ℕ)
  | assignId (this : ℕ) (id : Option Key)
  | equals (this : Reference ℕ) (obj : PropertyValue Leaf ℕ)
  | getHashCode (this : Reference ℕ) (n : ℕ)

namespace ObjectState

/-- The state after an event. A call of `GetHashCode` that does not return leaves no other state. -/
def step [DecidableEq Property] (table : ClassTable Class Property Leaf Key ℕ)
    (state : ObjectState Class Property Leaf Key) :
    ObjectEvent Class Property Leaf Key → ObjectState Class Property Leaf Key
  | .create object =>
    { state with
      count := state.count + 1
      heap := Function.update state.heap state.count object }
  | .setProperty this property value =>
    { state with
      heap := Function.update state.heap this
        { state.heap this with values := Function.update (state.heap this).values property value } }
  | .assignId this id =>
    { state with heap := Function.update state.heap this { state.heap this with id := id } }
  | .equals _ _ => state
  | .getHashCode this n =>
    match DomainModel.getHashCode table state.heap n this state.cached with
    | none => state
    | some (_, cached) => { state with cached := cached }

/-- Before anything is created; `unused` is what lies at the addresses not yet in use. -/
def start (unused : Heap Class Property Leaf Key ℕ) : ObjectState Class Property Leaf Key :=
  { count := 0, heap := unused, cached := fun _ ↦ none }

/-- A property value that refers to no object still to be created. -/
def InUse (count : ℕ) (value : PropertyValue Leaf ℕ) : Prop :=
  ∀ reference, value = .object reference → reference.target < count

/-- The event is about objects that have been created, and changes none on which a code that is kept
depends. -/
def Respectful (table : ClassTable Class Property Leaf Key ℕ)
    (state : ObjectState Class Property Leaf Key) : ObjectEvent Class Property Leaf Key → Prop
  | .create object => ∀ property, InUse state.count (object.values property)
  | .setProperty this _ value => this < state.count ∧ InUse state.count value ∧
      ∀ entity, state.cached entity ≠ none → ¬ Reaches table state.heap entity this
  | .assignId this _ => this < state.count ∧
      ∀ entity, state.cached entity ≠ none → ¬ Reaches table state.heap entity this
  | .equals _ _ => True
  | .getHashCode this _ => this.target < state.count

/-- Every code kept is that of the present state, and belongs to an object that refers only to
objects created. -/
structure AllFresh (table : ClassTable Class Property Leaf Key ℕ)
    (state : ObjectState Class Property Leaf Key) : Prop where
  fresh : ∀ address hashCode, state.cached address = some hashCode →
    Returns (freshHashCode table state.heap) address (.ok hashCode)
  cached_lt : ∀ address, state.cached address ≠ none → address < state.count
  inUse : ∀ address < state.count, ∀ property, InUse state.count ((state.heap address).values property)

variable {table : ClassTable Class Property Leaf Key ℕ} {state : ObjectState Class Property Leaf Key}

theorem AllFresh.upToDate (hfresh : AllFresh table state) (this : ℕ) :
    UpToDate table state.heap state.cached this :=
  fun address hashCode _ hcached ↦ hfresh.fresh address hashCode hcached

theorem allFresh_start (unused : Heap Class Property Leaf Key ℕ) :
    AllFresh table (start unused : ObjectState Class Property Leaf Key) where
  fresh := fun _ _ h ↦ absurd h (by simp [start])
  cached_lt := fun _ h ↦ absurd rfl h
  inUse := fun _ h ↦ absurd h (Nat.not_lt_zero _)

/-- From an object created only objects created are within reach. -/
theorem AllFresh.reaches_lt (hfresh : AllFresh table state) {this address : ℕ}
    (hthis : this < state.count) (hreaches : Reaches table state.heap this address) :
    address < state.count := by
  induction hreaches with
  | refl => exact hthis
  | tail _ hlast ih =>
    obtain ⟨-, _, property, reference, -, -, hvalue, rfl⟩ := hlast
    exact hfresh.inUse _ ih property reference hvalue

/-- Writing an object that no kept code depends on leaves the kept codes those of the present. -/
theorem fresh_update (hfresh : AllFresh table state) {written : ℕ}
    (object : DomainObject Class Property Leaf Key ℕ)
    (hwritten : ∀ entity, state.cached entity ≠ none → ¬ Reaches table state.heap entity written)
    (address : ℕ) (hashCode : Int32) (hcached : state.cached address = some hashCode) :
    Returns (freshHashCode table (Function.update state.heap written object)) address
      (.ok hashCode) := by
  obtain ⟨n, hn⟩ := hfresh.fresh address hashCode hcached
  refine ⟨n, ?_⟩
  rw [fresh_congr, hn]
  intro other hreaches
  refine Function.update_of_ne ?_ _ _
  rintro rfl
  exact hwritten address (by simp [hcached]) hreaches

/-- The references of a state with one object replaced are in use when those of the new object are. -/
theorem inUse_update {written count : ℕ} {object : DomainObject Class Property Leaf Key ℕ}
    (hold : ∀ address < count, address ≠ written → ∀ property,
      InUse count ((state.heap address).values property))
    (hobject : ∀ property, InUse count (object.values property)) :
    ∀ address < count, ∀ property,
      InUse count ((Function.update state.heap written object address).values property) := by
  intro address haddress property
  by_cases hself : address = written
  · rw [hself, Function.update_self]
    exact hobject property
  · rw [Function.update_of_ne hself]
    exact hold address haddress hself property

section Steps

variable [DecidableEq Property]

omit [DecidableEq Property] in
/-- `GetHashCode` on an object in use leaves every code that is kept the one of the present state. -/
theorem allFresh_getHashCode (hfresh : AllFresh table state) {this : Reference ℕ} {n : ℕ}
    (hthis : this.target < state.count) {answer : Except Exn Int32} {cached : CachedHashcodes ℕ}
    (hanswer : DomainModel.getHashCode table state.heap n this state.cached =
      some (answer, cached)) : AllFresh table { state with cached := cached } := by
  have hkeeps := (getHashCode_fresh n this.target state.cached cached answer
    (hfresh.upToDate this.target) hanswer).2
  refine ⟨fun address hashCode hcached ↦ ?_, fun address hcached ↦ ?_, hfresh.inUse⟩
  · rcases hkeeps address with hsame | ⟨-, code, hcode, hreturns⟩
    · exact hfresh.fresh address hashCode (hsame ▸ hcached)
    · obtain rfl : code = hashCode := Option.some.inj (hcode.symm.trans hcached)
      exact hreturns
  · rcases hkeeps address with hsame | ⟨hreaches, -⟩
    · exact hfresh.cached_lt address (hsame ▸ hcached)
    · exact hfresh.reaches_lt hthis hreaches

/-- A respectful event leaves every code that is kept the one of the present state. -/
theorem allFresh_step (hfresh : AllFresh table state) (event : ObjectEvent Class Property Leaf Key)
    (hrespectful : Respectful table state event) : AllFresh table (step table state event) := by
  cases event with
  | create object =>
    have hunreached : ∀ entity, state.cached entity ≠ none →
        ¬ Reaches table state.heap entity state.count := by
      intro entity hcached hreaches
      exact Nat.lt_irrefl _ (hfresh.reaches_lt (hfresh.cached_lt entity hcached) hreaches)
    have hlater : ∀ value : PropertyValue Leaf ℕ, InUse state.count value → InUse (state.count + 1) value :=
      fun value huse reference hvalue ↦ Nat.lt_succ_of_lt (huse reference hvalue)
    refine ⟨fresh_update hfresh object hunreached, fun address hcached ↦
      Nat.lt_succ_of_lt (hfresh.cached_lt address hcached),
      inUse_update (fun address haddress hne property ↦ ?_) fun property ↦
        hlater _ (hrespectful property)⟩
    exact hlater _ (hfresh.inUse address (Nat.lt_of_le_of_ne (Nat.le_of_lt_succ haddress) hne) property)
  | setProperty this property value =>
    obtain ⟨hthis, hvalue, hunreached⟩ := hrespectful
    refine ⟨fresh_update hfresh _ hunreached, hfresh.cached_lt,
      inUse_update (fun address haddress _ ↦ hfresh.inUse address haddress) fun other ↦ ?_⟩
    show InUse state.count (Function.update (state.heap this).values property value other)
    by_cases hself : other = property
    · rw [hself, Function.update_self]
      exact hvalue
    · rw [Function.update_of_ne hself]
      exact hfresh.inUse this hthis other
  | assignId this id =>
    obtain ⟨hthis, hunreached⟩ := hrespectful
    exact ⟨fresh_update hfresh _ hunreached, hfresh.cached_lt,
      inUse_update (fun address haddress _ ↦ hfresh.inUse address haddress)
        (hfresh.inUse this hthis)⟩
  | equals this obj => exact hfresh
  | getHashCode this n =>
    simp only [step]
    rcases hanswer : DomainModel.getHashCode table state.heap n this state.cached with
      _ | ⟨answer, cached⟩
    · exact hfresh
    · exact allFresh_getHashCode hfresh hrespectful hanswer

theorem allFresh_run (unused : Heap Class Property Leaf Key ℕ)
    (events : List (ObjectEvent Class Property Leaf Key))
    (hrespectful : EveryCall (step table) (Respectful table) (start unused) events) :
    AllFresh table (run (step table) (start unused) events) := by
  refine run_invariant_of_everyCall ?_ (allFresh_start unused) events hrespectful
  intro state event hfresh hrespects
  exact allFresh_step hfresh event hrespects

end Steps

end ObjectState

/-! ### Equal objects and their hash codes -/

variable [DecidableEq Class] {table : ClassTable Class Property Leaf Key ℕ}
  {heap : Heap Class Property Leaf Key ℕ} {cached : CachedHashcodes ℕ}

/-- `Equals` of the present state returns true. -/
def EqualsNow (table : ClassTable Class Property Leaf Key ℕ) (heap : Heap Class Property Leaf Key ℕ)
    (one two : Reference ℕ) : Prop :=
  Returns (objectEqualsBody table heap) (one, .object two) (.ok true)

/-- Equal objects within whose reach only codes of the present state are kept answer `GetHashCode`
alike, the second also after the first. -/
theorem equal_hashCodes_of_upToDate {one two : Reference ℕ} (hequal : EqualsNow table heap one two)
    (hone : UpToDate table heap cached one.target) (htwo : UpToDate table heap cached two.target)
    {n : ℕ} {answer : Except Exn Int32} {later : CachedHashcodes ℕ}
    (hanswer : getHashCode table heap n one cached = some (answer, later)) :
    ∃ m last, getHashCode table heap m two later = some (answer, last) := by
  obtain ⟨k, hk⟩ := hequal
  obtain ⟨⟨m, hfresh⟩, hkeeps⟩ := getHashCode_fresh n one.target cached later answer hone hanswer
  rw [fresh_of_equals k m one two hk] at hfresh
  obtain ⟨last, hlast⟩ :=
    exists_getHashCode m two.target later answer (htwo.keepsFresh hkeeps) hfresh
  exact ⟨m, last, hlast⟩

/-- `BaseObjectEqualityComparer`, as the set operators use it; a call that throws or does not return
is no answer. -/
def linqComparer (table : ClassTable Class Property Leaf Key ℕ)
    (heap : Heap Class Property Leaf Key ℕ) (n : ℕ) :
    Comparer (Reference ℕ) Int32 (CachedHashcodes ℕ) where
  equals := fun one two ↦
    match comparerEquals table heap n (some one) (some two) with
    | some (.ok same) => some same
    | _ => none
  getHashCode := fun element cached ↦
    match getHashCode table heap n element cached with
    | some (.ok hashCode, later) => some (hashCode, later)
    | _ => none

open Classical in
/-- The comparison of two elements in the definition of a set operator. -/
noncomputable def sameNow (table : ClassTable Class Property Leaf Key ℕ)
    (heap : Heap Class Property Leaf Key ℕ) (one two : Reference ℕ) : Bool :=
  decide (EqualsNow table heap one two)

/-- Elements for the set operators: genuine references to objects within whose reach only codes of
the present state are kept, and whose hash code one unfolding gives. -/
structure Hashable (table : ClassTable Class Property Leaf Key ℕ)
    (heap : Heap Class Property Leaf Key ℕ) (n : ℕ) (cached : CachedHashcodes ℕ)
    (element : Reference ℕ) : Prop where
  genuine : Genuine table heap element
  upToDate : UpToDate table heap cached element.target
  hashes : ∃ hashCode, approx (freshHashCode table heap) n element.target = some (.ok hashCode)

/-- The hash code an unfolding gives. -/
def codeAt (table : ClassTable Class Property Leaf Key ℕ) (heap : Heap Class Property Leaf Key ℕ)
    (n : ℕ) (element : Reference ℕ) : Int32 :=
  match approx (freshHashCode table heap) n element.target with
  | some (.ok hashCode) => hashCode
  | _ => 0

omit [DecidableEq Class] in
theorem codeAt_eq {n : ℕ} {element : Reference ℕ} {hashCode : Int32}
    (hfresh : approx (freshHashCode table heap) n element.target = some (.ok hashCode)) :
    codeAt table heap n element = hashCode := by
  simp only [codeAt, hfresh]

theorem sameNow_iff {one two : Reference ℕ} :
    sameNow table heap one two = true ↔ EqualsNow table heap one two := by
  simp only [sameNow, decide_eq_true_eq]

/-- An unfolding that hashes an element compares it. -/
theorem objectEquals_of_hashable
    (hgenuine : ∀ address property, GenuineValue table heap ((heap address).values property))
    {n : ℕ} {one two : Reference ℕ} (hone : Hashable table heap n cached one)
    (htwo : Hashable table heap n cached two) :
    objectEquals table heap n one (.object two) = some (.ok (sameNow table heap one two)) := by
  obtain ⟨hashCode, hfresh⟩ := hone.hashes
  obtain ⟨same, hsame⟩ :=
    equals_of_fresh hgenuine n one hashCode hfresh (.object two) htwo.genuine
  have hnow : sameNow table heap one two = same := by
    cases same with
    | true => exact sameNow_iff.mpr ⟨n, hsame⟩
    | false =>
      rw [← Bool.not_eq_true, sameNow_iff]
      intro hequal
      have hboth := hequal.unique monotone_objectEqualsBody ⟨n, hsame⟩
      exact absurd hboth (by simp)
  rw [hnow]
  exact hsame

/-- On such elements the comparer agrees with `Equals`. -/
theorem agrees_linqComparer
    (hgenuine : ∀ address property, GenuineValue table heap ((heap address).values property))
    (n : ℕ) (cached : CachedHashcodes ℕ) :
    Agrees (linqComparer table heap n) (sameNow table heap) (codeAt table heap n)
      (fun memory ↦ ∀ element, Hashable table heap n cached element →
        UpToDate table heap memory element.target)
      (Hashable table heap n cached) where
  equals_eq := by
    intro one two hone htwo
    have hcompare : comparerEquals table heap n (some one) (some two) =
        some (.ok (sameNow table heap one two)) := objectEquals_of_hashable hgenuine hone htwo
    simp only [linqComparer, hcompare]
  hash_eq := by
    intro element memory helement hmemory
    obtain ⟨hashCode, hfresh⟩ := helement.hashes
    have hupToDate := hmemory element helement
    obtain ⟨later, hlater⟩ :=
      exists_getHashCode n element.target memory (.ok hashCode) hupToDate hfresh
    have hkeeps := (getHashCode_fresh n element.target memory later _ hupToDate hlater).2
    have hanswer : getHashCode table heap n element memory = some (.ok hashCode, later) := hlater
    refine ⟨later, ?_, fun other hother ↦ (hmemory other hother).keepsFresh hkeeps⟩
    simp only [linqComparer, hanswer, codeAt_eq hfresh]
  code_of_same := by
    intro one two hone htwo hsame
    obtain ⟨k, hk⟩ := sameNow_iff.mp hsame
    obtain ⟨hashCode, hfresh⟩ := hone.hashes
    have hfresh' := hfresh
    rw [fresh_of_equals k n one two hk] at hfresh'
    rw [codeAt_eq hfresh, codeAt_eq hfresh']
  refl := fun element helement ↦ sameNow_iff.mpr ⟨1, equals_refl helement.genuine 0⟩
  symm := by
    intro one two hone htwo hsame
    exact sameNow_iff.mpr (returns_symm hgenuine hone.genuine htwo.genuine (sameNow_iff.mp hsame))
  trans := by
    intro one two three _ htwo hthree hfirst hsecond
    exact sameNow_iff.mpr (returns_trans hgenuine htwo.genuine hthree.genuine
      (sameNow_iff.mp hfirst) (sameNow_iff.mp hsecond))

/-- What the set operators return on elements that can be hashed is what comparing all pairs
returns. -/
structure OperatorsAgree (table : ClassTable Class Property Leaf Key ℕ)
    (heap : Heap Class Property Leaf Key ℕ) (cached : CachedHashcodes ℕ) (n : ℕ)
    (first second : List (Reference ℕ)) : Prop where
  distinct : distinct (linqComparer table heap n) first cached =
    some (firstOccurrences (sameNow table heap) (fun _ ↦ true) [] first)
  union : union (linqComparer table heap n) first second cached =
    some (firstOccurrences (sameNow table heap) (fun _ ↦ true) [] (first ++ second))
  intersect : intersect (linqComparer table heap n) first second cached =
    some (firstOccurrences (sameNow table heap)
      (fun element ↦ second.any (sameNow table heap · element)) [] first)
  except : except (linqComparer table heap n) first second cached =
    some (firstOccurrences (sameNow table heap)
      (fun element ↦ !second.any (sameNow table heap · element)) [] first)

theorem operatorsAgree_of_hashable
    (hgenuine : ∀ address property, GenuineValue table heap ((heap address).values property))
    {n : ℕ} {first second : List (Reference ℕ)}
    (hfirst : ∀ element ∈ first, Hashable table heap n cached element)
    (hsecond : ∀ element ∈ second, Hashable table heap n cached element) :
    OperatorsAgree table heap cached n first second := by
  have hagrees := agrees_linqComparer hgenuine n cached
  have hmemory : ∀ element, Hashable table heap n cached element →
      UpToDate table heap cached element.target := fun element helement ↦ helement.upToDate
  exact ⟨distinct_eq hagrees hfirst hmemory, union_eq hagrees hfirst hsecond hmemory,
    intersect_eq hagrees hfirst hsecond hmemory, except_eq hagrees hfirst hsecond hmemory⟩

omit [DecidableEq Class] in
/-- One unfolding hashes finitely many elements that can be hashed at all. -/
theorem exists_hashable (elements : List (Reference ℕ))
    (hgenuine : ∀ element ∈ elements, Genuine table heap element)
    (hupToDate : ∀ element ∈ elements, UpToDate table heap cached element.target)
    (hhashes : ∀ element ∈ elements, ∃ n hashCode later,
      getHashCode table heap n element cached = some (.ok hashCode, later)) :
    ∃ n, ∀ m, n ≤ m → ∀ element ∈ elements, Hashable table heap m cached element := by
  have hmono : ∀ n m (element : Reference ℕ), n ≤ m →
      (∃ hashCode, approx (freshHashCode table heap) n element.target = some (.ok hashCode)) →
      ∃ hashCode, approx (freshHashCode table heap) m element.target = some (.ok hashCode) := by
    rintro n m element hle ⟨hashCode, hcode⟩
    exact ⟨hashCode, approx_mono monotone_freshHashCode hle _ _ hcode⟩
  obtain ⟨n, hn⟩ := exists_unfolding_forall_mem hmono elements fun element hmem ↦ by
    obtain ⟨n, hashCode, later, hanswer⟩ := hhashes element hmem
    obtain ⟨m, hm⟩ :=
      (getHashCode_fresh n element.target cached later _ (hupToDate element hmem) hanswer).1
    exact ⟨m, hashCode, hm⟩
  exact ⟨n, fun m hle element hmem ↦ ⟨hgenuine element hmem, hupToDate element hmem,
    hmono n m element hle (hn element hmem)⟩⟩

/-- In the state after any history: equal objects within whose reach only codes of the present state
are kept hash alike, `GetHashCode` returns on them unless the signature references go round in a
circle, and the set operators return on such objects what comparing all pairs returns. In a history
of respectful events this is every object. -/
theorem equal_objects_hash_alike [DecidableEq Property]
    (table : ClassTable Class Property Leaf Key ℕ) (unused : Heap Class Property Leaf Key ℕ)
    (events : List (ObjectEvent Class Property Leaf Key)) :
    let state := run (ObjectState.step table) (ObjectState.start unused) events
    (∀ one two, UpToDate table state.heap state.cached one.target →
        UpToDate table state.heap state.cached two.target → EqualsNow table state.heap one two →
        ∀ n answer later, getHashCode table state.heap n one state.cached = some (answer, later) →
          ∃ m last, getHashCode table state.heap m two later = some (answer, last)) ∧
      (WellFounded (SignatureReference table state.heap) →
        ∀ this, UpToDate table state.heap state.cached this.target →
          ∃ n answer later, getHashCode table state.heap n this state.cached = some (answer, later)) ∧
      ((∀ address property, GenuineValue table state.heap ((state.heap address).values property)) →
        ∀ first second, (∀ element ∈ first ++ second, Genuine table state.heap element) →
          (∀ element ∈ first ++ second, UpToDate table state.heap state.cached element.target) →
          (∀ element ∈ first ++ second, ∃ n hashCode later,
            getHashCode table state.heap n element state.cached = some (.ok hashCode, later)) →
          ∃ n, ∀ m, n ≤ m → OperatorsAgree table state.heap state.cached m first second) ∧
      (EveryCall (ObjectState.step table) (ObjectState.Respectful table) (ObjectState.start unused)
          events → ∀ address, UpToDate table state.heap state.cached address) := by
  intro state
  refine ⟨fun one two hone htwo hequal n answer later hanswer ↦
    equal_hashCodes_of_upToDate hequal hone htwo hanswer, fun hwellFounded this hthis ↦ ?_,
    fun hgenuine first second hreferences hupToDate hhashes ↦ ?_, fun hrespectful address ↦
    (ObjectState.allFresh_run unused events hrespectful).upToDate address⟩
  · obtain ⟨answer, hanswer⟩ := exists_returns_freshHashCode hwellFounded this.target
    obtain ⟨n, later, hlater, -⟩ := (getHashCode_of_upToDate hthis answer).mp hanswer
    exact ⟨n, answer, later, hlater⟩
  · obtain ⟨n, hn⟩ := exists_hashable (first ++ second) hreferences hupToDate hhashes
    refine ⟨n, fun m hle ↦ operatorsAgree_of_hashable hgenuine ?_ ?_⟩
    · exact fun element hmem ↦ hn m hle element (List.mem_append_left _ hmem)
    · exact fun element hmem ↦ hn m hle element (List.mem_append_right _ hmem)

/-- One class of entities with one signature property, for runs on fixed inputs. -/
def customerTable : ClassTable Unit ℕ ℕ ℕ ℕ where
  classes := fun _ ↦ ⟨"Customer", [0], fun _ ↦ true, .entity⟩
  kind := fun _ ↦ .entity ()
  defaultId := fun _ ↦ some 0
  leaves := .ofEq fun value ↦ Int32.ofNat value
  keys := .ofEq fun id ↦ Int32.ofNat id
  typeHash := fun _ ↦ 1
  identityHash := fun address ↦ Int32.ofNat address

/-- A customer with a signature. -/
def customer (id : Option ℕ) : DomainObject Unit ℕ ℕ ℕ ℕ := ⟨(), id, fun _ ↦ .leaf 5⟩

/-- Two persisted customers with one identifier, created and not yet hashed. -/
theorem equal_objects_hash_alike_customers :
    let state := run (ObjectState.step customerTable) (ObjectState.start fun _ ↦ customer (some 7))
      [.create (customer (some 7)), .create (customer (some 7))]
    (∃ m last, getHashCode customerTable state.heap m (.direct 1)
        (Function.update state.cached 0 (some 24)) = some (.ok 24, last)) ∧
      (∃ n answer later, getHashCode customerTable state.heap n (.direct 0) state.cached =
        some (answer, later)) ∧
      ∃ n, ∀ m, n ≤ m →
        OperatorsAgree customerTable state.heap state.cached m [.direct 0] [.direct 1] := by
  intro state
  have hheap : ∀ address, state.heap address = customer (some 7) := by
    intro address
    simp only [state, run, List.foldl, ObjectState.step, ObjectState.start, Function.update_apply]
    split_ifs <;> rfl
  have hpersisted : ∀ address, IsPersisted customerTable (state.heap address) := by
    intro address
    rw [hheap]
    exact ⟨⟨(), rfl⟩, rfl⟩
  have hrespectful : EveryCall (ObjectState.step customerTable) (ObjectState.Respectful customerTable)
      (ObjectState.start fun _ ↦ customer (some 7))
      [.create (customer (some 7)), .create (customer (some 7))] := by
    refine ⟨fun property reference hvalue ↦ ?_, fun property reference hvalue ↦ ?_, trivial⟩ <;>
      exact absurd hvalue (by simp [customer])
  obtain ⟨halike, hreturns, hoperators, hupToDate⟩ := equal_objects_hash_alike customerTable
    (fun _ ↦ customer (some 7)) [.create (customer (some 7)), .create (customer (some 7))]
  have hupToDate := hupToDate hrespectful
  refine ⟨?_, hreturns ?_ (.direct 0) (hupToDate 0), hoperators ?_ [.direct 0] [.direct 1] ?_ ?_ ?_⟩
  · exact halike (.direct 0) (.direct 1) (hupToDate 0) (hupToDate 1) ⟨1, rfl⟩ 1 (.ok 24) _ rfl
  · exact ⟨fun address ↦ ⟨address, fun child hchild ↦ absurd (hpersisted address) hchild.1⟩⟩
  · intro address property
    rw [hheap]
    trivial
  · rintro element -
    cases element with
    | direct target => trivial
    | proxy number target => exact hpersisted target
  · exact fun element _ ↦ hupToDate element.target
  · intro element _
    refine ⟨1, 24, Function.update state.cached element.target (some 24), ?_⟩
    have hcached : state.cached element.target = none := rfl
    rw [getHashCode, approx_succ, getHashCodeBody_of_persisted (hpersisted _) hcached, hheap]
    rfl

/-- A customer is hashed while transient and then given the identifier of another: the two are equal
and their hash codes are not, and `Distinct` returns both. -/
theorem cached_hashCode_differs :
    let state := run (ObjectState.step customerTable) (ObjectState.start fun _ ↦ customer none)
      [.create (customer none), .create (customer (some 7)), .getHashCode (.direct 0) 1,
        .assignId 0 (some 7)]
    EqualsNow customerTable state.heap (.direct 0) (.direct 1) ∧
      (∀ n, (getHashCode customerTable state.heap (n + 1) (.direct 0) state.cached).map (·.1) =
        some (.ok 26)) ∧
      (∀ n, (getHashCode customerTable state.heap (n + 1) (.direct 1) state.cached).map (·.1) =
        some (.ok 24)) ∧
      distinct (linqComparer customerTable state.heap 1) [.direct 0, .direct 1] state.cached =
        some [.direct 0, .direct 1] ∧
      firstOccurrences (sameNow customerTable state.heap) (fun _ ↦ true) [] [.direct 0, .direct 1] =
        [.direct 0] := by
  intro state
  have hequal : EqualsNow customerTable state.heap (.direct 0) (.direct 1) := ⟨1, rfl⟩
  have hsame := sameNow_iff.mpr hequal
  have hpersisted : IsPersisted customerTable (state.heap 1) := ⟨⟨(), rfl⟩, by decide⟩
  have hcached : state.cached 1 = none := by decide
  have hcode : persistedHashCode customerTable (state.heap 1) = 24 := by decide
  refine ⟨hequal, fun n ↦ rfl, fun n ↦ ?_, by decide, ?_⟩
  · rw [getHashCode, approx_succ, Reference.target, getHashCodeBody_of_persisted hpersisted hcached,
      hcode]
    rfl
  · simp [firstOccurrences, hsame]

end SharpArch.Domain.DomainModel
