import SharpArch.Domain.UncachedHashCodes
import SharpArch.Foundation.Run

/-!
# Entities in hash-based sets

An `EntitySet` keeps each member with the hash code it had when it was inserted, newest first. A
lookup asks the item for its hash code and compares it with the members inserted under that code,
until one is equal. Between the calls on the set its members change: their properties are set, and
transient ones are assigned identifiers.

The hash code of an entity is kept from the first call on, so a member stays under the code it is
looked up by (`kept_run`). A lookup of an inserted entity therefore never reports it missing, and it
finds it as soon as the comparisons it makes on the way return (`inserted_isFound`). They need not:
members of one hash code that were made to refer to each other send `Equals` round in circles
(`lookup_diverges`). Without such circles, and with signatures that can be told, every comparison
returns (`comparable_of_transientAcyclic`).
-/

set_option autoImplicit false
set_option relaxedAutoImplicit false

namespace SharpArch.Domain.DomainModel

open Foundation.Fuel Foundation.Run Platform.SystemTransactions

variable {Class Property Leaf Key Address : Type}

/-! ### The set -/

/-- The objects of a program, and the members of a set of entities, each with the hash code it was
inserted under, newest first. -/
structure EntitySet (Class Property Leaf Key Address : Type) where
  objects : Objects Class Property Leaf Key Address
  entries : List (Int32 × Reference Address) := []

/-- What happens to a set and to its members. The calls on the set and those of `GetHashCode` say how
far the recursions in them are unfolded. -/
inductive SetEvent (Property Leaf Key Address : Type)
  | insert (n : ℕ) (item : Reference Address)
  | lookup (n : ℕ) (item : Reference Address)
  | getHashCode (n : ℕ) (item : Reference Address)
  | setProperty (this : Address) (property : Property) (value : PropertyValue Leaf Address)
  | assignId (this : Address) (id : Option Key)

namespace EntitySet

section Calls

variable [DecidableEq Class] [DecidableEq Address]

/-- The search among the members inserted under a hash code. -/
def find (table : ClassTable Class Property Leaf Key Address)
    (objects : Objects Class Property Leaf Key Address) (n : ℕ) (hashCode : Int32)
    (item : Reference Address) :
    List (Int32 × Reference Address) → Option (Except Exn (Option (Reference Address)))
  | [] => some (.ok none)
  | (code, entry) :: rest =>
    if code = hashCode then
      match objects.equals table n entry (.object item) with
      | some (.ok true) => some (.ok (some entry))
      | some (.ok false) => find table objects n hashCode item rest
      | some (.error exception) => some (.error exception)
      | none => none
    else find table objects n hashCode item rest

/-- A lookup: the member found, if any, and the set after the call. -/
def lookup (table : ClassTable Class Property Leaf Key Address) (n : ℕ) (item : Reference Address)
    (set : EntitySet Class Property Leaf Key Address) :
    Option (Except Exn (Option (Reference Address)) × EntitySet Class Property Leaf Key Address) :=
  match set.objects.getHashCode table n item with
  | none => none
  | some (.error exception, objects) => some (.error exception, { set with objects := objects })
  | some (.ok hashCode, objects) =>
    (find table objects n hashCode item set.entries).map fun found ↦
      (found, { set with objects := objects })

/-- An insertion: whether the item was added, and the set after the call. -/
def insert (table : ClassTable Class Property Leaf Key Address) (n : ℕ) (item : Reference Address)
    (set : EntitySet Class Property Leaf Key Address) :
    Option (Except Exn Bool × EntitySet Class Property Leaf Key Address) :=
  match set.objects.getHashCode table n item with
  | none => none
  | some (.error exception, objects) => some (.error exception, { set with objects := objects })
  | some (.ok hashCode, objects) =>
    (find table objects n hashCode item set.entries).map fun found ↦
      match found with
      | .error exception => (.error exception, { set with objects := objects })
      | .ok (some _) => (.ok false, { set with objects := objects })
      | .ok none => (.ok true, { objects := objects, entries := (hashCode, item) :: set.entries })

/-- The state after an event. A call that does not return leaves no other state. -/
def step [DecidableEq Property] (table : ClassTable Class Property Leaf Key Address)
    (set : EntitySet Class Property Leaf Key Address) :
    SetEvent Property Leaf Key Address → EntitySet Class Property Leaf Key Address
  | .insert n item => (insert table n item set).elim set Prod.snd
  | .lookup n item => (lookup table n item set).elim set Prod.snd
  | .getHashCode n item =>
    (set.objects.getHashCode table n item).elim set fun answered ↦
      { set with objects := answered.2 }
  | .setProperty this property value =>
    let object := set.objects.heap this
    let changed := { object with values := Function.update object.values property value }
    { set with objects.heap := Function.update set.objects.heap this changed }
  | .assignId this id =>
    let changed := { set.objects.heap this with id := id }
    { set with objects.heap := Function.update set.objects.heap this changed }

end Calls

/-- Every comparison that a lookup of the item may have to make returns. -/
def Comparable [DecidableEq Class] [DecidableEq Address]
    (table : ClassTable Class Property Leaf Key Address)
    (set : EntitySet Class Property Leaf Key Address) (item : Reference Address) : Prop :=
  ∀ code other, set.objects.cached item.target = some code → (code, other) ∈ set.entries →
    ∃ same, Returns (objectEqualsBody table set.objects.heap) (other, .object item) (.ok same)

/-- A lookup of the item does not report it missing, and finds a member when the comparisons it may
have to make return. -/
structure IsFound [DecidableEq Class] [DecidableEq Address]
    (table : ClassTable Class Property Leaf Key Address)
    (set : EntitySet Class Property Leaf Key Address) (item : Reference Address) : Prop where
  never_missing : ∀ n later, set.lookup table n item ≠ some (.ok none, later)
  found : Comparable table set item →
    ∃ n member, set.lookup table n item = some (.ok (some member), set)

end EntitySet

/-! ### The hash code of an entity is kept -/

/-- No code that is kept is lost or replaced. -/
def Keeps (cached later : CachedHashcodes Address) : Prop :=
  ∀ address hashCode, cached address = some hashCode → later address = some hashCode

section Kept

variable {table : ClassTable Class Property Leaf Key Address}
  {heap : Heap Class Property Leaf Key Address} {cached later : CachedHashcodes Address}

theorem Keeps.trans {last : CachedHashcodes Address} (hfirst : Keeps cached later)
    (hsecond : Keeps later last) : Keeps cached last :=
  fun address hashCode hcached ↦ hsecond address hashCode (hfirst address hashCode hcached)

theorem keeps_signatureHashCode {call : HashCall Address}
    (hcall : ∀ child between answer after, call (child, between) = some (answer, after) →
      Keeps between after)
    (values : Property → PropertyValue Leaf Address) (properties : List Property) (code : Int32)
    (cached : CachedHashcodes Address) {answer : Except Exn Int32}
    (hanswer : signatureHashCode table values call properties code cached = some (answer, later)) :
    Keeps cached later := by
  induction properties generalizing code cached with
  | nil =>
    obtain ⟨-, rfl⟩ := Prod.mk.inj (Option.some.inj hanswer)
    exact fun _ _ h ↦ h
  | cons property rest ih =>
    simp only [signatureHashCode] at hanswer
    cases hvalue : values property with
    | null =>
      rw [hvalue] at hanswer
      exact ih _ _ hanswer
    | leaf value =>
      rw [hvalue] at hanswer
      exact ih _ _ hanswer
    | object reference =>
      rw [hvalue] at hanswer
      rcases hchild : call (reference.target, cached) with _ | ⟨exception | valueHashCode, after⟩
      · simp [hchild] at hanswer
      · obtain ⟨-, rfl⟩ := Prod.mk.inj (Option.some.inj (by simpa only [hchild] using hanswer))
        exact hcall _ _ _ _ hchild
      · simp only [hchild] at hanswer
        exact (hcall _ _ _ _ hchild).trans (ih _ _ hanswer)

theorem keeps_baseObjectGetHashCode {call : HashCall Address} {this : Address}
    (hcall : ∀ child between answer after, call (child, between) = some (answer, after) →
      Keeps between after) {answer : Except Exn Int32}
    (hanswer : baseObjectGetHashCode table heap call this cached = some (answer, later)) :
    Keeps cached later := by
  unfold baseObjectGetHashCode at hanswer
  split at hanswer
  · obtain ⟨-, rfl⟩ := Prod.mk.inj (Option.some.inj hanswer)
    exact fun _ _ h ↦ h
  · obtain ⟨-, rfl⟩ := Prod.mk.inj (Option.some.inj hanswer)
    exact fun _ _ h ↦ h
  · exact keeps_signatureHashCode hcall _ _ _ _ hanswer

variable [DecidableEq Address]

/-- Filling an empty field replaces no code. -/
theorem Keeps.update {this : Address} (hkeeps : Keeps cached later) (hnone : cached this = none)
    (hashCode : Int32) : Keeps cached (Function.update later this (some hashCode)) := by
  intro address code hcached
  have hne : address ≠ this := by
    rintro rfl
    exact absurd (hnone.symm.trans hcached) (by simp)
  rw [Function.update_of_ne hne]
  exact hkeeps address code hcached

/-- `GetHashCode` keeps every code that is kept; the one it returns for an entity is kept from then
on. -/
theorem keeps_getHashCode (n : ℕ) (this : Address) (cached later : CachedHashcodes Address)
    (answer : Except Exn Int32)
    (hanswer : approx (getHashCodeBody table heap) n (this, cached) = some (answer, later)) :
    Keeps cached later ∧ ∀ hashCode idType, answer = .ok hashCode →
      table.kind (heap this).type = .entity idType → later this = some hashCode := by
  induction n generalizing this cached later answer with
  | zero => exact absurd hanswer (by simp)
  | succ n ih =>
    have hcall : ∀ child between answer after,
        approx (getHashCodeBody table heap) n (child, between) = some (answer, after) →
          Keeps between after := fun child between answer after h ↦ (ih child between after answer h).1
    rw [approx_succ] at hanswer
    cases hkind : table.kind (heap this).type with
    | valueObject =>
      rw [getHashCodeBody_of_valueObject hkind] at hanswer
      exact ⟨keeps_baseObjectGetHashCode hcall hanswer, fun _ _ _ hentity ↦ absurd hentity (by simp)⟩
    | entity idType =>
      cases hcached : cached this with
      | some hashCode =>
        rw [getHashCodeBody_of_cached hkind hcached] at hanswer
        obtain ⟨rfl, rfl⟩ := Prod.mk.inj (Option.some.inj hanswer)
        exact ⟨fun _ _ h ↦ h, fun code _ hcode _ ↦ Except.ok.inj hcode ▸ hcached⟩
      | none =>
        by_cases hpersisted : IsPersisted table (heap this)
        · rw [getHashCodeBody_of_persisted hpersisted hcached] at hanswer
          obtain ⟨rfl, rfl⟩ := Prod.mk.inj (Option.some.inj hanswer)
          refine ⟨Keeps.update (fun _ _ h ↦ h) hcached _, fun code _ hcode _ ↦ ?_⟩
          rw [Function.update_self, Except.ok.inj hcode]
        · have htransient := (not_isPersisted_iff hkind).mp hpersisted
          rw [getHashCodeBody_of_transient hkind hcached htransient] at hanswer
          rcases hbase : baseObjectGetHashCode table heap (approx (getHashCodeBody table heap) n) this
            cached with _ | ⟨exception | hashCode, after⟩
          · simp [hbase, cacheHashcode] at hanswer
          · rw [hbase] at hanswer
            obtain ⟨rfl, rfl⟩ := Prod.mk.inj (Option.some.inj hanswer)
            exact ⟨keeps_baseObjectGetHashCode hcall hbase, fun _ _ hcode ↦ absurd hcode (by simp)⟩
          · rw [hbase] at hanswer
            obtain ⟨rfl, rfl⟩ := Prod.mk.inj (Option.some.inj hanswer)
            refine ⟨(keeps_baseObjectGetHashCode hcall hbase).update hcached _,
              fun code _ hcode _ ↦ ?_⟩
            rw [Function.update_self, Except.ok.inj hcode]

end Kept

/-! ### Comparisons that return -/

section Comparisons

variable {table : ClassTable Class Property Leaf Key Address}
  {heap : Heap Class Property Leaf Key Address} {equals : EqualsCall Leaf Address}
  {exception : Exn}

/-- The loop of a comparison throws what a recursive call throws. -/
theorem exists_throws_of_samePropertyValues {this other : Property → PropertyValue Leaf Address}
    {properties : List Property}
    (hthrows : samePropertyValues table equals this other properties = some (.error exception)) :
    ∃ call, equals call = some (.error exception) := by
  induction properties with
  | nil => simp [samePropertyValues] at hthrows
  | cons property rest ih =>
    rw [samePropertyValues] at hthrows
    rcases hsame : samePropertyValue table equals (this property) (other property) with
      _ | thrown | _ | _
    · simp [hsame] at hthrows
    · obtain rfl : thrown = exception := by simpa [hsame] using hthrows
      rcases hthis : this property with _ | value | reference <;>
        rcases hother : other property with _ | value | reference <;>
        rw [hthis, hother] at hsame <;> simp only [samePropertyValue] at hsame
      all_goals first
        | exact ⟨_, hsame⟩
        | exact absurd hsame (by simp)
    · simp [hsame] at hthrows
    · exact ih (by simpa [hsame] using hthrows)

variable [DecidableEq Class] [DecidableEq Address]

omit [DecidableEq Class] in
/-- The comparison of two signatures throws what the signature of the class throws, or what a
recursive call throws. -/
theorem exists_throws_of_hasSameObjectSignatureAs {this : Address} {other : Reference Address}
    (hthrows : hasSameObjectSignatureAs table heap equals this other = some (.error exception)) :
    signatureOf table.classes (heap this).type = .error exception ∨
      ∃ call, equals call = some (.error exception) := by
  rcases hproperties : signatureOf table.classes (heap this).type with thrown | _ | ⟨head, rest⟩
  · obtain rfl : thrown = exception := by
      simpa [hasSameObjectSignatureAs, hproperties] using hthrows
    exact Or.inl rfl
  · simp [hasSameObjectSignatureAs, hproperties] at hthrows
  · simp only [hasSameObjectSignatureAs, hproperties] at hthrows
    exact Or.inr (exists_throws_of_samePropertyValues hthrows)

/-- `Equals` throws only what the signature of a class throws. -/
theorem exists_signature_throws (n : ℕ) (call : Reference Address × PropertyValue Leaf Address)
    (hthrows : approx (objectEqualsBody table heap) n call = some (.error exception)) :
    ∃ type, signatureOf table.classes type = .error exception := by
  induction n generalizing call with
  | zero => exact absurd hthrows (by simp)
  | succ n ih =>
    have hsignature : ∀ this other, hasSameObjectSignatureAs table heap
        (approx (objectEqualsBody table heap) n) this other = some (.error exception) →
          ∃ type, signatureOf table.classes type = .error exception := by
      intro this other hthrows
      rcases exists_throws_of_hasSameObjectSignatureAs hthrows with hclass | ⟨child, hchild⟩
      · exact ⟨_, hclass⟩
      · exact ih child hchild
    rw [approx_succ, objectEqualsBody] at hthrows
    split at hthrows
    · next idType hkind =>
      cases hother : asEntity table heap idType call.2 with
      | none => simp [hother, entityEquals] at hthrows
      | some other =>
        simp only [hother, entityEquals] at hthrows
        split_ifs at hthrows
        · exact absurd hthrows (by simp)
        · exact absurd hthrows (by simp)
        · exact absurd hthrows (by simp)
        · exact hsignature _ _ hthrows
        · exact absurd hthrows (by simp)
    · rcases call with ⟨this, _ | value | other⟩
      · simp [baseObjectEquals] at hthrows
      · simp [baseObjectEquals] at hthrows
      · simp only [baseObjectEquals] at hthrows
        split_ifs at hthrows
        · exact absurd hthrows (by simp)
        · exact hsignature _ _ hthrows
        · exact absurd hthrows (by simp)

/-- Among finitely many objects with no cycle of signature references between transient entities and
value objects, and classes whose signatures can be told, every comparison of a lookup returns. -/
theorem EntitySet.comparable_of_transientAcyclic [Finite Address]
    (set : EntitySet Class Property Leaf Key Address)
    (hacyclic : TransientAcyclic table set.objects.heap)
    (hsignatures : ∀ type, ∃ properties, signatureOf table.classes type = .ok properties)
    (item : Reference Address) : EntitySet.Comparable table set item := by
  intro code other _ _
  obtain ⟨exception | same, n, hn⟩ :=
    exists_returns_objectEquals (wellFounded_of_transientAcyclic hacyclic) other (.object item)
  · obtain ⟨type, hthrows⟩ := exists_signature_throws n _ hn
    obtain ⟨properties, hproperties⟩ := hsignatures type
    exact absurd (hproperties.symm.trans hthrows) (by simp)
  · exact ⟨same, n, hn⟩

end Comparisons

namespace EntitySet

/-! ### Members stay under the code they are looked up by -/

variable {table : ClassTable Class Property Leaf Key Address}
  {set : EntitySet Class Property Leaf Key Address} {item : Reference Address} {code : Int32}

/-- An entity is a member, under the code it keeps. -/
structure Kept (table : ClassTable Class Property Leaf Key Address)
    (set : EntitySet Class Property Leaf Key Address) (item : Reference Address) (code : Int32) :
    Prop where
  mem : (code, item) ∈ set.entries
  cached : set.objects.cached item.target = some code
  entity : ∃ idType, table.kind (set.objects.heap item.target).type = .entity idType

variable [DecidableEq Address]

/-- Calling `GetHashCode` leaves the objects as they are and keeps the codes that are kept. -/
theorem keeps_of_getHashCode {objects later : Objects Class Property Leaf Key Address} {n : ℕ}
    {answer : Except Exn Int32}
    (hanswer : objects.getHashCode table n item = some (answer, later)) :
    later.heap = objects.heap ∧ Keeps objects.cached later.cached ∧
      ∀ hashCode idType, answer = .ok hashCode →
        table.kind (objects.heap item.target).type = .entity idType →
          later.cached item.target = some hashCode := by
  rw [Objects.getHashCode, Option.map_eq_some_iff] at hanswer
  obtain ⟨⟨result, cached⟩, hcall, hresult⟩ := hanswer
  obtain ⟨rfl, rfl⟩ := Prod.mk.inj hresult
  exact ⟨rfl, keeps_getHashCode n item.target objects.cached cached result hcall⟩

omit [DecidableEq Address] in
/-- A member stays under its code when no member and no code is lost and no class changes. -/
theorem Kept.of_keeps {later : EntitySet Class Property Leaf Key Address}
    (hkept : Kept table set item code) (hentries : ∀ entry ∈ set.entries, entry ∈ later.entries)
    (hkeeps : Keeps set.objects.cached later.objects.cached)
    (htype : (later.objects.heap item.target).type = (set.objects.heap item.target).type) :
    Kept table later item code where
  mem := hentries _ hkept.mem
  cached := hkeeps _ _ hkept.cached
  entity := htype ▸ hkept.entity

theorem type_update (heap : Heap Class Property Leaf Key Address) (this address : Address)
    {object : DomainObject Class Property Leaf Key Address} (htype : object.type = (heap this).type) :
    (Function.update heap this object address).type = (heap address).type := by
  by_cases hself : address = this
  · rw [hself, Function.update_self, htype]
  · rw [Function.update_of_ne hself]

variable [DecidableEq Class]

/-- What a lookup leaves: the members, the objects and the codes that are kept. -/
theorem lookup_keeps {n : ℕ} {other : Reference Address}
    {answer : Except Exn (Option (Reference Address))}
    {later : EntitySet Class Property Leaf Key Address}
    (hanswer : set.lookup table n other = some (answer, later)) :
    later.entries = set.entries ∧ later.objects.heap = set.objects.heap ∧
      Keeps set.objects.cached later.objects.cached := by
  unfold lookup at hanswer
  rcases hcode : set.objects.getHashCode table n other with _ | ⟨exception | hashCode, objects⟩
  · simp [hcode] at hanswer
  · simp only [hcode] at hanswer
    obtain ⟨-, rfl⟩ := Prod.mk.inj (Option.some.inj hanswer)
    exact ⟨rfl, (keeps_of_getHashCode hcode).1, (keeps_of_getHashCode hcode).2.1⟩
  · simp only [hcode, Option.map_eq_some_iff] at hanswer
    obtain ⟨found, -, hfound⟩ := hanswer
    obtain ⟨-, rfl⟩ := Prod.mk.inj hfound
    exact ⟨rfl, (keeps_of_getHashCode hcode).1, (keeps_of_getHashCode hcode).2.1⟩

/-- What an insertion leaves: the members, with the item as the newest when it was added, the
objects, and the codes that are kept. -/
theorem insert_keeps {n : ℕ} {other : Reference Address} {answer : Except Exn Bool}
    {later : EntitySet Class Property Leaf Key Address}
    (hanswer : set.insert table n other = some (answer, later)) :
    (later.entries = set.entries ∧ answer ≠ .ok true ∨ ∃ hashCode,
        later.entries = (hashCode, other) :: set.entries ∧
          ∀ idType, table.kind (set.objects.heap other.target).type = .entity idType →
            later.objects.cached other.target = some hashCode) ∧
      later.objects.heap = set.objects.heap ∧ Keeps set.objects.cached later.objects.cached := by
  unfold insert at hanswer
  rcases hcode : set.objects.getHashCode table n other with _ | ⟨exception | hashCode, objects⟩
  · simp [hcode] at hanswer
  · simp only [hcode] at hanswer
    obtain ⟨rfl, rfl⟩ := Prod.mk.inj (Option.some.inj hanswer)
    exact ⟨Or.inl ⟨rfl, by simp⟩, (keeps_of_getHashCode hcode).1, (keeps_of_getHashCode hcode).2.1⟩
  · obtain ⟨hheap, hkeeps, hcached⟩ := keeps_of_getHashCode hcode
    simp only [hcode, Option.map_eq_some_iff] at hanswer
    obtain ⟨found, -, hfound⟩ := hanswer
    rcases found with exception | _ | member <;> obtain ⟨rfl, rfl⟩ := Prod.mk.inj hfound
    · exact ⟨Or.inl ⟨rfl, by simp⟩, hheap, hkeeps⟩
    · exact ⟨Or.inr ⟨hashCode, rfl, fun idType hkind ↦ hcached hashCode idType rfl hkind⟩, hheap,
        hkeeps⟩
    · exact ⟨Or.inl ⟨rfl, by simp⟩, hheap, hkeeps⟩

/-- An entity that was added is a member under the code it keeps. -/
theorem kept_of_added {n : ℕ} {added : EntitySet Class Property Leaf Key Address}
    (hentity : ∃ idType, table.kind (set.objects.heap item.target).type = .entity idType)
    (hadded : set.insert table n item = some (.ok true, added)) :
    ∃ code, Kept table added item code := by
  obtain ⟨⟨-, hnot⟩ | ⟨hashCode, hentries, hcached⟩, hheap, -⟩ := insert_keeps hadded
  · exact absurd rfl hnot
  · obtain ⟨idType, hkind⟩ := hentity
    refine ⟨hashCode, ?_, hcached idType hkind, idType, hheap ▸ hkind⟩
    rw [hentries]
    exact List.mem_cons_self

variable [DecidableEq Property]

/-- No event moves a member from its code. -/
theorem kept_step (hkept : Kept table set item code) (event : SetEvent Property Leaf Key Address) :
    Kept table (step table set event) item code := by
  cases event with
  | insert n other =>
    simp only [step]
    rcases hanswer : set.insert table n other with _ | ⟨answer, later⟩
    · exact hkept
    · obtain ⟨hentries, hheap, hkeeps⟩ := insert_keeps hanswer
      refine hkept.of_keeps (fun entry hmem ↦ ?_) hkeeps (by rw [Option.elim_some, hheap])
      rcases hentries with ⟨hsame, -⟩ | ⟨hashCode, hcons, -⟩
      · exact hsame ▸ hmem
      · rw [Option.elim_some, hcons]
        exact List.mem_cons_of_mem _ hmem
  | lookup n other =>
    simp only [step]
    rcases hanswer : set.lookup table n other with _ | ⟨answer, later⟩
    · exact hkept
    · obtain ⟨hentries, hheap, hkeeps⟩ := lookup_keeps hanswer
      exact hkept.of_keeps (fun entry hmem ↦ hentries ▸ hmem) hkeeps (by rw [Option.elim_some, hheap])
  | getHashCode n other =>
    simp only [step]
    rcases hanswer : set.objects.getHashCode table n other with _ | ⟨answer, later⟩
    · exact hkept
    · obtain ⟨hheap, hkeeps, -⟩ := keeps_of_getHashCode hanswer
      exact hkept.of_keeps (fun entry hmem ↦ hmem) hkeeps (by rw [Option.elim_some, hheap])
  | setProperty this property value =>
    exact hkept.of_keeps (fun entry hmem ↦ hmem) (fun _ _ h ↦ h) (type_update _ this _ rfl)
  | assignId this id =>
    exact hkept.of_keeps (fun entry hmem ↦ hmem) (fun _ _ h ↦ h) (type_update _ this _ rfl)

theorem kept_run (hkept : Kept table set item code)
    (events : List (SetEvent Property Leaf Key Address)) :
    Kept table (run (step table) set events) item code := by
  have hstep : ∀ set event, Kept table set item code → Kept table (step table set event) item code :=
    fun _ event h ↦ kept_step h event
  exact run_invariant hstep hkept events

/-! ### What a lookup answers -/

section Find

variable {objects : Objects Class Property Leaf Key Address} {n : ℕ}
  {entries : List (Int32 × Reference Address)}

omit [DecidableEq Property]

/-- The member that is found equals the item. -/
theorem equals_of_find {member : Reference Address}
    (hfound : find table objects n code item entries = some (.ok (some member))) :
    objects.equals table n member (.object item) = some (.ok true) := by
  induction entries with
  | nil => simp [find] at hfound
  | cons entry rest ih =>
    simp only [find] at hfound
    split_ifs at hfound
    · rcases hequals : objects.equals table n entry.2 (.object item) with
        _ | exception | _ | _ <;> simp only [hequals] at hfound
      · exact absurd hfound (by simp)
      · exact absurd hfound (by simp)
      · exact ih hfound
      · obtain rfl : entry.2 = member := by simpa using hfound
        exact hequals
    · exact ih hfound

/-- With a member under the code that equals the item, the item is not reported missing. -/
theorem find_ne_missing {entry : Reference Address} (hmem : (code, entry) ∈ entries)
    (hequal : objects.equals table n entry (.object item) = some (.ok true)) :
    find table objects n code item entries ≠ some (.ok none) := by
  induction entries with
  | nil => exact absurd hmem List.not_mem_nil
  | cons head rest ih =>
    rcases List.mem_cons.mp hmem with rfl | hrest
    · simp [find, hequal]
    · simp only [find]
      split_ifs
      · rcases objects.equals table n head.2 (.object item) with _ | exception | _ | _
        · simp
        · simp
        · exact ih hrest
        · simp
      · exact ih hrest

/-- With a member under the code that equals the item, a member is found when every comparison with
those under the code returns. -/
theorem exists_find {entry : Reference Address} (hmem : (code, entry) ∈ entries)
    (hequal : objects.equals table n entry (.object item) = some (.ok true))
    (hreturns : ∀ other, (code, other) ∈ entries →
      ∃ same, objects.equals table n other (.object item) = some (.ok same)) :
    ∃ member, find table objects n code item entries = some (.ok (some member)) := by
  induction entries with
  | nil => exact absurd hmem List.not_mem_nil
  | cons head rest ih =>
    have hrest : ∀ other, (code, other) ∈ rest →
        ∃ same, objects.equals table n other (.object item) = some (.ok same) :=
      fun other hother ↦ hreturns other (List.mem_cons_of_mem _ hother)
    rcases List.mem_cons.mp hmem with rfl | hlater
    · exact ⟨entry, by simp [find, hequal]⟩
    · simp only [find]
      split_ifs with hcode
      · obtain ⟨same, hsame⟩ := hreturns head.2 (hcode ▸ List.mem_cons_self)
        rw [hsame]
        cases same with
        | true => exact ⟨_, rfl⟩
        | false => exact ih hlater hrest
      · exact ih hlater hrest

end Find

section Lookup

omit [DecidableEq Property]

/-- Two genuine references to one entity are equal, however little the recursion is unfolded. -/
theorem equals_of_same_target {objects : Objects Class Property Leaf Key Address}
    {member : Reference Address} (htarget : member.target = item.target)
    (hgenuine : Genuine table objects.heap item) (n : ℕ) :
    objects.equals table (n + 1) member (.object item) = some (.ok true) := by
  have hvalue : GenuineValue table objects.heap (.object item : PropertyValue Leaf Address) := hgenuine
  rw [Objects.equals, objectEquals, approx_succ, objectEqualsBody_object hvalue, addressEquals,
    htarget, decided_self]

omit [DecidableEq Class] in
/-- On a member `GetHashCode` returns the code it is kept under. -/
theorem Kept.getHashCode (hkept : Kept table set item code) (n : ℕ) {other : Reference Address}
    (htarget : other.target = item.target) :
    set.objects.getHashCode table (n + 1) other = some (.ok code, set.objects) := by
  obtain ⟨idType, hkind⟩ := hkept.entity
  rw [Objects.getHashCode, DomainModel.getHashCode, htarget, approx_succ,
    getHashCodeBody_of_cached hkind hkept.cached]
  rfl

/-- A lookup of a member searches under its code. -/
theorem Kept.lookup (hkept : Kept table set item code) (n : ℕ) {other : Reference Address}
    (htarget : other.target = item.target) :
    set.lookup table (n + 1) other =
      (find table set.objects (n + 1) code other set.entries).map fun found ↦ (found, set) := by
  rw [EntitySet.lookup, hkept.getHashCode n htarget]

/-- A member is found, by any genuine reference to it. -/
theorem Kept.isFound (hkept : Kept table set item code) {other : Reference Address}
    (htarget : other.target = item.target) (hgenuine : Genuine table set.objects.heap other) :
    IsFound table set other where
  never_missing := by
    intro n later hmissing
    cases n with
    | zero => simp [EntitySet.lookup, Objects.getHashCode, DomainModel.getHashCode] at hmissing
    | succ n =>
      rw [hkept.lookup n htarget, Option.map_eq_some_iff] at hmissing
      obtain ⟨found, hfind, hfound⟩ := hmissing
      obtain rfl : found = .ok none := congrArg Prod.fst hfound
      exact find_ne_missing hkept.mem (equals_of_same_target htarget.symm hgenuine n) hfind
  found := by
    intro hcomparable
    have hmono : ∀ n m (entry : Int32 × Reference Address), n ≤ m →
        (entry.1 = code → ∃ same, set.objects.equals table n entry.2 (.object other) =
          some (.ok same)) →
        entry.1 = code → ∃ same, set.objects.equals table m entry.2 (.object other) =
          some (.ok same) := by
      intro n m entry hle hreturns hcode
      obtain ⟨same, hsame⟩ := hreturns hcode
      exact ⟨same, approx_mono monotone_objectEqualsBody hle _ _ hsame⟩
    have hreturns : ∀ entry ∈ set.entries, ∃ n, entry.1 = code →
        ∃ same, set.objects.equals table n entry.2 (.object other) = some (.ok same) := by
      intro entry hmem
      by_cases hcode : entry.1 = code
      · obtain ⟨same, n, hn⟩ := hcomparable code entry.2 (htarget ▸ hkept.cached) (hcode ▸ hmem)
        exact ⟨n, fun _ ↦ ⟨same, hn⟩⟩
      · exact ⟨0, fun h ↦ absurd h hcode⟩
    obtain ⟨n, hn⟩ := exists_unfolding_forall_mem hmono set.entries hreturns
    obtain ⟨member, hmember⟩ := exists_find hkept.mem
      (equals_of_same_target htarget.symm hgenuine n) fun entry hmem ↦
        hmono n (n + 1) (code, entry) (Nat.le_succ n) (hn (code, entry) hmem) rfl
    exact ⟨n + 1, member, by rw [hkept.lookup n htarget, hmember, Option.map_some]⟩

/-- What a lookup finds equals the item. -/
theorem equals_of_lookup {n : ℕ} {member : Reference Address}
    {later : EntitySet Class Property Leaf Key Address}
    (hfound : set.lookup table n item = some (.ok (some member), later)) :
    Returns (objectEqualsBody table later.objects.heap) (member, .object item) (.ok true) := by
  unfold EntitySet.lookup at hfound
  rcases hcode : set.objects.getHashCode table n item with _ | ⟨exception | hashCode, objects⟩
  · simp [hcode] at hfound
  · simp [hcode] at hfound
  · simp only [hcode, Option.map_eq_some_iff] at hfound
    obtain ⟨found, hfind, hanswer⟩ := hfound
    obtain ⟨rfl, rfl⟩ := Prod.mk.inj hanswer
    exact ⟨n, equals_of_find hfind⟩

end Lookup

/-- For every set, every run in which an entity is added to it, and every later state: a lookup by
any genuine reference to the entity, itself or a proxy of it, does not report it missing and finds a
member when the comparisons it may have to make return; and what any lookup finds equals what was
looked up. -/
theorem inserted_isFound (start : EntitySet Class Property Leaf Key Address)
    (earlier later : List (SetEvent Property Leaf Key Address)) (n : ℕ) (item : Reference Address)
    {added : EntitySet Class Property Leaf Key Address}
    (hentity : ∃ idType, table.kind
      ((run (step table) start earlier).objects.heap item.target).type = .entity idType)
    (hadded : (run (step table) start earlier).insert table n item = some (.ok true, added)) :
    let set := run (step table) added later
    (∀ other : Reference Address, other.target = item.target →
        Genuine table set.objects.heap other → IsFound table set other) ∧
      ∀ m sought member after, set.lookup table m sought = some (.ok (some member), after) →
        Returns (objectEqualsBody table set.objects.heap) (member, .object sought) (.ok true) := by
  intro set
  obtain ⟨code, hkept⟩ := kept_of_added hentity hadded
  have hlater : Kept table set item code := kept_run hkept later
  refine ⟨fun other htarget hgenuine ↦ hlater.isFound htarget hgenuine, ?_⟩
  intro m sought member after hfound
  rw [← (lookup_keeps hfound).2.1]
  exact equals_of_lookup hfound

/-- People with a first name, a last name and a spouse, all of them signature properties. -/
def personTable : ClassTable Unit ℕ ℕ ℕ Bool where
  classes := fun _ ↦ ⟨"Person", [0, 1, 2], fun _ ↦ true, .entity⟩
  kind := fun _ ↦ .entity ()
  defaultId := fun _ ↦ some 0
  leaves := .ofEq fun value ↦ Int32.ofNat value
  keys := .ofEq fun id ↦ Int32.ofNat id
  typeHash := fun _ ↦ 11
  identityHash := fun _ ↦ 0

/-- Two people who are not yet stored, one without a last name and one without a first name. -/
def people : EntitySet Unit ℕ ℕ ℕ Bool where
  objects :=
    { heap := fun person ↦
        ⟨(), none, fun property ↦ if property = person.toNat then .leaf 5 else .null⟩
      cached := fun _ ↦ none }

/-- A person who is renamed and stored after being added is found, also through a proxy. -/
theorem inserted_isFound_person :
    let item : Reference Bool := .direct false
    let added := step personTable people (.insert 1 item)
    let set := run (step personTable) added [.setProperty false 0 (.leaf 6), .assignId false (some 7)]
    (∃ idType, personTable.kind (people.objects.heap item.target).type = .entity idType) ∧
      people.insert personTable 1 item = some (.ok true, added) ∧
      (∀ other : Reference Bool, other.target = item.target →
        Genuine personTable set.objects.heap other → IsFound personTable set other) ∧
      ∀ m sought member after, set.lookup personTable m sought = some (.ok (some member), after) →
        Returns (objectEqualsBody personTable set.objects.heap) (member, .object sought) (.ok true) := by
  intro item added set
  have hentity : ∃ idType, personTable.kind (people.objects.heap item.target).type = .entity idType :=
    ⟨(), rfl⟩
  have hadded : people.insert personTable 1 item = some (.ok true, added) := rfl
  exact ⟨hentity, hadded, inserted_isFound people [] _ 1 item hentity hadded⟩

/-- Two people of the same names, not yet stored, who are each their own spouse: to compare the second
with the first is to compare their spouses, who are the two again. -/
theorem approx_equals_of_own_spouses {heap : Heap Unit ℕ ℕ ℕ Bool}
    (htransient : ∀ person, isTransient personTable (heap person) = true)
    (hvalues : ∀ person, (heap person).values 0 = .leaf 5 ∧ (heap person).values 1 = .null ∧
      (heap person).values 2 = .object (.direct person)) (n : ℕ) :
    approx (objectEqualsBody personTable heap) n (.direct true, .object (.direct false)) = none := by
  have hsignature : ∀ equals, equals (.direct true, .object (.direct false)) = none →
      hasSameObjectSignatureAs personTable heap equals true (.direct false) = none := by
    intro equals hspouses
    have hproperties : hasSameObjectSignatureAs personTable heap equals true (.direct false) =
        samePropertyValues personTable equals (heap true).values (heap false).values [0, 1, 2] := rfl
    have hnames : personTable.leaves.equals 5 5 = true := rfl
    simp only [hproperties, samePropertyValues, hvalues, samePropertyValue, hnames, hspouses]
  induction n with
  | zero => rfl
  | succ n ih =>
    have hentity : approx (objectEqualsBody personTable heap) (n + 1)
        (.direct true, .object (.direct false)) =
          entityEquals personTable heap (approx (objectEqualsBody personTable heap) n) true
            (some (.direct false)) := rfl
    rw [hentity, ← hsignature _ ih]
    simp [entityEquals, hasSameNonDefaultIdAs, htransient, Reference.target]

/-- Two people of one hash code are added. When they have been given the same names and each has
been made their own spouse, a lookup of the first does not return: it compares the second with the
first, which compares their spouses, who are the two again. -/
theorem lookup_diverges :
    let first : Reference Bool := .direct false
    let second : Reference Bool := .direct true
    let added := step personTable people (.insert 1 first)
    let set := run (step personTable) added
      [.insert 2 second, .setProperty true 0 (.leaf 5), .setProperty true 1 .null,
        .setProperty true 2 (.object second), .setProperty false 2 (.object first)]
    people.insert personTable 1 first = some (.ok true, added) ∧
      ¬ ∃ n member after, set.lookup personTable n first = some (.ok (some member), after) := by
  intro first second added set
  have htransient : ∀ person, isTransient personTable (set.objects.heap person) = true := by decide
  have hvalues : ∀ person, (set.objects.heap person).values 0 = .leaf 5 ∧
      (set.objects.heap person).values 1 = .null ∧
      (set.objects.heap person).values 2 = .object (.direct person) := by decide
  refine ⟨rfl, ?_⟩
  rintro ⟨n, member, after, hfound⟩
  cases n with
  | zero => exact absurd hfound (by simp [EntitySet.lookup, Objects.getHashCode, DomainModel.getHashCode])
  | succ n =>
    have hcached : set.objects.cached false = some (11 * 31 ^^^ 5) := by decide
    have hentries : set.entries = [(11 * 31 ^^^ 5, second), (11 * 31 ^^^ 5, first)] := by
      decide
    have hkept : Kept personTable set first (11 * 31 ^^^ 5) := ⟨by simp [hentries], hcached, (), rfl⟩
    have hfind : find personTable set.objects (n + 1) (11 * 31 ^^^ 5) first set.entries = none := by
      rw [hentries, find, if_pos rfl, Objects.equals, objectEquals,
        approx_equals_of_own_spouses htransient hvalues]
    rw [hkept.lookup n rfl, hfind] at hfound
    exact absurd hfound (by simp)

end EntitySet

end SharpArch.Domain.DomainModel
