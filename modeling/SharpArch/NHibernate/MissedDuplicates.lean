import SharpArch.NHibernate.FalseDuplicates

/-!
# Missed duplicates

A duplicate is missed when a stored row with another identifier has the signature of an entity, as
`HasSameObjectSignatureAs` compares them, and the checker does not report it. The criteria of a
property whose value `IsFindable` select every row that holds the same (`accepts_of_same`). Two kinds
of values are not findable: a default `DateTime`, directly or in a value object, whose criterion asks
for null, and a reference to an object that is no `IEntity`, which the checker fails to cast.

So the checker misses no duplicate of an entity exactly when every value of its signature is findable,
unless no stored row can have the signature at all (`noMissedDuplicates_iff`).
-/

set_option autoImplicit false
set_option relaxedAutoImplicit false

namespace SharpArch.NHibernate

open Foundation.SqlLike Platform.SystemTransactions

variable {Property Key Plain : Type}

/-! ### Kinds of values -/

/-- Criteria can be made for the properties of the type, as far as the type tells. -/
def PropertyType.IsSupported : PropertyType Property → Prop
  | .entity => True
  | .valueObject components =>
    ∀ component ∈ components.signature, (components.component component).type.Supported
  | .simple type => type.Supported

/-- The signature has supported property types only. -/
def EntityClass.IsSupported (entityType : EntityClass Property) : Prop :=
  ∀ property ∈ entityType.signature, (entityType.property property).type.IsSupported

/-- A value whose criteria select all that is the same: no default `DateTime`, also not in a value
object, and no reference to an object that is not an `IEntity`. -/
def PropertyType.IsFindable :
    (type : PropertyType Property) → type.Value (Referred Key) Plain → Prop
  | .entity, some value => value.isIEntity = true
  | .valueObject components, some values => ∀ component ∈ components.signature,
    ¬ (components.component component).type.IsUnset (values component)
  | .simple type, value => ¬ type.IsUnset value
  | _, _ => True

/-- A value that no stored value is the same as: a reference to a transient entity, and a value object
without properties. -/
def PropertyType.IsUnique [DecidableEq Key] :
    (type : PropertyType Property) → type.Value (Referred Key) Plain → Prop
  | .entity, some value => value.getId = none
  | .valueObject components, some _ => components.signature = []
  | _, _ => False

/-! ### What one property accepts -/

section Accepted

variable [DecidableEq Key] [DecidableEq Plain] {letterCase : LetterCase}

/-- Values that are the same are the same up to letter case. -/
theorem same_of_ordinal (type : SimpleType) {value stored : type.Value Plain}
    (hsame : type.same .ordinal value stored = true) : type.same letterCase value stored = true := by
  cases type with
  | string =>
    rcases value with _ | text <;> rcases stored with _ | other
    · exact hsame
    · exact hsame
    · exact hsame
    · exact letterCase.same_of_ordinal hsame
  | enumeration underlying => exact hsame
  | dateTime => exact hsame
  | valueType nullable => cases nullable <;> exact hsame
  | other => exact hsame

omit [DecidableEq Key] [DecidableEq Plain] in
/-- A findable value of a supported type is supported. -/
theorem supported_of_isFindable (type : PropertyType Property)
    {value : type.Value (Referred Key) Plain} (htype : type.IsSupported)
    (hfindable : type.IsFindable value) : type.Supported value := by
  cases type with
  | entity => rcases value with _ | value <;> exact hfindable
  | valueObject components =>
    rcases value with _ | values
    · trivial
    · exact htype
  | simple type => exact htype

/-- The criteria of a findable value accept what is the same. -/
theorem accepts_of_same (type : PropertyType Property) {value : type.Value (Referred Key) Plain}
    {stored : type.Value Key Plain} (hplain : type.IsPlain value) (hfindable : type.IsFindable value)
    (hsame : type.Same .ordinal value stored) :
    type.Accepts letterCase value (type.store stored) := by
  cases type with
  | entity =>
    rcases value with _ | value <;> rcases stored with _ | stored
    · exact rfl
    · exact absurd hsame.2 (by simp)
    · exact absurd hsame.1 (by simp)
    · have hid : value.getId = some stored := hsame
      simp only [PropertyType.Accepts, PropertyType.store, SqlValue.ofOption, hid]
  | valueObject components =>
    rcases value with _ | values
    · trivial
    · rcases stored with _ | stored
      · exact absurd hsame.1 (by simp)
      · intro component hmem
        exact (accepts_store_iff _ (hplain component hmem) _).mpr
          ⟨hfindable component hmem, same_of_ordinal _ (hsame.2 component hmem)⟩
  | simple type =>
    exact (accepts_store_iff type hplain stored).mpr ⟨hfindable, same_of_ordinal type hsame⟩

/-- A value that is not findable is not supported or nothing stored that is the same is accepted. -/
theorem not_accepts_of_not_isFindable (type : PropertyType Property)
    {value : type.Value (Referred Key) Plain} {stored : type.Value Key Plain}
    (hplain : type.IsPlain value) (hfindable : ¬ type.IsFindable value)
    (hsame : type.Same .ordinal value stored) :
    ¬ type.Supported value ∨ ¬ type.Accepts letterCase value (type.store stored) := by
  cases type with
  | entity =>
    rcases value with _ | value
    · exact absurd trivial hfindable
    · exact Or.inl hfindable
  | valueObject components =>
    rcases value with _ | values
    · exact absurd trivial hfindable
    · simp only [PropertyType.IsFindable, not_forall, not_not] at hfindable
      obtain ⟨component, hmem, hunset⟩ := hfindable
      rcases stored with _ | stored
      · exact absurd hsame.1 (by simp)
      · refine Or.inr fun haccepts ↦ ?_
        exact ((accepts_store_iff _ (hplain component hmem) _).mp (haccepts component hmem)).1 hunset
  | simple type =>
    refine Or.inr fun haccepts ↦ ?_
    exact hfindable ((accepts_store_iff type hplain stored).mp haccepts).1

/-- Some stored value is the same as a value unless none can be. -/
theorem exists_same (type : PropertyType Property) {value : type.Value (Referred Key) Plain}
    (hunique : ¬ type.IsUnique value) :
    ∃ stored : type.Value Key Plain, type.Same .ordinal value stored := by
  cases type with
  | entity =>
    rcases value with _ | value
    · exact ⟨none, rfl, rfl⟩
    · obtain ⟨id, hid⟩ := Option.ne_none_iff_exists'.mp hunique
      exact ⟨some id, hid⟩
  | valueObject components =>
    rcases value with _ | values
    · exact ⟨none, rfl, rfl⟩
    · exact ⟨some values, hunique, fun component _ ↦ same_self _ _⟩
  | simple type => exact ⟨value, same_self type value⟩

/-- Nothing stored is the same as a unique value. -/
theorem not_same_of_isUnique (type : PropertyType Property) {value : type.Value (Referred Key) Plain}
    (hunique : type.IsUnique value) (stored : type.Value Key Plain) :
    ¬ type.Same letterCase value stored := by
  intro hsame
  cases type with
  | entity =>
    rcases value with _ | value
    · exact hunique
    · rcases stored with _ | stored
      · exact absurd hsame.1 (by simp)
      · exact absurd (hunique.symm.trans hsame) (by simp)
  | valueObject components =>
    rcases value with _ | values
    · exact hunique
    · rcases stored with _ | stored
      · exact absurd hsame.1 (by simp)
      · exact hsame.1 hunique
  | simple type => exact hunique

end Accepted

/-! ### The checker -/

section Checker

variable [DecidableEq Key] [DecidableEq Plain] (letterCase : LetterCase)
  {entityType : EntityClass Property}

/-- The checker reports a duplicate over every table that holds one. -/
def Entity.NoMissedDuplicate (entity : Entity entityType Key Plain) : Prop :=
  ∀ session : Session entityType Key Plain,
    (∃ row ∈ session.stored, some row.id ≠ entity.identity.getId ∧
        entity.SameSignature .ordinal row) →
      (doesDuplicateExistWithTypedIdOf letterCase (some entity) session).1 = .ok true

/-- Every value of the signature is findable, or one of them is unlike every stored value. -/
def Entity.IsFindable (entity : Entity entityType Key Plain) : Prop :=
  (∀ property ∈ entityType.signature,
      (entityType.property property).type.IsFindable (entity.values property)) ∨
    ∃ property ∈ entityType.signature,
      (entityType.property property).type.IsUnique (entity.values property)

/-- An entity of a class with supported property types and without LIKE wildcards in its signature:
over every table the checker reports a row with another identifier and the same signature exactly
when no value of the signature is a default `DateTime` or a reference to an object that is no
`IEntity`, or no row can have the signature. -/
theorem noMissedDuplicates_iff [Nontrivial Key] [Inhabited Plain] (letterCase : LetterCase)
    (entity : Entity entityType Key Plain) (hsignature : entityType.signature ≠ [])
    (hsupported : entityType.IsSupported) (hplain : entity.IsPlain) :
    entity.NoMissedDuplicate letterCase ↔ entity.IsFindable := by
  constructor
  · intro hnone
    by_contra hnot
    simp only [Entity.IsFindable, not_or, not_forall, not_exists, not_and] at hnot
    obtain ⟨⟨unfindable, hmem, hunfindable⟩, hunique⟩ := hnot
    -- a row with the signature of the entity
    have hsame (property : Property) : ∃ stored : (entityType.property property).type.Value Key Plain,
        property ∈ entityType.signature →
          (entityType.property property).type.Same .ordinal (entity.values property) stored := by
      by_cases hproperty : property ∈ entityType.signature
      · obtain ⟨stored, hstored⟩ := exists_same _ (hunique property hproperty)
        exact ⟨stored, fun _ ↦ hstored⟩
      · exact ⟨(entityType.property property).type.default, fun h ↦ absurd h hproperty⟩
    choose values hvalues using hsame
    obtain ⟨id, hid⟩ := exists_other_id entity
    have hreported := hnone ⟨.auto, [⟨id, values⟩], []⟩
      ⟨_, List.mem_singleton_self _, hid, hsignature, hvalues⟩
    obtain ⟨hvalid, row, hrow, hselects⟩ :=
      (doesDuplicateExist_eq_true_iff letterCase entity _).mp hreported
    obtain rfl := List.mem_singleton.mp hrow
    rcases not_accepts_of_not_isFindable _ (hplain unfindable hmem) hunfindable
      (hvalues unfindable hmem) with hinvalid | hrejects
    · exact hinvalid (hvalid unfindable hmem)
    · exact hrejects (hselects.2 unfindable hmem)
  · rintro (hfindable | ⟨property, hmem, hunique⟩) session ⟨row, hrow, hid, -, hsame⟩
    · refine (doesDuplicateExist_eq_true_iff letterCase entity session).mpr ⟨?_, row, hrow, hid, ?_⟩
      · exact fun property hmem ↦
          supported_of_isFindable _ (hsupported property hmem) (hfindable property hmem)
      · exact fun property hmem ↦
          accepts_of_same _ (hplain property hmem) (hfindable property hmem) (hsame property hmem)
    · exact absurd (hsame property hmem) (not_same_of_isUnique _ hunique _)

/-- A booking on a day, whose number of ticks is not 0. -/
theorem noMissedDuplicates_booking :
    let bookingClass : EntityClass Unit := ⟨"Booking", [()], fun _ ↦ ⟨"Date", .simple .dateTime⟩⟩
    let booking : Entity bookingClass ℕ ℕ := ⟨⟨none, none⟩, fun _ ↦ (5 : ℕ)⟩
    bookingClass.signature ≠ [] ∧ bookingClass.IsSupported ∧ booking.IsPlain ∧
      (booking.NoMissedDuplicate .ascii ↔ booking.IsFindable) := by
  intro bookingClass booking
  have hsignature : bookingClass.signature ≠ [] := by decide
  have hsupported : bookingClass.IsSupported := fun _ _ ↦ trivial
  have hplain : booking.IsPlain := fun _ _ ↦ trivial
  exact ⟨hsignature, hsupported, hplain,
    noMissedDuplicates_iff .ascii booking hsignature hsupported hplain⟩

/-- Two entities of which a stored duplicate is missed: a booking whose date is the default
`DateTime`, and an order of a stored customer whose class implements `IEntity<>` only. -/
theorem duplicates_missed :
    let bookingClass : EntityClass Unit := ⟨"Booking", [()], fun _ ↦ ⟨"Date", .simple .dateTime⟩⟩
    let booking : Entity bookingClass ℕ ℕ := ⟨⟨none, none⟩, fun _ ↦ (0 : ℕ)⟩
    let orderClass : EntityClass Unit := ⟨"Order", [()], fun _ ↦ ⟨"Customer", .entity⟩⟩
    let order : Entity orderClass ℕ ℕ := ⟨⟨none, none⟩, fun _ ↦ some ⟨⟨some 7, none⟩, false⟩⟩
    ¬ booking.NoMissedDuplicate .ascii ∧ ¬ order.NoMissedDuplicate .ascii := by
  intro bookingClass booking orderClass order
  refine ⟨fun hnone ↦ ?_, fun hnone ↦ ?_⟩
  · have hreported := hnone ⟨.auto, [⟨1, fun _ ↦ (0 : ℕ)⟩], []⟩
      ⟨_, List.mem_singleton_self _, by decide, by decide, fun _ _ ↦ rfl⟩
    exact absurd hreported (by decide)
  · have hreported := hnone ⟨.auto, [⟨1, fun _ ↦ some 7⟩], []⟩
      ⟨_, List.mem_singleton_self _, by decide, by decide, fun _ _ ↦ rfl⟩
    exact absurd hreported (by decide)

end Checker

end SharpArch.NHibernate
