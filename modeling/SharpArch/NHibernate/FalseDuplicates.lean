import SharpArch.NHibernate.DuplicateCriteria
import Mathlib.Data.Nat.Basic
import Mathlib.Logic.Nontrivial.Basic

/-!
# False duplicates

`SameSignature` compares an entity with a stored row in memory, as `HasSameObjectSignatureAs` does but
for letter case: every signature property is null in both or equal in both, and without signature
properties nothing is the same.

The criteria of a property whose value `IsTold` select only rows that hold the same
(`same_of_accepts`). The criteria of any other value also select a row that does not
(`exists_accepted`): those of a transient reference, of a null value object and of a value object
that holds nothing but nulls. So the checker reports no false duplicate of an entity over any table
exactly when every value of the signature is told, unless it can report nothing
(`noFalseDuplicates_iff`).
-/

set_option autoImplicit false
set_option relaxedAutoImplicit false

namespace SharpArch.NHibernate

open Foundation.SqlLike Platform.SystemTransactions

variable {Property Key Plain : Type}

/-! ### Signatures compared in memory -/

section Same

variable [DecidableEq Key] [DecidableEq Plain] (letterCase : LetterCase)

/-- Equal values, letter case aside. -/
def SimpleType.same : (type : SimpleType) → type.Value Plain → type.Value Plain → Bool
  | .enumeration _, value, stored => value = stored
  | .dateTime, value, stored => value = stored
  | .string, some value, some stored => letterCase.same value stored
  | .string, value, stored => value.isNone && stored.isNone
  | .valueType false, value, stored => value = stored
  | .valueType true, value, stored => value = stored
  | .other, value, stored => value = stored

/-- Null in both or equal in both. References are to entities with the same non-default identifier,
value objects have the same properties; one without properties equals itself only. -/
def PropertyType.Same : (type : PropertyType Property) → type.Value (Referred Key) Plain →
    type.Value Key Plain → Prop
  | .entity, some value, some stored => value.getId = some stored
  | .entity, value, stored => value = none ∧ stored = none
  | .valueObject components, some values, some stored =>
    components.signature ≠ [] ∧ ∀ component ∈ components.signature,
      (components.component component).type.same letterCase (values component)
        (stored component) = true
  | .valueObject _, values, stored => values.isNone = true ∧ stored.isNone = true
  | .simple type, value, stored => type.same letterCase value stored = true

/-- A stored row has the domain signature of an entity. -/
def Entity.SameSignature {entityType : EntityClass Property} (entity : Entity entityType Key Plain)
    (row : Row entityType Key Plain) : Prop :=
  entityType.signature ≠ [] ∧ ∀ property ∈ entityType.signature,
    (entityType.property property).type.Same letterCase (entity.values property)
      (row.values property)

end Same

/-! ### Kinds of values -/

/-- A text holds no wildcard of LIKE. -/
def SimpleType.IsPlain : (type : SimpleType) → type.Value Plain → Prop
  | .string, some text => Foundation.SqlLike.IsPlain text.toList
  | _, _ => True

/-- The texts of a property hold no wildcard. -/
def PropertyType.IsPlain : (type : PropertyType Property) → type.Value (Referred Key) Plain → Prop
  | .valueObject components, some values => ∀ component ∈ components.signature,
    (components.component component).type.IsPlain (values component)
  | .simple type, value => type.IsPlain value
  | _, _ => True

/-- The texts of the signature hold no wildcard. -/
def Entity.IsPlain {entityType : EntityClass Property} (entity : Entity entityType Key Plain) : Prop :=
  ∀ property ∈ entityType.signature,
    (entityType.property property).type.IsPlain (entity.values property)

/-- The default `DateTime`. -/
def SimpleType.IsUnset : (type : SimpleType) → type.Value Plain → Prop
  | .dateTime, ticks => ticks = 0
  | _, _ => False

/-- Null or the default `DateTime`. -/
def SimpleType.IsBlank : (type : SimpleType) → type.Value Plain → Prop
  | .dateTime, ticks => ticks = 0
  | .string, value => value = none
  | .valueType true, value => value = none
  | .other, value => value = none
  | _, _ => False

/-- A value no stored value is accepted for: the default `DateTime`, and a value object that holds it
beside a property that is set. -/
def PropertyType.Unmatchable :
    (type : PropertyType Property) → type.Value (Referred Key) Plain → Prop
  | .simple type, value => type.IsUnset value
  | .valueObject components, some values =>
    (∃ component ∈ components.signature,
      (components.component component).type.IsUnset (values component)) ∧
    ∃ component ∈ components.signature,
      ¬ (components.component component).type.IsBlank (values component)
  | _, _ => False

/-- A value the criteria tell from all others: a reference that is null or not transient, a value
object with a property that is set, a simple value. -/
def PropertyType.IsTold [DecidableEq Key] :
    (type : PropertyType Property) → type.Value (Referred Key) Plain → Prop
  | .entity, some value => value.getId ≠ none
  | .entity, none => True
  | .valueObject components, some values => ∃ component ∈ components.signature,
    ¬ (components.component component).type.IsBlank (values component)
  | .valueObject _, none => False
  | .simple _, _ => True

/-- A value of a simple type. -/
def SimpleType.default [Inhabited Plain] : (type : SimpleType) → type.Value Plain
  | .enumeration _ => 0
  | .dateTime => 0
  | .string => none
  | .valueType false => Inhabited.default
  | .valueType true => none
  | .other => none

/-- A stored value of a property type. -/
def PropertyType.default [Inhabited Plain] : (type : PropertyType Property) → type.Value Key Plain
  | .entity => none
  | .valueObject _ => none
  | .simple type => type.default

/-! ### What one property accepts -/

section Accepted

variable [DecidableEq Key] [DecidableEq Plain] {letterCase : LetterCase}

theorem same_self (type : SimpleType) (value : type.Value Plain) :
    type.same letterCase value value = true := by
  cases type with
  | enumeration underlying => simp [SimpleType.same]
  | dateTime => simp [SimpleType.same]
  | string =>
    rcases value with _ | text
    · rfl
    · exact letterCase.same_self text
  | valueType nullable => cases nullable <;> simp [SimpleType.same]
  | other => simp [SimpleType.same]

/-- A criterion accepts null for blank values. -/
theorem accepts_null_iff (type : SimpleType) (value : type.Value Plain) :
    type.accepts letterCase value (.null : SqlValue Key Plain) = true ↔ type.IsBlank value := by
  have hofOption (value : Option Plain) :
      (SqlValue.null : SqlValue Key Plain) = .ofOption .plain value ↔ value = none := by
    rcases value with _ | value <;> simp [SqlValue.ofOption]
  cases type with
  | enumeration underlying => simp [SimpleType.accepts, SimpleType.IsBlank]
  | dateTime =>
    rcases Nat.eq_zero_or_pos value with hunset | hset
    · simp [SimpleType.accepts, SimpleType.IsBlank, hunset]
    · simp [SimpleType.accepts, SimpleType.IsBlank, hset, Nat.pos_iff_ne_zero.mp hset]
  | string => rcases value with _ | text <;> simp [SimpleType.accepts, SimpleType.IsBlank]
  | valueType nullable =>
    cases nullable with
    | false => simp [SimpleType.accepts, SimpleType.IsBlank]
    | true => simp [SimpleType.accepts, SimpleType.IsBlank, hofOption]
  | other => simp [SimpleType.accepts, SimpleType.IsBlank, hofOption]

/-- A criterion accepts the stored values that are the same, the default `DateTime` none at all. -/
theorem accepts_store_iff (type : SimpleType) {value : type.Value Plain} (hplain : type.IsPlain value)
    (stored : type.Value Plain) :
    type.accepts letterCase value (type.store stored : SqlValue Key Plain) = true ↔
      ¬ type.IsUnset value ∧ type.same letterCase value stored = true := by
  have hofOption (value stored : Option Plain) :
      (SqlValue.ofOption .plain stored : SqlValue Key Plain) = .ofOption .plain value ↔
        value = stored := by
    rcases value with _ | value <;> rcases stored with _ | stored <;>
      simp [SqlValue.ofOption, eq_comm]
  cases type with
  | enumeration underlying =>
    simp [SimpleType.accepts, SimpleType.IsUnset, SimpleType.same, SimpleType.store, eq_comm]
  | dateTime =>
    rcases Nat.eq_zero_or_pos value with hunset | hset
    · simp [SimpleType.accepts, SimpleType.IsUnset, SimpleType.store, hunset]
    · simp [SimpleType.accepts, SimpleType.IsUnset, SimpleType.same, SimpleType.store, hset,
        Nat.pos_iff_ne_zero.mp hset, eq_comm]
  | string =>
    rcases value with _ | text
    · rcases stored with _ | other <;>
        simp [SimpleType.accepts, SimpleType.IsUnset, SimpleType.same, SimpleType.store,
          SqlValue.ofOption]
    · rcases stored with _ | other
      · simp [SimpleType.accepts, SimpleType.IsUnset, SimpleType.same, SimpleType.store,
          SqlValue.ofOption]
      · refine (letterCase.insensitiveLike_iff_of_isPlain hplain other).trans ?_
        simp [SimpleType.IsUnset, SimpleType.same]
  | valueType nullable =>
    cases nullable with
    | false =>
      simp [SimpleType.accepts, SimpleType.IsUnset, SimpleType.same, SimpleType.store, eq_comm]
    | true =>
      simp [SimpleType.accepts, SimpleType.IsUnset, SimpleType.same, SimpleType.store, hofOption]
  | other =>
    simp [SimpleType.accepts, SimpleType.IsUnset, SimpleType.same, SimpleType.store, hofOption]

/-- What is accepted for a value that is told is the same. -/
theorem same_of_accepts (type : PropertyType Property) {value : type.Value (Referred Key) Plain}
    {stored : type.Value Key Plain} (hplain : type.IsPlain value) (htold : type.IsTold value)
    (haccepts : type.Accepts letterCase value (type.store stored)) :
    type.Same letterCase value stored := by
  cases type with
  | entity =>
    rcases value with _ | value <;> rcases stored with _ | stored
    · exact ⟨rfl, rfl⟩
    · exact absurd haccepts (by simp [PropertyType.Accepts, PropertyType.store, SqlValue.ofOption])
    · obtain ⟨id, hid⟩ := Option.ne_none_iff_exists'.mp htold
      exact absurd haccepts
        (by simp [PropertyType.Accepts, PropertyType.store, SqlValue.ofOption, hid])
    · obtain ⟨id, hid⟩ := Option.ne_none_iff_exists'.mp htold
      simp only [PropertyType.Accepts, PropertyType.store, SqlValue.ofOption, hid,
        SqlValue.key.injEq] at haccepts
      exact hid.trans (congrArg some haccepts.symm)
  | valueObject components =>
    rcases value with _ | values
    · exact htold.elim
    · obtain ⟨told, hmem, hset⟩ := htold
      rcases stored with _ | stored
      · exact absurd ((accepts_null_iff _ _).mp (haccepts told hmem)) hset
      · refine ⟨List.ne_nil_of_mem hmem, fun component hcomponent ↦ ?_⟩
        exact ((accepts_store_iff _ (hplain component hcomponent) _).mp
          (haccepts component hcomponent)).2
  | simple type => exact ((accepts_store_iff type hplain stored).mp haccepts).2

/-- Some stored value is accepted for every value that can be matched, and one that is not the same
for a value that is not told. -/
theorem exists_accepted [Inhabited Plain] (letterCase : LetterCase) (type : PropertyType Property)
    {value : type.Value (Referred Key) Plain} (hplain : type.IsPlain value)
    (hmatchable : ¬ type.Unmatchable value) :
    ∃ stored : type.Value Key Plain, type.Accepts letterCase value (type.store stored) ∧
      (¬ type.IsTold value → ¬ type.Same letterCase value stored) := by
  cases type with
  | entity =>
    rcases value with _ | value
    · exact ⟨none, rfl, fun htold ↦ absurd trivial htold⟩
    · refine ⟨value.getId, rfl, fun htold ↦ ?_⟩
      have hnone : value.getId = none := not_not.mp htold
      rw [hnone]
      simp [PropertyType.Same]
  | valueObject components =>
    rcases value with _ | values
    · exact ⟨some fun component ↦ (components.component component).type.default, trivial,
        by simp [PropertyType.Same]⟩
    · by_cases htold : ∃ component ∈ components.signature,
          ¬ (components.component component).type.IsBlank (values component)
      · refine ⟨some values, fun component hmem ↦ ?_, absurd htold⟩
        refine (accepts_store_iff _ (hplain component hmem) _).mpr ⟨fun hunset ↦ ?_, same_self _ _⟩
        exact hmatchable ⟨⟨component, hmem, hunset⟩, htold⟩
      · refine ⟨none, fun component hmem ↦ ?_, by simp [PropertyType.Same]⟩
        refine (accepts_null_iff _ _).mpr (not_not.mp fun hset ↦ htold ⟨component, hmem, hset⟩)
  | simple type =>
    exact ⟨value, (accepts_store_iff type hplain value).mpr ⟨hmatchable, same_self type value⟩,
      fun htold ↦ absurd trivial htold⟩

/-- Nothing stored is accepted for a value that cannot be matched. -/
theorem not_accepts_of_unmatchable (type : PropertyType Property)
    {value : type.Value (Referred Key) Plain} (hplain : type.IsPlain value)
    (hunmatchable : type.Unmatchable value) (stored : type.Value Key Plain) :
    ¬ type.Accepts letterCase value (type.store stored) := by
  intro haccepts
  cases type with
  | entity => exact hunmatchable
  | valueObject components =>
    rcases value with _ | values
    · exact hunmatchable
    · obtain ⟨⟨unset, hunset, hdefault⟩, told, htold, hset⟩ := hunmatchable
      rcases stored with _ | stored
      · exact hset ((accepts_null_iff _ _).mp (haccepts told htold))
      · exact ((accepts_store_iff _ (hplain unset hunset) _).mp (haccepts unset hunset)).1 hdefault
  | simple type => exact ((accepts_store_iff type hplain stored).mp haccepts).1 hunmatchable

end Accepted

/-! ### The checker -/

section Checker

variable [DecidableEq Key] [DecidableEq Plain] (letterCase : LetterCase)
  {entityType : EntityClass Property}

/-- The checker reports a duplicate of an entity only over tables that hold one. -/
def Entity.NoFalseDuplicate (entity : Entity entityType Key Plain) : Prop :=
  ∀ session : Session entityType Key Plain,
    (doesDuplicateExistWithTypedIdOf letterCase (some entity) session).1 = .ok true →
      ∃ row ∈ session.stored, some row.id ≠ entity.identity.getId ∧
        entity.SameSignature letterCase row

/-- The criteria tell the signature of an entity from all others, or report nothing: a criterion
cannot be made or accepts no stored value. -/
def Entity.IsTold (entity : Entity entityType Key Plain) : Prop :=
  ¬ entity.Supported ∨
    (∃ property ∈ entityType.signature,
      (entityType.property property).type.Unmatchable (entity.values property)) ∨
    (entityType.signature ≠ [] ∧ ∀ property ∈ entityType.signature,
      (entityType.property property).type.IsTold (entity.values property))

variable {letterCase} {entity : Entity entityType Key Plain}

/-- The rows an entity selects have its signature, when the signature is told. -/
theorem sameSignature_of_selects (hplain : entity.IsPlain) (htold : entity.IsTold)
    (hsupported : entity.Supported) {row : Row entityType Key Plain}
    (hselects : entity.Selects letterCase row) : entity.SameSignature letterCase row := by
  rcases htold with hunsupported | ⟨property, hmem, hunmatchable⟩ | ⟨hsignature, htold⟩
  · exact absurd hsupported hunsupported
  · exact absurd (hselects.2 property hmem)
      (not_accepts_of_unmatchable _ (hplain property hmem) hunmatchable _)
  · exact ⟨hsignature, fun property hmem ↦
      same_of_accepts _ (hplain property hmem) (htold property hmem) (hselects.2 property hmem)⟩

omit [DecidableEq Plain] in
/-- Some identifier is not that of the entity. -/
theorem exists_other_id [Nontrivial Key] (entity : Entity entityType Key Plain) :
    ∃ id : Key, some id ≠ entity.identity.getId := by
  rcases entity.identity.getId with _ | own
  · exact ⟨(exists_pair_ne Key).choose, by simp⟩
  · obtain ⟨other, hother⟩ := exists_ne own
    exact ⟨other, by simpa using hother⟩

/-- An entity whose signature is not told selects some row that has another signature. -/
theorem exists_false_duplicate [Nontrivial Key] [Inhabited Plain] (letterCase : LetterCase)
    (hplain : entity.IsPlain) (htold : ¬ entity.IsTold) :
    entity.Supported ∧ ∃ row : Row entityType Key Plain,
      entity.Selects letterCase row ∧ ¬ entity.SameSignature letterCase row := by
  simp only [Entity.IsTold, not_or, not_not, not_exists, not_and] at htold
  obtain ⟨hsupported, hmatchable, htold⟩ := htold
  refine ⟨hsupported, ?_⟩
  have haccepted (property : Property) : ∃ stored : (entityType.property property).type.Value Key Plain,
      property ∈ entityType.signature →
        (entityType.property property).type.Accepts letterCase (entity.values property)
            ((entityType.property property).type.store stored) ∧
          (¬ (entityType.property property).type.IsTold (entity.values property) →
            ¬ (entityType.property property).type.Same letterCase (entity.values property) stored) := by
    by_cases hmem : property ∈ entityType.signature
    · obtain ⟨stored, hstored⟩ := exists_accepted letterCase _
        (hplain property hmem) (hmatchable property hmem)
      exact ⟨stored, fun _ ↦ hstored⟩
    · exact ⟨(entityType.property property).type.default, fun h ↦ absurd h hmem⟩
  choose values hvalues using haccepted
  obtain ⟨id, hid⟩ := exists_other_id entity
  refine ⟨⟨id, values⟩, ⟨hid, fun property hmem ↦ (hvalues property hmem).1⟩, ?_⟩
  rintro ⟨hsignature, hsame⟩
  exact htold hsignature fun property hmem ↦
    not_not.mp fun huntold ↦ (hvalues property hmem).2 huntold (hsame property hmem)

/-- An entity without LIKE wildcards in its signature: over every table the checker reports only
duplicates with the same signature exactly when the criteria tell the signature from all others. -/
theorem noFalseDuplicates_iff [Nontrivial Key] [Inhabited Plain] (letterCase : LetterCase)
    (entity : Entity entityType Key Plain) (hplain : entity.IsPlain) :
    entity.NoFalseDuplicate letterCase ↔ entity.IsTold := by
  constructor
  · intro hnone
    by_contra htold
    obtain ⟨hsupported, row, hselects, hother⟩ := exists_false_duplicate letterCase hplain htold
    have hreported := (doesDuplicateExist_eq_true_iff letterCase entity ⟨.auto, [row], []⟩).mpr
      ⟨hsupported, row, List.mem_singleton_self row, hselects⟩
    obtain ⟨found, hfound, -, hsame⟩ := hnone _ hreported
    rw [List.mem_singleton.mp hfound] at hsame
    exact hother hsame
  · intro htold session hreported
    obtain ⟨hsupported, row, hmem, hselects⟩ :=
      (doesDuplicateExist_eq_true_iff letterCase entity session).mp hreported
    exact ⟨row, hmem, hselects.1, sameSignature_of_selects hplain htold hsupported hselects⟩

/-- A customer called `ann`. -/
theorem noFalseDuplicates_ann :
    let customerClass : EntityClass Unit := ⟨"Customer", [()], fun _ ↦ ⟨"Name", .simple .string⟩⟩
    let ann : Entity customerClass ℕ ℕ := ⟨⟨none, none⟩, fun _ ↦ some "ann"⟩
    ann.IsPlain ∧ (ann.NoFalseDuplicate .ascii ↔ ann.IsTold) := by
  intro customerClass ann
  have hplain : ann.IsPlain := by
    have htext : Foundation.SqlLike.IsPlain "ann".toList := by
      intro symbol hmem
      have hletter : symbol = 'a' ∨ symbol = 'n' := by simpa using hmem
      rcases hletter with rfl | rfl <;> decide
    exact fun property _ ↦ htext
  exact ⟨hplain, noFalseDuplicates_iff .ascii ann hplain⟩

/-- Three entities of which the checker reports a duplicate over a table with no such row: an order of
a customer that is not saved yet beside an order without a customer, a customer without an
address beside one with an address, and an entity without a signature beside any other. -/
theorem false_duplicates_reported :
    let orderClass : EntityClass Unit := ⟨"Order", [()], fun _ ↦ ⟨"Customer", .entity⟩⟩
    let order : Entity orderClass ℕ ℕ := ⟨⟨none, none⟩, fun _ ↦ some ⟨⟨none, none⟩, true⟩⟩
    let address : ValueObjectClass Unit := ⟨[()], fun _ ↦ ⟨"Street", .string⟩⟩
    let customerClass : EntityClass Unit :=
      ⟨"Customer", [()], fun _ ↦ ⟨"Address", .valueObject address⟩⟩
    let customer : Entity customerClass ℕ ℕ := ⟨⟨none, none⟩, fun _ ↦ none⟩
    let noteClass : EntityClass Unit := ⟨"Note", [], fun _ ↦ ⟨"Text", .simple .string⟩⟩
    let note : Entity noteClass ℕ ℕ := ⟨⟨none, none⟩, fun _ ↦ none⟩
    ¬ order.NoFalseDuplicate .ascii ∧ ¬ customer.NoFalseDuplicate .ascii ∧
      ¬ note.NoFalseDuplicate .ascii := by
  intro orderClass order address customerClass customer noteClass note
  refine ⟨fun hnone ↦ ?_, fun hnone ↦ ?_, fun hnone ↦ ?_⟩
  · obtain ⟨row, hmem, -, -, hsame⟩ := hnone ⟨.auto, [⟨1, fun _ ↦ none⟩], []⟩ (by decide)
    rw [List.mem_singleton.mp hmem] at hsame
    exact absurd (hsame () List.mem_cons_self) (by simp [PropertyType.Same, orderClass, order])
  · obtain ⟨row, hmem, -, -, hsame⟩ :=
      hnone ⟨.auto, [⟨1, fun _ ↦ some fun _ ↦ some "High Street"⟩], []⟩ (by decide)
    rw [List.mem_singleton.mp hmem] at hsame
    exact absurd (hsame () List.mem_cons_self) (by simp [PropertyType.Same, customerClass, customer])
  · obtain ⟨row, -, -, hsignature, -⟩ := hnone ⟨.auto, [⟨1, fun _ ↦ none⟩], []⟩ (by decide)
    exact hsignature rfl

end Checker

end SharpArch.NHibernate
