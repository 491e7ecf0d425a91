import SharpArch.NHibernate.EntityDuplicateChecker

/-!
# What the criteria of the duplicate checker select

The criteria are read back from the query language to the columns. `Supported` says which values a
criterion can be made for, `accepts` which column contents it selects: a default `DateTime` accepts
only null, a string its matches, a null value object anything.

`doesDuplicateExist_eq_true_iff` is the checker without the query: it answers true exactly when every
signature property has a supported value and a stored row with another identifier holds accepted
columns.
-/

set_option autoImplicit false
set_option relaxedAutoImplicit false

namespace SharpArch.NHibernate

open Foundation.SqlLike Platform.SystemTransactions

variable {Property Key Plain : Type}

/-! ### Criteria added in a loop -/

section Loop

theorem map_eq_ok_iff {α β : Type} {result : Except Exn α} {f : α → β} {value : β} :
    result.map f = .ok value ↔ ∃ found, result = .ok found ∧ f found = value := by
  rcases result with exception | found <;> simp [Except.map]

theorem exists_map_ok_iff {α β : Type} {result : Except Exn α} {f : α → β} :
    (∃ value, result.map f = .ok value) ↔ ∃ found, result = .ok found := by
  rcases result with exception | found <;> simp [Except.map]

variable {Item : Type} {restrictions : Item → Except Exn (List (Restriction Property Key Plain))}
  {items : List Item}

/-- The loop ends normally exactly when every item does. -/
theorem exists_addAll_iff :
    (∃ added, addAll restrictions items = .ok added) ↔
      ∀ item ∈ items, ∃ added, restrictions item = .ok added := by
  induction items with
  | nil => simp [addAll]
  | cons item rest ih =>
    rw [List.forall_mem_cons, ← ih, addAll]
    rcases restrictions item with exception | added
    · simp
    · simp [exists_map_ok_iff]

/-- What the loop adds is what the items add. -/
theorem forall_mem_addAll_iff {added : List (Restriction Property Key Plain)}
    (hadded : addAll restrictions items = .ok added) (holds : Restriction Property Key Plain → Prop) :
    (∀ restriction ∈ added, holds restriction) ↔
      ∀ item ∈ items, ∀ some, restrictions item = .ok some →
        ∀ restriction ∈ some, holds restriction := by
  induction items generalizing added with
  | nil =>
    cases hadded
    simp
  | cons item rest ih =>
    rcases hitem : restrictions item with exception | first
    · simp [addAll, hitem] at hadded
    · simp only [addAll, hitem, map_eq_ok_iff] at hadded
      obtain ⟨more, hrest, rfl⟩ := hadded
      rw [List.forall_mem_append, List.forall_mem_cons, ih hrest, hitem]
      simp

end Loop

/-! ### Supported values -/

/-- A criterion can be made for a property of the type. -/
def SimpleType.Supported : SimpleType → Prop
  | .enumeration underlying => underlying = .int32
  | .other => False
  | _ => True

/-- Criteria can be made for a value: the references that are cast are entities, and the properties of
a value object that is there are supported. -/
def PropertyType.Supported :
    (type : PropertyType Property) → type.Value (Referred Key) Plain → Prop
  | .entity, some propertyValue => propertyValue.isIEntity = true
  | .valueObject components, some _ =>
    ∀ component ∈ components.signature, (components.component component).type.Supported
  | .simple type, _ => type.Supported
  | .entity, none => True
  | .valueObject _, none => True

/-! ### Accepted columns -/

section Accepts

variable [DecidableEq Key] [DecidableEq Plain] (letterCase : LetterCase)

/-- What a column must hold to be selected by the criterion of a simple value. -/
def SimpleType.accepts :
    (type : SimpleType) → type.Value Plain → SqlValue Key Plain → Bool
  | .enumeration _, value, column => column = .integer value
  | .dateTime, ticks, column => column = if 0 < ticks then .dateTime ticks else .null
  | .string, some value, .text text => letterCase.insensitiveLike text value
  | .string, some _, _ => false
  | .string, none, column => column = .null
  | .valueType false, value, column => column = .plain value
  | .valueType true, value, column => column = .ofOption .plain value
  | .other, value, column => column = .ofOption .plain value

/-- What the columns of a property must hold. -/
def PropertyType.Accepts : (type : PropertyType Property) → type.Value (Referred Key) Plain →
    (Column Property → SqlValue Key Plain) → Prop
  | .entity, some propertyValue, column => column .id = .ofOption .key propertyValue.getId
  | .entity, none, column => column .id = .null
  | .valueObject components, some values, column => ∀ component ∈ components.signature,
    (components.component component).type.accepts letterCase (values component)
      (column (.component component)) = true
  | .valueObject _, none, _ => True
  | .simple type, value, column => type.accepts letterCase value (column .whole) = true

variable {letterCase} {entityType : EntityClass Property} {row : Row entityType Key Plain}

omit [DecidableEq Key] [DecidableEq Plain] in
theorem exists_appendSimplePropertyCriteriaTo_iff {name propertyName : String}
    {path : Path Property} (type : SimpleType) (value : type.Value Plain) :
    (∃ added : Restriction Property Key Plain,
      appendSimplePropertyCriteriaTo name propertyName path type value = .ok added) ↔
        type.Supported := by
  rcases type with (_ | _) | _ | _ | (_ | _) | _ <;>
    simp [appendSimplePropertyCriteriaTo, SimpleType.Supported]

/-- The criterion of a simple value selects the rows whose column it accepts. -/
theorem selects_appendSimplePropertyCriteriaTo {name propertyName : String} {path : Path Property}
    (type : SimpleType) (value : type.Value Plain) {added : Restriction Property Key Plain}
    (hadded : appendSimplePropertyCriteriaTo name propertyName path type value = .ok added) :
    added.selects letterCase row = type.accepts letterCase value (row.column path) := by
  cases type with
  | enumeration underlying =>
    cases underlying <;> cases hadded
    rfl
  | dateTime =>
    cases hadded
    simp only [appendDateTimePropertyCriteriaTo, SimpleType.accepts]
    split_ifs <;> rfl
  | string =>
    cases hadded
    cases value with
    | none => rfl
    | some text =>
      simp only [appendStringPropertyCriteriaTo, Restriction.selects]
      rcases row.column path with _ | _ | _ | _ | _ | _ <;> rfl
  | valueType nullable =>
    rcases nullable with _ | _ <;> cases hadded
    · rfl
    · rcases value with _ | value <;> rfl
  | other => exact absurd hadded (by simp [appendSimplePropertyCriteriaTo])

omit [DecidableEq Plain] in
/-- Criteria are made for exactly the supported values. -/
theorem exists_propertyCriteria_iff {name propertyName : String} {property : Property}
    (type : PropertyType Property) (value : type.Value (Referred Key) Plain) :
    (∃ added, propertyCriteria name propertyName property type value = .ok added) ↔
      type.Supported value := by
  cases type with
  | entity =>
    rw [propertyCriteria, exists_map_ok_iff]
    rcases value with _ | value
    · simp [appendEntityIdCriteriaTo, PropertyType.Supported]
    · by_cases hcast : value.isIEntity = true <;>
        simp [appendEntityIdCriteriaTo, PropertyType.Supported, hcast]
  | valueObject components =>
    rcases value with _ | values
    · simp [propertyCriteria, appendValueObjectSignaturePropertyCriteriaTo, PropertyType.Supported]
    · simp only [propertyCriteria, appendValueObjectSignaturePropertyCriteriaTo,
        PropertyType.Supported, exists_addAll_iff, exists_map_ok_iff,
        exists_appendSimplePropertyCriteriaTo_iff]
  | simple type =>
    simp only [propertyCriteria, PropertyType.Supported, exists_map_ok_iff,
      exists_appendSimplePropertyCriteriaTo_iff]

/-- The criteria of a property select the rows whose columns it accepts. -/
theorem selects_propertyCriteria_iff {name propertyName : String} {property : Property}
    (type : PropertyType Property) (value : type.Value (Referred Key) Plain)
    {added : List (Restriction Property Key Plain)}
    (hadded : propertyCriteria name propertyName property type value = .ok added) :
    (∀ restriction ∈ added, restriction.selects letterCase row = true) ↔
      type.Accepts letterCase value fun column ↦ row.column (.property property column) := by
  cases type with
  | entity =>
    obtain ⟨restriction, hrestriction, rfl⟩ := map_eq_ok_iff.mp hadded
    rcases value with _ | value
    · cases hrestriction
      simp [Restriction.selects, PropertyType.Accepts]
    · simp only [appendEntityIdCriteriaTo] at hrestriction
      split_ifs at hrestriction
      cases hrestriction
      simp [Restriction.selects, PropertyType.Accepts]
  | valueObject components =>
    rcases value with _ | values
    · cases hadded
      simp [PropertyType.Accepts]
    · have hcomponent (component : Property) (hmem : component ∈ components.signature) :
          ∃ restriction : Restriction Property Key Plain,
            appendSimplePropertyCriteriaTo name
              (getPropertyName propertyName (components.component component).name)
              (.property property (.component component)) (components.component component).type
              (values component) = .ok restriction :=
        exists_map_ok_iff.mp (exists_addAll_iff.mp ⟨added, hadded⟩ component hmem)
      rw [forall_mem_addAll_iff hadded, PropertyType.Accepts]
      refine forall₂_congr fun component hmem ↦ ?_
      obtain ⟨restriction, hrestriction⟩ := hcomponent component hmem
      simp [hrestriction, Except.map, selects_appendSimplePropertyCriteriaTo _ _ hrestriction]
  | simple type =>
    obtain ⟨restriction, hrestriction, rfl⟩ := map_eq_ok_iff.mp hadded
    simp [PropertyType.Accepts, selects_appendSimplePropertyCriteriaTo type value hrestriction]

end Accepts

/-! ### The checker without the query -/

section Checker

variable [DecidableEq Key] [DecidableEq Plain] (letterCase : LetterCase)
  {entityType : EntityClass Property}

/-- Every signature property has a supported value. -/
def Entity.Supported (entity : Entity entityType Key Plain) : Prop :=
  ∀ property ∈ entityType.signature,
    (entityType.property property).type.Supported (entity.values property)

/-- A row with another identifier whose columns the criteria of the entity accept. -/
def Entity.Selects (entity : Entity entityType Key Plain) (row : Row entityType Key Plain) : Prop :=
  some row.id ≠ entity.identity.getId ∧ ∀ property ∈ entityType.signature,
    (entityType.property property).type.Accepts letterCase (entity.values property)
      ((entityType.property property).type.store (row.values property))

omit [DecidableEq Plain] in
/-- The criteria of an entity can be made exactly when its values are supported. -/
theorem exists_appendSignaturePropertyCriteriaTo_iff (entity : Entity entityType Key Plain)
    (criteria : List (Restriction Property Key Plain)) :
    (∃ all, appendSignaturePropertyCriteriaTo criteria entity = .ok all) ↔ entity.Supported := by
  simp only [appendSignaturePropertyCriteriaTo, exists_map_ok_iff, exists_addAll_iff,
    exists_propertyCriteria_iff, Entity.Supported]

/-- The criteria of an entity select exactly the rows the entity selects. -/
theorem selects_criteria_iff {entity : Entity entityType Key Plain}
    {criteria : List (Restriction Property Key Plain)}
    (hcriteria : appendSignaturePropertyCriteriaTo
      [.not (.eq .id (.ofOption .key entity.identity.getId))] entity = .ok criteria)
    (row : Row entityType Key Plain) :
    criteria.all (Restriction.selects letterCase row) = true ↔ entity.Selects letterCase row := by
  obtain ⟨added, hadded, rfl⟩ := map_eq_ok_iff.mp hcriteria
  rw [List.all_eq_true, List.forall_mem_append, forall_mem_addAll_iff hadded, Entity.Selects]
  refine and_congr ?_ (forall₂_congr fun property hmem ↦ ?_)
  · rcases entity.identity.getId with _ | id <;>
      simp [Restriction.selects, Row.column, SqlValue.ofOption]
  · obtain ⟨restrictions, hrestrictions⟩ := exists_addAll_iff.mp ⟨added, hadded⟩ property hmem
    rw [hrestrictions]
    simp only [Except.ok.injEq, forall_eq']
    exact selects_propertyCriteria_iff _ _ hrestrictions

/-- A query that flushes nothing finds a row exactly when a stored row meets all its criteria. -/
theorem list_length_pos_iff {session : Session entityType Key Plain}
    (hmanual : session.flushMode = .manual) (criteria : List (Restriction Property Key Plain)) :
    0 < (session.list letterCase criteria).1.length ↔
      ∃ row ∈ session.stored, criteria.all (Restriction.selects letterCase row) = true := by
  have hfound : (session.list letterCase criteria).1 = (session.stored.filter fun row ↦
      criteria.all (Restriction.selects letterCase row)).take 1 := by
    simp only [Session.list, hmanual, reduceCtorEq, or_self, if_false]
  rw [hfound, List.length_take, Nat.lt_min, and_iff_right Nat.one_pos, List.length_pos_iff_exists_mem]
  simp only [List.mem_filter]

/-- The checker finds a duplicate exactly when the values are supported and the entity selects a
stored row. -/
theorem doesDuplicateExist_eq_true_iff (entity : Entity entityType Key Plain)
    (session : Session entityType Key Plain) :
    (doesDuplicateExistWithTypedIdOf letterCase (some entity) session).1 = .ok true ↔
      entity.Supported ∧ ∃ row ∈ session.stored, entity.Selects letterCase row := by
  rw [← exists_appendSignaturePropertyCriteriaTo_iff entity
    [.not (.eq .id (.ofOption .key entity.identity.getId))]]
  simp only [doesDuplicateExistWithTypedIdOf]
  rcases hcriteria : appendSignaturePropertyCriteriaTo
      [.not (.eq .id (.ofOption .key entity.identity.getId))] entity with exception | criteria
  · simp
  · have hfound := list_length_pos_iff letterCase
      (rfl : ({ session with flushMode := .manual } : Session entityType Key Plain).flushMode =
        .manual) criteria
    simp only [selects_criteria_iff letterCase hcriteria] at hfound
    simp only [Except.ok.injEq, exists_eq', true_and, ← hfound, gt_iff_lt, decide_eq_true_eq]

end Checker

end SharpArch.NHibernate
