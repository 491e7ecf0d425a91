import SharpArch.NHibernate.EntityDuplicateChecker

/-!
# When the duplicate checker throws

The checker should throw `InvalidOperationException` for a signature property, or a property of a
value object, of a type it cannot determine a criterion for, and never otherwise. Two of its casts
throw as well: that of an enum to `int`, unless `int` is its underlying type, and that of a reference
to `IEntity`, which a class that implements `IEntity<>` need not implement.

`Entity.obstacles` lists what stands in the way of the criteria of an entity, in the order in which
the checker meets it. The checker ends with the exception of the first obstacle, and with a verdict
when there is none (`ends_doesDuplicateExist`).
-/

set_option autoImplicit false
set_option relaxedAutoImplicit false

namespace SharpArch.NHibernate

open Foundation.SqlLike Platform.SystemTransactions

variable {Property Key Plain : Type}

/-! ### Obstacles -/

/-- Why no criterion can be made: a cast fails, or the type of a property is not one the checker
determines a criterion for. -/
inductive Obstacle
  | cast
  | undetermined (propertyName : String)
deriving DecidableEq, Repr

/-- The obstacle of a simple property, if any. -/
def SimpleType.obstacles (propertyName : String) : SimpleType → List Obstacle
  | .enumeration underlying => if underlying = .int32 then [] else [.cast]
  | .other => [.undetermined propertyName]
  | _ => []

/-- The obstacles of a property, in order. -/
def PropertyType.obstacles (propertyName : String) :
    (type : PropertyType Property) → type.Value (Referred Key) Plain → List Obstacle
  | .entity, some value => if value.isIEntity then [] else [.cast]
  | .valueObject components, some _ => components.signature.flatMap fun component ↦
    (components.component component).type.obstacles
      (getPropertyName propertyName (components.component component).name)
  | .simple type, _ => type.obstacles propertyName
  | _, _ => []

/-- The obstacles of an entity, in order. -/
def Entity.obstacles {entityType : EntityClass Property} (entity : Entity entityType Key Plain) :
    List Obstacle :=
  entityType.signature.flatMap fun property ↦
    (entityType.property property).type.obstacles (entityType.property property).name
      (entity.values property)

/-- How a computation that meets obstacles ends: with the exception of the first, or normally. -/
def Ends {Result : Type} (entityType : String) (result : Except Exn Result) :
    List Obstacle → Prop
  | [] => ∃ value, result = .ok value
  | .cast :: _ => result = .error .invalidCast
  | .undetermined propertyName :: _ =>
    result = .error (.invalidOperation (unsupportedPropertyMessage entityType propertyName))

section Ends

variable {entityType : String} {obstacles : List Obstacle}

theorem ends_map {First Second : Type} {result : Except Exn First} (f : First → Second)
    (hends : Ends entityType result obstacles) : Ends entityType (result.map f) obstacles := by
  rcases obstacles with _ | ⟨_ | propertyName, rest⟩
  · obtain ⟨value, rfl⟩ := hends
    exact ⟨f value, rfl⟩
  · obtain rfl : result = .error .invalidCast := hends
    rfl
  · obtain rfl : result = .error (.invalidOperation
      (unsupportedPropertyMessage entityType propertyName)) := hends
    rfl

/-- The loop ends at the first obstacle of its items. -/
theorem ends_addAll {Item : Type} {restrictions : Item → Except Exn (List (Restriction Property Key Plain))}
    {obstaclesOf : Item → List Obstacle}
    (hitem : ∀ item, Ends entityType (restrictions item) (obstaclesOf item)) (items : List Item) :
    Ends entityType (addAll restrictions items) (items.flatMap obstaclesOf) := by
  induction items with
  | nil => exact ⟨[], rfl⟩
  | cons item rest ih =>
    have hfirst := hitem item
    rw [addAll, List.flatMap_cons]
    rcases hobstacles : obstaclesOf item with _ | ⟨_ | propertyName, others⟩ <;>
      rw [hobstacles] at hfirst
    · obtain ⟨added, hadded⟩ := hfirst
      rw [hadded]
      exact ends_map _ ih
    · rw [show restrictions item = .error .invalidCast from hfirst]
      rfl
    · rw [show restrictions item = .error (.invalidOperation
        (unsupportedPropertyMessage entityType propertyName)) from hfirst]
      rfl

theorem ends_appendSimplePropertyCriteriaTo (propertyName : String) (path : Path Property)
    (type : SimpleType) (value : type.Value Plain) :
    Ends entityType (appendSimplePropertyCriteriaTo entityType propertyName path type value :
      Except Exn (Restriction Property Key Plain)) (type.obstacles propertyName) := by
  rcases type with (_ | _) | _ | _ | (_ | _) | _ <;>
    first
      | exact ⟨_, rfl⟩
      | rfl

/-- The criteria of a property end as its obstacles say. -/
theorem ends_propertyCriteria [DecidableEq Key] {propertyName : String} {property : Property}
    (type : PropertyType Property) (value : type.Value (Referred Key) Plain) :
    Ends entityType (propertyCriteria entityType propertyName property type value)
      (type.obstacles propertyName value) := by
  cases type with
  | entity =>
    refine ends_map _ ?_
    rcases value with _ | value
    · exact ⟨_, rfl⟩
    · simp only [appendEntityIdCriteriaTo, PropertyType.obstacles]
      split_ifs
      · exact ⟨_, rfl⟩
      · rfl
  | valueObject components =>
    rcases value with _ | values
    · exact ⟨[], rfl⟩
    · refine ends_addAll (fun component ↦ ends_map _ ?_) components.signature
      exact ends_appendSimplePropertyCriteriaTo _ _ _ (values component)
  | simple type => exact ends_map _ (ends_appendSimplePropertyCriteriaTo _ _ type value)

end Ends

/-! ### The checker -/

section Checker

variable [DecidableEq Key] [DecidableEq Plain] {entityType : EntityClass Property}

/-- The checker ends as the obstacles of the entity say. -/
theorem ends_doesDuplicateExist (letterCase : LetterCase) (entity : Entity entityType Key Plain)
    (session : Session entityType Key Plain) :
    Ends entityType.name (doesDuplicateExistWithTypedIdOf letterCase (some entity) session).1
      entity.obstacles := by
  have hcriteria : Ends entityType.name (appendSignaturePropertyCriteriaTo
      [.not (.eq .id (.ofOption .key entity.identity.getId))] entity) entity.obstacles :=
    ends_map _ (ends_addAll (fun property ↦ ends_propertyCriteria _ _) entityType.signature)
  simp only [doesDuplicateExistWithTypedIdOf]
  rcases hobstacles : entity.obstacles with _ | ⟨_ | propertyName, rest⟩ <;>
    rw [hobstacles] at hcriteria
  · obtain ⟨criteria, hcriteria⟩ := hcriteria
    rw [hcriteria]
    exact ⟨_, rfl⟩
  · rw [show appendSignaturePropertyCriteriaTo _ entity = .error .invalidCast from hcriteria]
    rfl
  · rw [show appendSignaturePropertyCriteriaTo _ entity = .error (.invalidOperation
      (unsupportedPropertyMessage entityType.name propertyName)) from hcriteria]
    rfl

/-- The type of the property is not one that a criterion can be determined for: a class that implements
`IEntity<>`, a value object class, an enum, `DateTime`, `string` or another value type; or so it is
with a property of the value object it holds, for which the first two kinds are out as well. -/
def PropertyType.IsUndetermined :
    (type : PropertyType Property) → type.Value (Referred Key) Plain → Prop
  | .valueObject components, some _ =>
    ∃ component ∈ components.signature, (components.component component).type = .other
  | .simple type, _ => type = .other
  | _, _ => False

/-- A property of the signature is undetermined. -/
def Entity.IsUndetermined (entity : Entity entityType Key Plain) : Prop :=
  ∃ property ∈ entityType.signature,
    (entityType.property property).type.IsUndetermined (entity.values property)

/-- In every session the checker throws `InvalidOperationException` exactly for an undetermined
property, and otherwise returns a verdict. -/
def Entity.ThrowsForUndetermined (letterCase : LetterCase) (entity : Entity entityType Key Plain) :
    Prop :=
  ∀ session : Session entityType Key Plain,
    let answer := (doesDuplicateExistWithTypedIdOf letterCase (some entity) session).1
    ((∃ message, answer = .error (.invalidOperation message)) ↔ entity.IsUndetermined) ∧
      (¬ entity.IsUndetermined → ∃ verdict, answer = .ok verdict)

omit [DecidableEq Key] [DecidableEq Plain] in
theorem SimpleType.mem_obstacles_iff (propertyName : String) (type : SimpleType) :
    (∃ name, Obstacle.undetermined name ∈ type.obstacles propertyName) ↔ type = .other := by
  cases type with
  | enumeration underlying =>
    simp only [obstacles]
    split_ifs <;> simp
  | other => simp [obstacles]
  | dateTime => simp [obstacles]
  | string => simp [obstacles]
  | valueType nullable => simp [obstacles]

omit [DecidableEq Key] [DecidableEq Plain] in
theorem PropertyType.mem_obstacles_iff (propertyName : String) (type : PropertyType Property)
    (value : type.Value (Referred Key) Plain) :
    (∃ name, Obstacle.undetermined name ∈ type.obstacles propertyName value) ↔
      type.IsUndetermined value := by
  cases type with
  | entity =>
    rcases value with _ | value
    · simp [obstacles, IsUndetermined]
    · simp only [obstacles, IsUndetermined]
      split_ifs <;> simp
  | valueObject components =>
    rcases value with _ | values
    · simp [obstacles, IsUndetermined]
    · simp only [obstacles, IsUndetermined, List.mem_flatMap]
      constructor
      · rintro ⟨name, component, hmem, hobstacle⟩
        exact ⟨component, hmem, (SimpleType.mem_obstacles_iff _ _).mp ⟨name, hobstacle⟩⟩
      · rintro ⟨component, hmem, hother⟩
        obtain ⟨name, hobstacle⟩ := (SimpleType.mem_obstacles_iff
          (getPropertyName propertyName (components.component component).name) _).mpr hother
        exact ⟨name, component, hmem, hobstacle⟩
  | simple type => exact SimpleType.mem_obstacles_iff propertyName type

omit [DecidableEq Key] [DecidableEq Plain] in
theorem Entity.mem_obstacles_iff (entity : Entity entityType Key Plain) :
    (∃ name, Obstacle.undetermined name ∈ entity.obstacles) ↔ entity.IsUndetermined := by
  simp only [obstacles, IsUndetermined, List.mem_flatMap]
  constructor
  · rintro ⟨name, property, hmem, hobstacle⟩
    exact ⟨property, hmem, (PropertyType.mem_obstacles_iff _ _ _).mp ⟨name, hobstacle⟩⟩
  · rintro ⟨property, hmem, hundetermined⟩
    obtain ⟨name, hobstacle⟩ := (PropertyType.mem_obstacles_iff
      (entityType.property property).name _ _).mpr hundetermined
    exact ⟨name, property, hmem, hobstacle⟩

/-- For every entity: in every session the checker throws `InvalidOperationException` exactly when a
property of its signature is undetermined and otherwise returns a verdict, if and only if the first
obstacle it meets, if any, is not a failing cast. -/
theorem throwsForUndetermined_iff (letterCase : LetterCase) (entity : Entity entityType Key Plain) :
    entity.ThrowsForUndetermined letterCase ↔ entity.obstacles.head? ≠ some .cast := by
  have hends := ends_doesDuplicateExist letterCase entity
  unfold Entity.ThrowsForUndetermined
  rw [← entity.mem_obstacles_iff]
  rcases hobstacles : entity.obstacles with _ | ⟨_ | propertyName, rest⟩ <;>
    rw [hobstacles] at hends
  · refine iff_of_true (fun session ↦ ?_) (by simp)
    obtain ⟨verdict, hverdict⟩ := hends session
    exact ⟨by simp [hverdict], fun _ ↦ ⟨verdict, hverdict⟩⟩
  · refine iff_of_false (fun hthrows ↦ ?_) (by simp)
    have hcast : (doesDuplicateExistWithTypedIdOf letterCase (some entity) ⟨.auto, [], []⟩).1 =
      .error .invalidCast := hends ⟨.auto, [], []⟩
    obtain ⟨hexactly, hverdict⟩ := hthrows ⟨.auto, [], []⟩
    by_cases hundetermined : ∃ name, Obstacle.undetermined name ∈ Obstacle.cast :: rest
    · obtain ⟨message, hmessage⟩ := hexactly.mpr hundetermined
      exact absurd (hcast.symm.trans hmessage) (by simp)
    · obtain ⟨verdict, hreturned⟩ := hverdict hundetermined
      exact absurd (hcast.symm.trans hreturned) (by simp)
  · refine iff_of_true (fun session ↦ ?_) (by simp)
    have hundetermined : ∃ name, Obstacle.undetermined name ∈
        Obstacle.undetermined propertyName :: rest := ⟨propertyName, List.mem_cons_self⟩
    exact ⟨iff_of_true ⟨_, hends session⟩ hundetermined, fun hnot ↦ absurd hundetermined hnot⟩

/-- Two entities for which the checker throws `InvalidCastException`: one with an enum on `byte` in its
signature, and one that refers to an object whose class implements `IEntity<>` only. -/
theorem casts_throw :
    let ticketClass : EntityClass Unit :=
      ⟨"Ticket", [()], fun _ ↦ ⟨"Status", .simple (.enumeration .byte)⟩⟩
    let ticket : Entity ticketClass ℕ ℕ := ⟨⟨none, none⟩, fun _ ↦ (1 : ℤ)⟩
    let orderClass : EntityClass Unit := ⟨"Order", [()], fun _ ↦ ⟨"Customer", .entity⟩⟩
    let order : Entity orderClass ℕ ℕ := ⟨⟨none, none⟩, fun _ ↦ some ⟨⟨some 7, none⟩, false⟩⟩
    (doesDuplicateExistWithTypedIdOf .ascii (some ticket) ⟨.auto, [], []⟩).1 = .error .invalidCast ∧
      (doesDuplicateExistWithTypedIdOf .ascii (some order) ⟨.auto, [], []⟩).1 = .error .invalidCast ∧
      ¬ ticket.ThrowsForUndetermined .ascii ∧ ¬ order.ThrowsForUndetermined .ascii := by
  intro ticketClass ticket orderClass order
  have hticket : (doesDuplicateExistWithTypedIdOf .ascii (some ticket) ⟨.auto, [], []⟩).1 =
    .error .invalidCast := rfl
  have horder : (doesDuplicateExistWithTypedIdOf .ascii (some order) ⟨.auto, [], []⟩).1 =
    .error .invalidCast := rfl
  refine ⟨hticket, horder, fun hthrows ↦ ?_, fun hthrows ↦ ?_⟩
  · have hdetermined : ¬ ticket.IsUndetermined := by
      rintro ⟨property, -, htype⟩
      exact SimpleType.noConfusion htype
    obtain ⟨verdict, hverdict⟩ := (hthrows ⟨.auto, [], []⟩).2 hdetermined
    exact absurd (hticket.symm.trans hverdict) (by simp)
  · have hdetermined : ¬ order.IsUndetermined := by
      rintro ⟨property, -, htype⟩
      exact htype
    obtain ⟨verdict, hverdict⟩ := (hthrows ⟨.auto, [], []⟩).2 hdetermined
    exact absurd (horder.symm.trans hverdict) (by simp)

end Checker

end SharpArch.NHibernate
