import SharpArch.NHibernate.DuplicateCriteria

/-!
# Validation before inserts and updates

A session factory built with `UseDataAnnotationValidators(true)` has `DataAnnotationsEventListener` as
its first pre-insert and pre-update listener. It validates a `ValidatableObject` in a context whose
services are those of a private provider, which knows the session only. The class-level attribute for
a unique domain signature asks that context for an `IEntityDuplicateChecker`.

`notify_of_validatable` follows the call through: every insert or update of a `ValidatableObject` with
the attribute ends in the `InvalidOperationException` of the attribute, before any listener after it is
asked. `validatesUniqueness_iff` compares this with a validation that rejects exactly the duplicates.
-/

set_option autoImplicit false
set_option relaxedAutoImplicit false

namespace SharpArch.NHibernate

open Foundation.SqlLike Platform.SystemTransactions

variable {Property Key Plain : Type} {entityType : EntityClass Property}

/-! ### Validation -/

/-- The service types that are asked for. -/
inductive ServiceType
  | iSession
  | iEntityDuplicateChecker
deriving DecidableEq, Repr

/-- An `IEntityDuplicateChecker`, with the session it runs over. -/
abbrev IEntityDuplicateChecker (entityType : EntityClass Property) (Key Plain : Type) :=
  Option (Entity entityType Key Plain) → Session entityType Key Plain →
    Except Exn Bool × Session entityType Key Plain

/-- What a service provider returns. -/
inductive Service (entityType : EntityClass Property) (Key Plain : Type)
  | session
  | duplicateChecker (checker : IEntityDuplicateChecker entityType Key Plain)

/-- An object that is about to be written: what it is as an `IEntity`, and what its class is and
carries. -/
structure EventEntity (entityType : EntityClass Property) (Key Plain : Type) where
  typeName : String
  asIEntity : Option (Entity entityType Key Plain)
  isValidatableObject : Bool
  hasUniqueDomainSignature : Bool

/-- A `ValidationContext` asks the service provider it was made with. -/
structure ValidationContext (entityType : EntityClass Property) (Key Plain : Type) where
  objectInstance : EventEntity entityType Key Plain
  getService : ServiceType → Option (Service entityType Key Plain)

/-- The error message of `HasUniqueDomainSignatureAttributeBase`. -/
def duplicateMessage : String := "Provided values matched an existing, duplicate entity"

/-- `DoValidate`; no result stands for `ValidationResult.Success`. -/
def doValidate (value : EventEntity entityType Key Plain)
    (validationContext : ValidationContext entityType Key Plain)
    (session : Session entityType Key Plain) :
    Except Exn (Option String) × Session entityType Key Plain :=
  match value.asIEntity with
  | none =>
    (.error (.invalidOperation
      ("This validator must be used at the class level of an IEntity. The type you provided was '" ++
        value.typeName ++ "'.")), session)
  | some entityToValidate =>
    match validationContext.getService .iEntityDuplicateChecker with
    | none =>
      (.error (.invalidOperation
        "'IEntityDuplicateChecker' can not be resolved from validation context."), session)
    | some .session => (.error .invalidCast, session)
    | some (.duplicateChecker doesDuplicateExist) =>
      match doesDuplicateExist (some entityToValidate) session with
      | (.error exception, later) => (.error exception, later)
      | (.ok true, later) => (.ok (some duplicateMessage), later)
      | (.ok false, later) => (.ok none, later)

/-- `Validator.ValidateObject` of an object that violates no other attribute. -/
def validateObject (validated : EventEntity entityType Key Plain)
    (validationContext : ValidationContext entityType Key Plain)
    (session : Session entityType Key Plain) :
    Except Exn Unit × Session entityType Key Plain :=
  if validated.hasUniqueDomainSignature then
    match doValidate validated validationContext session with
    | (.error exception, later) => (.error exception, later)
    | (.ok (some message), later) => (.error (.validation message), later)
    | (.ok none, later) => (.ok (), later)
  else (.ok (), session)

/-! ### Listeners -/

/-- The service provider of `DataAnnotationsEventListener`. -/
def sessionProvider : ServiceType → Option (Service entityType Key Plain)
  | .iSession => some .session
  | _ => none

/-- A listener vetoes the write, lets it pass or throws. -/
abbrev EventListener (entityType : EntityClass Property) (Key Plain : Type) :=
  EventEntity entityType Key Plain → Session entityType Key Plain →
    Except Exn Bool × Session entityType Key Plain

/-- What `OnPreInsert` and `OnPreUpdate` do. -/
def validateEntity : EventListener entityType Key Plain := fun entity session ↦
  if entity.isValidatableObject then
    match validateObject entity ⟨entity, sessionProvider⟩ session with
    | (.error exception, later) => (.error exception, later)
    | (.ok (), later) => (.ok false, later)
  else (.ok false, session)

def onPreInsert : EventListener entityType Key Plain := validateEntity

def onPreUpdate : EventListener entityType Key Plain := validateEntity

/-- The listeners are asked in order until one throws; each may veto. -/
def notify : List (EventListener entityType Key Plain) → EventListener entityType Key Plain
  | [], _, session => (.ok false, session)
  | listener :: rest, entity, session =>
    match listener entity session with
    | (.error exception, later) => (.error exception, later)
    | (.ok veto, later) =>
      match notify rest entity later with
      | (.error exception, last) => (.error exception, last)
      | (.ok other, last) => (.ok (veto || other), last)

/-! ### The session factory -/

/-- The event listeners of a configuration; an array may be null. -/
structure Configuration (entityType : EntityClass Property) (Key Plain : Type) where
  preInsertEventListeners : Option (List (EventListener entityType Key Plain)) := some []
  preUpdateEventListeners : Option (List (EventListener entityType Key Plain)) := some []

/-- The settings of the builder that concern listeners. -/
structure NHibernateSessionFactoryBuilder (entityType : EntityClass Property) (Key Plain : Type) where
  useDataAnnotationValidators : Bool := false
  exposeConfiguration : Option (Configuration entityType Key Plain → Configuration entityType Key Plain)
    := none

def insertFirst {α : Type} (array : Option (List α)) (item : α) : Option (List α) :=
  match array with
  | none => some [item]
  | some array => some (item :: array)

namespace NHibernateSessionFactoryBuilder

def addValidatorsAndExposeConfiguration (builder : NHibernateSessionFactoryBuilder entityType Key Plain)
    (configuration : Configuration entityType Key Plain) : Configuration entityType Key Plain :=
  let validating : Configuration entityType Key Plain :=
    if builder.useDataAnnotationValidators then
      { preInsertEventListeners := insertFirst configuration.preInsertEventListeners onPreInsert
        preUpdateEventListeners := insertFirst configuration.preUpdateEventListeners onPreUpdate }
    else configuration
  match builder.exposeConfiguration with
  | none => validating
  | some expose => expose validating

def buildConfiguration (builder : NHibernateSessionFactoryBuilder entityType Key Plain)
    (loaded : Configuration entityType Key Plain) : Configuration entityType Key Plain :=
  if builder.useDataAnnotationValidators || builder.exposeConfiguration.isSome then
    builder.addValidatorsAndExposeConfiguration loaded
  else loaded

end NHibernateSessionFactoryBuilder

/-- The two kinds of writes of an entity. -/
inductive Write
  | insert
  | update
deriving DecidableEq, Repr

/-- The listeners asked before a write. -/
def Configuration.listeners (configuration : Configuration entityType Key Plain) :
    Write → List (EventListener entityType Key Plain)
  | .insert => configuration.preInsertEventListeners.getD []
  | .update => configuration.preUpdateEventListeners.getD []

/-- A write goes ahead when no listener throws or vetoes. -/
def beforeWrite (configuration : Configuration entityType Key Plain) (write : Write) :
    EventListener entityType Key Plain :=
  notify (configuration.listeners write)

/-! ### What a write meets -/

variable {entity : Entity entityType Key Plain} {session : Session entityType Key Plain}

/-- Validators are the first listeners asked. -/
theorem listeners_of_validating (loaded : Configuration entityType Key Plain) (write : Write) :
    ((NHibernateSessionFactoryBuilder.mk true none).buildConfiguration loaded).listeners write =
      validateEntity :: loaded.listeners write := by
  obtain ⟨inserts, updates⟩ := loaded
  cases write
  · rcases inserts with _ | listeners <;> rfl
  · rcases updates with _ | listeners <;> rfl

/-- Whatever is listening after it, the validator ends the write of a `ValidatableObject` with the
attribute in the exception of the attribute that found no checker. -/
theorem notify_of_validatable {value : EventEntity entityType Key Plain}
    (hentity : value.asIEntity = some entity) (hvalidatable : value.isValidatableObject = true)
    (hattribute : value.hasUniqueDomainSignature = true)
    (others : List (EventListener entityType Key Plain)) :
    notify (validateEntity :: others) value session =
      (.error (.invalidOperation
        "'IEntityDuplicateChecker' can not be resolved from validation context."), session) := by
  simp [notify, validateEntity, validateObject, doValidate, sessionProvider, hentity, hvalidatable,
    hattribute]

/-- The validator asks nothing of an object that is not a `ValidatableObject`. -/
theorem notify_of_not_validatable {value : EventEntity entityType Key Plain}
    (hvalidatable : value.isValidatableObject = false)
    (others : List (EventListener entityType Key Plain)) :
    notify (validateEntity :: others) value session = notify others value session := by
  rcases hothers : notify others value session with ⟨answer, later⟩
  cases answer <;> simp [notify, validateEntity, hvalidatable, hothers]

/-- The configuration of a session factory with validators. -/
def validatingConfiguration (loaded : Configuration entityType Key Plain) :
    Configuration entityType Key Plain :=
  (NHibernateSessionFactoryBuilder.mk true none).buildConfiguration loaded

theorem beforeWrite_validatingConfiguration (loaded : Configuration entityType Key Plain)
    (write : Write) :
    beforeWrite (validatingConfiguration loaded) write =
      notify (validateEntity :: loaded.listeners write) := by
  rw [beforeWrite, validatingConfiguration, listeners_of_validating]

variable [DecidableEq Key] [DecidableEq Plain]

/-- A write is rejected with a validation error exactly when the checker over the session reports a
duplicate, and goes ahead otherwise. -/
structure ValidatesUniqueness (letterCase : LetterCase)
    (configuration : Configuration entityType Key Plain) (write : Write)
    (value : EventEntity entityType Key Plain) (entity : Entity entityType Key Plain)
    (session : Session entityType Key Plain) : Prop where
  rejected_iff : (∃ message,
      (beforeWrite configuration write value session).1 = .error (.validation message)) ↔
    (doesDuplicateExistWithTypedIdOf letterCase (some entity) session).1 = .ok true
  proceeds : (doesDuplicateExistWithTypedIdOf letterCase (some entity) session).1 ≠ .ok true →
    (beforeWrite configuration write value session).1 = .ok false

/-- Over any table, inserting or updating an entity with the attribute that no other listener stops:
its uniqueness is validated exactly when it is not a `ValidatableObject`, so that nothing is
validated, and there is no duplicate to report. -/
theorem validatesUniqueness_iff (letterCase : LetterCase)
    (loaded : Configuration entityType Key Plain) (write : Write) (typeName : String)
    (isValidatableObject : Bool) (entity : Entity entityType Key Plain)
    (session : Session entityType Key Plain)
    (hothers : (beforeWrite loaded write ⟨typeName, some entity, isValidatableObject, true⟩
      session).1 = .ok false) :
    ValidatesUniqueness letterCase (validatingConfiguration loaded) write
        ⟨typeName, some entity, isValidatableObject, true⟩ entity session ↔
      isValidatableObject = false ∧
        ¬ (entity.Supported ∧ ∃ row ∈ session.stored, entity.Selects letterCase row) := by
  rw [← doesDuplicateExist_eq_true_iff]
  cases isValidatableObject with
  | true =>
    refine iff_of_false (fun hvalidates ↦ ?_) (by simp)
    -- The exception is no validation error, and the write does not go ahead.
    obtain ⟨hrejected, hproceeds⟩ := hvalidates
    rw [beforeWrite_validatingConfiguration, notify_of_validatable rfl rfl rfl] at hrejected hproceeds
    by_cases hreported :
        (doesDuplicateExistWithTypedIdOf letterCase (some entity) session).1 = .ok true
    · obtain ⟨message, hmessage⟩ := hrejected.mpr hreported
      exact absurd hmessage (by simp)
    · exact absurd (hproceeds hreported) (by simp)
  | false =>
    have hpasses : (beforeWrite (validatingConfiguration loaded) write
        ⟨typeName, some entity, false, true⟩ session).1 = .ok false := by
      rw [beforeWrite_validatingConfiguration, notify_of_not_validatable rfl]
      exact hothers
    rw [and_iff_right rfl]
    constructor
    · rintro ⟨hrejected, -⟩ hreported
      obtain ⟨message, hmessage⟩ := hrejected.mpr hreported
      rw [hpasses] at hmessage
      exact absurd hmessage (by simp)
    · intro hreported
      refine ⟨⟨fun hrejected ↦ ?_, fun h ↦ absurd h hreported⟩, fun _ ↦ hpasses⟩
      obtain ⟨message, hmessage⟩ := hrejected
      rw [hpasses] at hmessage
      exact absurd hmessage (by simp)

/-- A customer of a class that is no `ValidatableObject`, saved into an empty table through a session
without other listeners. -/
theorem validatesUniqueness_ann :
    let customerClass : EntityClass Unit := ⟨"Customer", [()], fun _ ↦ ⟨"Name", .simple .string⟩⟩
    let ann : Entity customerClass ℕ ℕ := ⟨⟨none, none⟩, fun _ ↦ some "ann"⟩
    let session : Session customerClass ℕ ℕ := ⟨.auto, [], []⟩
    (beforeWrite {} .insert ⟨"Customer", some ann, false, true⟩ session).1 = .ok false ∧
      (ValidatesUniqueness .ascii (validatingConfiguration {}) .insert
          ⟨"Customer", some ann, false, true⟩ ann session ↔
        false = false ∧ ¬ (ann.Supported ∧ ∃ row ∈ session.stored, ann.Selects .ascii row)) := by
  intro customerClass ann session
  exact ⟨rfl, validatesUniqueness_iff .ascii {} .insert "Customer" false ann session rfl⟩

/-- The same for a `ValidatableObject`: there is no duplicate of the customer, and the write throws. -/
theorem unique_customer_not_written :
    let customerClass : EntityClass Unit := ⟨"Customer", [()], fun _ ↦ ⟨"Name", .simple .string⟩⟩
    let ann : Entity customerClass ℕ ℕ := ⟨⟨none, none⟩, fun _ ↦ some "ann"⟩
    let session : Session customerClass ℕ ℕ := ⟨.auto, [], []⟩
    ¬ ValidatesUniqueness .ascii (validatingConfiguration {}) .insert
        ⟨"Customer", some ann, true, true⟩ ann session ∧
      (beforeWrite (validatingConfiguration {}) .insert ⟨"Customer", some ann, true, true⟩ session).1 =
        .error (.invalidOperation
          "'IEntityDuplicateChecker' can not be resolved from validation context.") := by
  intro customerClass ann session
  have hthrows : (beforeWrite (validatingConfiguration {}) .insert
      ⟨"Customer", some ann, true, true⟩ session).1 =
        .error (.invalidOperation
          "'IEntityDuplicateChecker' can not be resolved from validation context.") := rfl
  refine ⟨fun hvalidates ↦ ?_, hthrows⟩
  have hproceeds := hvalidates.proceeds (by decide)
  rw [hthrows] at hproceeds
  exact absurd hproceeds (by simp)

end SharpArch.NHibernate
