import SharpArch.NHibernate.DuplicateCriteria

/-!
# The flush mode around a duplicate check

The checker sets the flush mode of the session to manual before it looks at the entity, and back when
it is done. Here everything it does in between may throw: creating the criteria, reading the identifier
and the properties, adding the criteria of a property, running the query. While the query runs, further
checks may be made on the same session, and others within those.

`DatabaseSession` is a session over the tables of all classes, which keeps the flush mode every query
was run in. `Checks` are the checks made on a session one after the other, each with those made within
its query. However they end, the queries run in manual mode, nothing pending is flushed, and the flush
mode is back (`run_preserves`).

On an entity all of whose reads return, and with no checks within the query, the check is that of
`doesDuplicateExistWithTypedIdOf` (`check_getters`).
-/

set_option autoImplicit false
set_option relaxedAutoImplicit false

namespace SharpArch.NHibernate

open Foundation.SqlLike Platform.SystemTransactions

variable {Property Key Plain : Type}

/-! ### Reading an entity -/

/-- What reading an object of a class that implements `IEntity<>` gives: whether it is an `IEntity`,
and the answer of its `GetId`. -/
structure ReferenceRead (Key : Type) where
  isIEntity : Bool
  getId : Except Exn (Option Key)

/-- What reading a property of a type gives. The properties of a value object are still to be read. -/
@[reducible] def PropertyType.Read (Key Plain : Type) : PropertyType Property → Type
  | .entity => Option (ReferenceRead Key)
  | .valueObject components =>
    Option (∀ property, Except Exn ((components.component property).type.Value Plain))
  | .simple type => type.Value Plain

/-- How the steps before the query end for an entity: creating the criteria, reading the identifier
and the signature, reading a property, and adding the criteria of a property. -/
structure Getters (entityType : EntityClass Property) (Key Plain : Type) where
  createCriteria : Except Exn Unit
  getId : Except Exn (Option Key)
  getSignatureProperties : Except Exn Unit
  getValue : ∀ property, Except Exn ((entityType.property property).type.Read Key Plain)
  addCriteria : Property → Except Exn Unit

/-- The criteria of a property, from what reading it gives. -/
def readCriteria (entityType propertyName : String) (property : Property) :
    (type : PropertyType Property) → type.Read Key Plain →
      Except Exn (List (Restriction Property Key Plain))
  | .entity, some propertyValue =>
    if propertyValue.isIEntity then
      propertyValue.getId.map fun id ↦ [.eq (.property property .id) (.ofOption .key id)]
    else .error .invalidCast
  | .entity, none => .ok [.isNull (.property property .id)]
  | .valueObject _, none => .ok []
  | .valueObject components, some getValue =>
    addAll (fun component ↦
      match getValue component with
      | .error exception => .error exception
      | .ok value =>
        (appendSimplePropertyCriteriaTo entityType
          (getPropertyName propertyName (components.component component).name)
          (.property property (.component component)) (components.component component).type
          value).map fun added ↦ [added]) components.signature
  | .simple type, propertyValue =>
    (appendSimplePropertyCriteriaTo entityType propertyName (.property property .whole) type
      propertyValue).map fun added ↦ [added]

namespace Getters

variable {entityType : EntityClass Property}

/-- The criteria added in one round of the loop of `AppendSignaturePropertyCriteriaTo`. -/
def propertyCriteria (getters : Getters entityType Key Plain) (property : Property) :
    Except Exn (List (Restriction Property Key Plain)) :=
  match getters.getValue property with
  | .error exception => .error exception
  | .ok value =>
    match getters.addCriteria property with
    | .error exception => .error exception
    | .ok _ =>
      readCriteria entityType.name (entityType.property property).name property
        (entityType.property property).type value

/-- The criteria of the query. -/
def criteria (getters : Getters entityType Key Plain) :
    Except Exn (List (Restriction Property Key Plain)) :=
  match getters.createCriteria with
  | .error exception => .error exception
  | .ok _ =>
    match getters.getId with
    | .error exception => .error exception
    | .ok id =>
      match getters.getSignatureProperties with
      | .error exception => .error exception
      | .ok _ =>
        (addAll getters.propertyCriteria entityType.signature).map fun added ↦
          [.not (.eq .id (.ofOption .key id))] ++ added

end Getters

/-! ### Checks on a session -/

/-- The tables of a database. -/
abbrev Tables (Property Key Plain : Type) :=
  ∀ entityType : EntityClass Property, List (Row entityType Key Plain)

/-- A session over a database, with the flush modes its queries were run in. -/
structure DatabaseSession (Property Key Plain : Type) where
  flushMode : FlushMode
  stored : Tables Property Key Plain
  pending : List (Tables Property Key Plain → Tables Property Key Plain)
  queried : List FlushMode := []

/-- Checks made one after the other, each with the checks made within its query and the exception with
which the query ends, if any. -/
inductive Checks (Property Key Plain : Type)
  | done
  | check (entityType : EntityClass Property) (getters : Getters entityType Key Plain)
      (within : Checks Property Key Plain) (queryThrows : Option Exn)
      (next : Checks Property Key Plain)

namespace DatabaseSession

/-- `Flush`. -/
def flush (session : DatabaseSession Property Key Plain) : DatabaseSession Property Key Plain :=
  { session with
    stored := session.pending.foldl (fun stored change ↦ change stored) session.stored
    pending := [] }

variable [DecidableEq Key] [DecidableEq Plain] (letterCase : LetterCase)

/-- `List` of a criteria with at most one result. A session in one of the automatic modes is flushed
first, and `within` happens to the session before the query returns or throws. -/
def list (entityType : EntityClass Property) (criteria : List (Restriction Property Key Plain))
    (within : DatabaseSession Property Key Plain → DatabaseSession Property Key Plain)
    (queryThrows : Option Exn) (session : DatabaseSession Property Key Plain) :
    Except Exn (List (Row entityType Key Plain)) × DatabaseSession Property Key Plain :=
  let queried :=
    if session.flushMode = .auto ∨ session.flushMode = .always then session.flush else session
  let found := ((queried.stored entityType).filter fun row ↦
    criteria.all (Restriction.selects letterCase row)).take 1
  (match queryThrows with
    | none => .ok found
    | some exception => .error exception,
    within { queried with queried := queried.queried ++ [queried.flushMode] })

/-- `DoesDuplicateExistWithTypedIdOf` of an entity. -/
def check {entityType : EntityClass Property} (getters : Getters entityType Key Plain)
    (within : DatabaseSession Property Key Plain → DatabaseSession Property Key Plain)
    (queryThrows : Option Exn) (session : DatabaseSession Property Key Plain) :
    Except Exn Bool × DatabaseSession Property Key Plain :=
  let previousFlushMode := session.flushMode
  let sessionForEntity := { session with flushMode := .manual }
  let checked : Except Exn Bool × DatabaseSession Property Key Plain :=
    match getters.criteria with
    | .error exception => (.error exception, sessionForEntity)
    | .ok criteria =>
      let (found, later) :=
        sessionForEntity.list letterCase entityType criteria within queryThrows
      (found.map fun rows ↦ decide (rows.length > 0), later)
  (checked.1, { checked.2 with flushMode := previousFlushMode })

/-- The session after the checks. -/
def run : Checks Property Key Plain → DatabaseSession Property Key Plain →
    DatabaseSession Property Key Plain
  | .done, session => session
  | .check _ getters within queryThrows next, session =>
    run next (check letterCase getters (run within) queryThrows session).2

/-! ### What the checks leave -/

/-- The flush mode is the same, nothing pending has been flushed, and every query since was run in
manual mode. -/
structure Preserved (before after : DatabaseSession Property Key Plain) : Prop where
  flushMode : after.flushMode = before.flushMode
  stored : after.stored = before.stored
  pending : after.pending = before.pending
  queried : ∃ queried, after.queried = before.queried ++ queried ∧ ∀ mode ∈ queried, mode = .manual

section Preserved

variable {letterCase} {entityType : EntityClass Property}
  {session : DatabaseSession Property Key Plain}
  {within : DatabaseSession Property Key Plain → DatabaseSession Property Key Plain}

omit [DecidableEq Key] [DecidableEq Plain] in
theorem Preserved.refl (session : DatabaseSession Property Key Plain) : Preserved session session where
  flushMode := rfl
  stored := rfl
  pending := rfl
  queried := ⟨[], (List.append_nil _).symm, fun _ h ↦ absurd h List.not_mem_nil⟩

omit [DecidableEq Key] [DecidableEq Plain] in
theorem Preserved.trans {before between after : DatabaseSession Property Key Plain}
    (hfirst : Preserved before between) (hsecond : Preserved between after) :
    Preserved before after where
  flushMode := hsecond.flushMode.trans hfirst.flushMode
  stored := hsecond.stored.trans hfirst.stored
  pending := hsecond.pending.trans hfirst.pending
  queried := by
    obtain ⟨first, hfirst, hfirstManual⟩ := hfirst.queried
    obtain ⟨second, hsecond, hsecondManual⟩ := hsecond.queried
    refine ⟨first ++ second, by rw [hsecond, hfirst, List.append_assoc], fun mode hmem ↦ ?_⟩
    exact (List.mem_append.mp hmem).elim (hfirstManual mode) (hsecondManual mode)

/-- In manual mode a query flushes nothing and is run in that mode. -/
theorem list_of_manual (hmanual : session.flushMode = .manual)
    (criteria : List (Restriction Property Key Plain)) (queryThrows : Option Exn) :
    (session.list letterCase entityType criteria within queryThrows).2 =
      within { session with queried := session.queried ++ [.manual] } := by
  simp only [list, hmanual, reduceCtorEq, or_self, if_false]

/-- A check whose criteria are made runs its query in manual mode, and then what happens within it. -/
theorem check_of_criteria {getters : Getters entityType Key Plain}
    {criteria : List (Restriction Property Key Plain)} (hcriteria : getters.criteria = .ok criteria)
    (queryThrows : Option Exn) :
    (check letterCase getters within queryThrows session).2 =
      { within { session with flushMode := .manual, queried := session.queried ++ [.manual] } with
        flushMode := session.flushMode } := by
  have hlist : (list letterCase entityType criteria within queryThrows
      { session with flushMode := .manual }).2 =
        within { session with flushMode := .manual, queried := session.queried ++ [.manual] } :=
    list_of_manual rfl criteria queryThrows
  simp only [check, hcriteria, hlist]

/-- A check leaves the session as it was, whatever throws, when what happens within its query does. -/
theorem preserved_check (hwithin : ∀ session, Preserved session (within session))
    (getters : Getters entityType Key Plain) (queryThrows : Option Exn) :
    Preserved session (check letterCase getters within queryThrows session).2 := by
  cases hcriteria : getters.criteria with
  | error exception =>
    have hsame : (check letterCase getters within queryThrows session).2 = session := by
      simp only [check, hcriteria]
    rw [hsame]
    exact .refl session
  | ok criteria =>
    rw [check_of_criteria hcriteria]
    have hquery := hwithin
      { session with flushMode := .manual, queried := session.queried ++ [.manual] }
    obtain ⟨more, hmore, hmanual⟩ := hquery.queried
    refine ⟨rfl, hquery.stored, hquery.pending, .manual :: more, ?_, fun mode hmem ↦ ?_⟩
    · rw [hmore, List.append_assoc, List.singleton_append]
    · exact (List.mem_cons.mp hmem).elim id (hmanual mode)

theorem preserved_run (checks : Checks Property Key Plain)
    (session : DatabaseSession Property Key Plain) :
    Preserved session (run letterCase checks session) := by
  induction checks generalizing session with
  | done => exact .refl session
  | check entityType getters within queryThrows next ihWithin ihNext =>
    exact (preserved_check ihWithin getters queryThrows).trans (ihNext _)

/-- For every session, flush mode and entity, whichever step throws, and whatever further checks are
made within the query and within theirs: a check leaves the flush mode as it was, flushes nothing
pending, and runs every query in manual mode, its own as soon as its criteria are made. -/
theorem check_restores_flushMode (letterCase : LetterCase) (getters : Getters entityType Key Plain)
    (within : Checks Property Key Plain) (queryThrows : Option Exn)
    (session : DatabaseSession Property Key Plain) :
    let after := (check letterCase getters (run letterCase within) queryThrows session).2
    Preserved session after ∧ ((∃ criteria, getters.criteria = .ok criteria) →
      ∃ queried, after.queried = session.queried ++ .manual :: queried) := by
  refine ⟨preserved_check (preserved_run within) getters queryThrows, ?_⟩
  rintro ⟨criteria, hcriteria⟩
  have hwithin : Preserved
      { session with flushMode := .manual, queried := session.queried ++ [.manual] }
      (run letterCase within
        { session with flushMode := .manual, queried := session.queried ++ [.manual] }) :=
    preserved_run within _
  obtain ⟨queried, hqueried, -⟩ := hwithin.queried
  refine ⟨queried, ?_⟩
  rw [check_of_criteria hcriteria, hqueried, List.append_assoc, List.singleton_append]

end Preserved

end DatabaseSession

/-! ### A check in which nothing throws -/

section Returning

variable [DecidableEq Key] {entityType : EntityClass Property}

/-- What reading a value gives when nothing throws. -/
def PropertyType.read :
    (type : PropertyType Property) → type.Value (Referred Key) Plain → type.Read Key Plain
  | .entity, value => value.map fun referred ↦ ⟨referred.isIEntity, .ok referred.getId⟩
  | .valueObject _, value => value.map fun values component ↦ .ok (values component)
  | .simple _, value => value

/-- The steps before the query for an entity on which nothing throws. -/
def Entity.getters (entity : Entity entityType Key Plain) : Getters entityType Key Plain where
  createCriteria := .ok ()
  getId := .ok entity.identity.getId
  getSignatureProperties := .ok ()
  getValue := fun property ↦
    .ok ((entityType.property property).type.read (entity.values property))
  addCriteria := fun _ ↦ .ok ()

theorem readCriteria_read (entityTypeName propertyName : String) (property : Property)
    (type : PropertyType Property) (value : type.Value (Referred Key) Plain) :
    readCriteria entityTypeName propertyName property type (type.read value) =
      propertyCriteria entityTypeName propertyName property type value := by
  cases type with
  | entity =>
    rcases value with _ | referred
    · rfl
    · simp only [PropertyType.read, Option.map_some, readCriteria, propertyCriteria,
        appendEntityIdCriteriaTo]
      split_ifs <;> rfl
  | valueObject components => cases value <;> rfl
  | simple type => rfl

theorem criteria_getters (entity : Entity entityType Key Plain) :
    entity.getters.criteria = appendSignaturePropertyCriteriaTo
      [.not (.eq .id (.ofOption .key entity.identity.getId))] entity := by
  have hproperty : entity.getters.propertyCriteria = fun property ↦
      propertyCriteria entityType.name (entityType.property property).name property
        (entityType.property property).type (entity.values property) := by
    funext property
    exact readCriteria_read _ _ _ _ _
  simp only [Getters.criteria, hproperty]
  rfl

/-- On an entity on which nothing throws, with no checks within the query, the check answers what
`DoesDuplicateExistWithTypedIdOf` answers over the table of the class. -/
theorem check_getters [DecidableEq Plain] (letterCase : LetterCase)
    (entity : Entity entityType Key Plain) (session : DatabaseSession Property Key Plain)
    {table : Session entityType Key Plain} (hstored : table.stored = session.stored entityType) :
    (session.check letterCase entity.getters id none).1 =
      (doesDuplicateExistWithTypedIdOf letterCase (some entity) table).1 := by
  simp only [DatabaseSession.check, doesDuplicateExistWithTypedIdOf, criteria_getters]
  cases appendSignaturePropertyCriteriaTo
      [.not (.eq .id (.ofOption .key entity.identity.getId))] entity with
  | error exception => rfl
  | ok criteria =>
    simp only [DatabaseSession.list, Session.list, reduceCtorEq, or_self, if_false, hstored]
    rfl

end Returning

end SharpArch.NHibernate
