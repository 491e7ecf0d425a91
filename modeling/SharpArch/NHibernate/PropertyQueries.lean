import Mathlib.Data.List.Basic
import Mathlib.Data.List.Nodup
import Mathlib.Tactic.Common

/-!
# Queries by property values

`FindAllAsync` of `NHibernateRepository` adds one criterion for each pair of a dictionary, `IsNull` for
a null value and `Eq` for any other, and asks for at most a number of entities. `FindOneAsync` asks for
two and decides on what it gets.

The criteria are those of the pairs (`selects_of_pairs_iff`), so a query finds the entities that
`Agree` with every pair, up to the limit (`findAllAsync_eq`). Two of them are enough to tell whether
there is none, one or more (`decides_take_two`).
-/

set_option autoImplicit false
set_option relaxedAutoImplicit false

namespace SharpArch.NHibernate.PropertyQueries

variable {Entity Property Value : Type}

/-- What the queries throw. -/
inductive QueryException
  | argumentNull (paramName : String)
  | argument (message paramName : String)
  | nonUniqueResult (resultCount : ℕ)
  deriving DecidableEq, Repr

/-- An `IReadOnlyDictionary`. No value but those of its keys is read. -/
structure IReadOnlyDictionary (Key Value : Type) where
  keys : List Key
  nodup_keys : keys.Nodup
  item : Key → Value

/-- The stored entities of a class, each once, and what they hold in their properties. -/
structure Table (Entity Property Value : Type) where
  rows : List Entity
  nodup_rows : rows.Nodup
  value : Entity → Property → Option Value

/-! ### Criteria -/

/-- A criterion on a property. -/
inductive Criterion (Property Value : Type)
  | eq (property : Property) (value : Value)
  | isNull (property : Property)

/-- An `ICriteria`: the criteria added and the limit that was set. -/
structure ICriteria (Property Value : Type) where
  criterions : List (Criterion Property Value) := []
  maxResults : Option ℕ := none

/-- `ICriteria.Add`. -/
def ICriteria.add (criteria : ICriteria Property Value) (criterion : Criterion Property Value) :
    ICriteria Property Value :=
  { criteria with criterions := criteria.criterions ++ [criterion] }

section Query

variable [DecidableEq Value]

/-- The criterion holds of an entity. A null equals no value. -/
def Criterion.selects (table : Table Entity Property Value) (entity : Entity) :
    Criterion Property Value → Bool
  | .eq property value => table.value entity property = some value
  | .isNull property => (table.value entity property).isNone

/-- `ICriteria.List`. -/
def ICriteria.list (criteria : ICriteria Property Value) (table : Table Entity Property Value) :
    List Entity :=
  let found := table.rows.filter fun entity ↦ criteria.criterions.all (·.selects table entity)
  match criteria.maxResults with
  | none => found
  | some maxResults => found.take maxResults

/-- The criterion added for a pair. -/
def pairCriterion (propertyValuePairs : IReadOnlyDictionary Property (Option Value))
    (key : Property) : Criterion Property Value :=
  match propertyValuePairs.item key with
  | some value => .eq key value
  | none => .isNull key

/-- `FindAllAsync` of property/value pairs. -/
def findAllAsync (table : Table Entity Property Value)
    (propertyValuePairs : Option (IReadOnlyDictionary Property (Option Value)))
    (maxResults : Option ℕ) : Except QueryException (List Entity) :=
  match propertyValuePairs with
  | none => .error (.argumentNull "propertyValuePairs")
  | some propertyValuePairs =>
    if propertyValuePairs.keys.length = 0 then
      .error (.argument
        "No properties specified. Please specify at least one property/value pair."
        "propertyValuePairs")
    else
      let criteria : ICriteria Property Value := propertyValuePairs.keys.foldl
        (fun criteria key ↦ criteria.add (pairCriterion propertyValuePairs key)) {}
      .ok (ICriteria.list { criteria with maxResults := maxResults } table)

/-- The answer of `FindOneAsync` to the entities found. -/
def single (foundList : List Entity) : Except QueryException (Option Entity) :=
  if foundList.length > 1 then .error (.nonUniqueResult foundList.length)
  else if foundList.length = 1 then .ok foundList.head? else .ok none

/-- `FindOneAsync` of property/value pairs. -/
def findOneAsync (table : Table Entity Property Value)
    (propertyValuePairs : Option (IReadOnlyDictionary Property (Option Value))) :
    Except QueryException (Option Entity) :=
  match findAllAsync table propertyValuePairs (some 2) with
  | .error exception => .error exception
  | .ok foundList => single foundList

/-! ### The entities a query is about -/

/-- The entity holds the value of every pair, null where the value is null. -/
def Agrees (table : Table Entity Property Value)
    (propertyValuePairs : IReadOnlyDictionary Property (Option Value)) (entity : Entity) : Prop :=
  ∀ key ∈ propertyValuePairs.keys, table.value entity key = propertyValuePairs.item key

instance (table : Table Entity Property Value)
    (propertyValuePairs : IReadOnlyDictionary Property (Option Value)) :
    DecidablePred (Agrees table propertyValuePairs) :=
  fun _ ↦ List.decidableBAll _ _

/-- The entities that agree, in the order of the table. -/
def agreeing (table : Table Entity Property Value)
    (propertyValuePairs : IReadOnlyDictionary Property (Option Value)) : List Entity :=
  table.rows.filter (Agrees table propertyValuePairs)

/-- The outcome of looking for one entity when the entities to be found are these. -/
def Decides : List Entity → Except QueryException (Option Entity) → Prop
  | [], outcome => outcome = .ok none
  | [entity], outcome => outcome = .ok (some entity)
  | _ :: _ :: _, outcome => ∃ resultCount, outcome = .error (.nonUniqueResult resultCount)

variable {table : Table Entity Property Value}
  {propertyValuePairs : IReadOnlyDictionary Property (Option Value)}

theorem mem_agreeing {entity : Entity} :
    entity ∈ agreeing table propertyValuePairs ↔
      entity ∈ table.rows ∧ Agrees table propertyValuePairs entity := by
  simp only [agreeing, List.mem_filter, decide_eq_true_eq]

theorem nodup_agreeing : (agreeing table propertyValuePairs).Nodup :=
  table.nodup_rows.filter _

/-- The criterion of a pair selects the entities that hold its value. -/
theorem selects_pairCriterion_iff (entity : Entity) (key : Property) :
    (pairCriterion propertyValuePairs key).selects table entity = true ↔
      table.value entity key = propertyValuePairs.item key := by
  cases hitem : propertyValuePairs.item key with
  | none => simp only [pairCriterion, hitem, Criterion.selects, Option.isNone_iff_eq_none]
  | some value => simp only [pairCriterion, hitem, Criterion.selects, decide_eq_true_eq]

omit [DecidableEq Value] in
/-- The loop adds one criterion for each key. -/
theorem foldl_add (keys : List Property) (criteria : ICriteria Property Value) :
    keys.foldl (fun criteria key ↦ criteria.add (pairCriterion propertyValuePairs key)) criteria =
      { criteria with
        criterions := criteria.criterions ++ keys.map (pairCriterion propertyValuePairs) } := by
  induction keys generalizing criteria with
  | nil => simp only [List.foldl_nil, List.map_nil, List.append_nil]
  | cons key rest ih =>
    rw [List.foldl_cons, ih]
    simp only [ICriteria.add, List.map_cons, List.append_assoc, List.singleton_append]

/-- The criteria of all pairs select the entities that agree. -/
theorem selects_of_pairs_iff (entity : Entity) :
    (propertyValuePairs.keys.map (pairCriterion propertyValuePairs)).all
        (·.selects table entity) = true ↔ Agrees table propertyValuePairs entity := by
  simp only [List.all_map, List.all_eq_true, Function.comp_apply, selects_pairCriterion_iff, Agrees]

/-- A query finds the entities that agree, up to the limit. -/
theorem findAllAsync_eq (hkeys : propertyValuePairs.keys ≠ []) (maxResults : Option ℕ) :
    findAllAsync table (some propertyValuePairs) maxResults =
      .ok (match maxResults with
        | none => agreeing table propertyValuePairs
        | some limit => (agreeing table propertyValuePairs).take limit) := by
  have hfound : (table.rows.filter fun entity ↦
      (propertyValuePairs.keys.map (pairCriterion propertyValuePairs)).all
        (·.selects table entity)) = agreeing table propertyValuePairs := by
    refine List.filter_congr fun entity _ ↦ ?_
    rw [Bool.eq_iff_iff, selects_of_pairs_iff, decide_eq_true_eq]
  have hlength : propertyValuePairs.keys.length ≠ 0 := by
    rw [Ne, List.length_eq_zero_iff]
    exact hkeys
  simp only [findAllAsync, if_neg hlength, foldl_add, ICriteria.list, List.nil_append, hfound]

/-! ### One entity -/

/-- Two of the entities to be found are enough to decide. -/
theorem decides_take_two (found : List Entity) : Decides found (single (found.take 2)) := by
  match found with
  | [] => rfl
  | [entity] => rfl
  | _ :: _ :: _ => exact ⟨2, rfl⟩

/-- What `FindAllAsync` finds. -/
theorem findAllAsync_spec (table : Table Entity Property Value)
    (propertyValuePairs : IReadOnlyDictionary Property (Option Value))
    (hkeys : propertyValuePairs.keys ≠ []) (maxResults : Option ℕ) :
    ∃ found, findAllAsync table (some propertyValuePairs) maxResults = .ok found ∧
      (∀ entity ∈ found, entity ∈ table.rows ∧ Agrees table propertyValuePairs entity) ∧
      found.Nodup ∧
      (maxResults = none →
        ∀ entity ∈ table.rows, Agrees table propertyValuePairs entity → entity ∈ found) ∧
      ∀ limit, maxResults = some limit →
        found.length = min limit (table.rows.countP (Agrees table propertyValuePairs)) := by
  refine ⟨_, findAllAsync_eq hkeys maxResults, ?_⟩
  cases maxResults with
  | none =>
    refine ⟨fun entity hmem ↦ mem_agreeing.mp hmem, nodup_agreeing, ?_, nofun⟩
    intro _ entity hrow hagrees
    exact mem_agreeing.mpr ⟨hrow, hagrees⟩
  | some limit =>
    refine ⟨?_, nodup_agreeing.sublist (List.take_sublist _ _), nofun, ?_⟩
    · intro entity hmem
      exact mem_agreeing.mp (List.mem_of_mem_take hmem)
    · intro other hlimit
      obtain rfl := Option.some.inj hlimit
      rw [List.length_take, agreeing, ← List.countP_eq_length_filter]

/-- `FindOneAsync` answers as one would on the complete result. -/
theorem decides_findOneAsync (table : Table Entity Property Value)
    (propertyValuePairs : IReadOnlyDictionary Property (Option Value))
    (hkeys : propertyValuePairs.keys ≠ []) :
    Decides (agreeing table propertyValuePairs)
      (findOneAsync table (some propertyValuePairs)) := by
  simp only [findOneAsync, findAllAsync_eq hkeys]
  exact decides_take_two _

/-- For every table, every dictionary with at least one pair and every limit: `FindAllAsync` finds
entities that agree with every pair, none of them twice, all of them without a limit and otherwise as
many as there are up to the limit, and `FindOneAsync` decides as on the complete result. -/
theorem queries_by_pairs (table : Table Entity Property Value)
    (propertyValuePairs : IReadOnlyDictionary Property (Option Value))
    (hkeys : propertyValuePairs.keys ≠ []) :
    (∀ maxResults, ∃ found,
      findAllAsync table (some propertyValuePairs) maxResults = .ok found ∧
        (∀ entity ∈ found, entity ∈ table.rows ∧ Agrees table propertyValuePairs entity) ∧
        found.Nodup ∧
        (maxResults = none →
          ∀ entity ∈ table.rows, Agrees table propertyValuePairs entity → entity ∈ found) ∧
        ∀ limit, maxResults = some limit →
          found.length = min limit (table.rows.countP (Agrees table propertyValuePairs))) ∧
      ∃ complete, findAllAsync table (some propertyValuePairs) none = .ok complete ∧
        Decides complete (findOneAsync table (some propertyValuePairs)) := by
  refine ⟨findAllAsync_spec table propertyValuePairs hkeys, ?_⟩
  exact ⟨_, findAllAsync_eq hkeys none, decides_findOneAsync table propertyValuePairs hkeys⟩

/-- Three orders with their customers, the last two without one. -/
def orders : Table ℕ Unit ℕ where
  rows := [1, 2, 3]
  nodup_rows := by decide
  value order _ := if order = 1 then some 7 else none

/-- The pair of a property and null. -/
def withoutCustomer : IReadOnlyDictionary Unit (Option ℕ) where
  keys := [()]
  nodup_keys := by decide
  item _ := none

/-- Looking for the one order without a customer is decided on both of them. -/
theorem queries_by_pairs_withoutCustomer :
    ∃ complete, findAllAsync orders (some withoutCustomer) none = .ok complete ∧
      Decides complete (findOneAsync orders (some withoutCustomer)) :=
  (queries_by_pairs orders withoutCustomer (by decide)).2

end Query

end SharpArch.NHibernate.PropertyQueries
