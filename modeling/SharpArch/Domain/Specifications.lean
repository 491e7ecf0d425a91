import SharpArch.Foundation.BinderExpression
import Mathlib.Tactic.Common

/-!
# Query specifications combined by And and Or

`MatchingCriteria` is an abstract getter, so a specification gives a criterion at each read of it and
need not give the same lambda twice: a getter written as `=> x => ...` makes a new lambda, with a new
parameter object, every time. The clock counts the reads. And and Or read the getter of their second
operand once and that of their first operand three times: for the parameter handed to the invoked
second criterion, for the body, and for the parameter of the lambda made.

`build_correct_iff` says for which trees the lambda made is the boolean combination of the leaves.
-/

set_option autoImplicit false
set_option relaxedAutoImplicit false

namespace SharpArch.Domain.Specifications

open Foundation.BinderExpression

variable {Base : Type} {carrier : Base → Type} {Error : Type} {item : Ty Base}

/-- What the operations on specifications throw. -/
inductive Exception
  | nullReference
  | argumentNull (parameterName : String)
deriving DecidableEq

/-! ### Criteria -/

/-- A lambda from an item to a boolean, its parameter being an object of the item type. -/
structure Criteria (carrier : Base → Type) (Error : Type) (item : Ty Base) where
  parameter : ℕ
  body : Expression carrier Error .boolean

namespace Criteria

/-- The criteria as an expression. -/
def lambda (criteria : Criteria carrier Error item) :
    Expression carrier Error (.function item .boolean) :=
  .lambda item criteria.parameter criteria.body

variable [DecidableEq Base]

/-- Nothing is free in the criteria. -/
def Closed (criteria : Criteria carrier Error item) : Prop := criteria.lambda.free = []

instance (criteria : Criteria carrier Error item) : Decidable criteria.Closed :=
  inferInstanceAs (Decidable (_ = []))

/-- Compilation refuses a lambda in which a parameter is left free. -/
def compile (criteria : Criteria carrier Error item) :
    Except (Fault Error) (item.Denote carrier Error → Except (Fault Error) Bool) :=
  if criteria.Closed then criteria.lambda.eval Env.empty else .error .undefinedParameter

/-- The criteria compiled and called with an item. -/
def evaluate (criteria : Criteria carrier Error item) (value : item.Denote carrier Error) :
    Except (Fault Error) Bool :=
  match criteria.compile with
  | .error fault => .error fault
  | .ok predicate => predicate value

end Criteria

/-! ### Filtered queries -/

/-- What enumerating a query yields, and the fault that ends it early. -/
structure Enumeration (Item Error : Type) where
  yielded : List Item
  fault : Option (Fault Error)

/-- The enumeration of a filtered query: each candidate is tested when it is reached. -/
def filterQuery {Item : Type} (predicate : Item → Except (Fault Error) Bool) :
    List Item → Enumeration Item Error
  | [] => ⟨[], none⟩
  | candidate :: rest =>
    match predicate candidate with
    | .error fault => ⟨[], some fault⟩
    | .ok true =>
      ⟨candidate :: (filterQuery predicate rest).yielded, (filterQuery predicate rest).fault⟩
    | .ok false => filterQuery predicate rest

/-- The fault of a test. -/
def raised : Except (Fault Error) Bool → Option (Fault Error)
  | .error fault => some fault
  | .ok _ => none

/-- A test that came out true. -/
def satisfied : Except (Fault Error) Bool → Bool
  | .error _ => false
  | .ok holds => holds

/-- The candidates that satisfy a predicate, in order and as often as they occur, up to the first one
on which the predicate fails. -/
def select {Item : Type} (predicate : Item → Except (Fault Error) Bool) (candidates : List Item) :
    Enumeration Item Error where
  yielded := (candidates.takeWhile fun candidate ↦ (raised (predicate candidate)).isNone).filter
    fun candidate ↦ satisfied (predicate candidate)
  fault := candidates.findSome? fun candidate ↦ raised (predicate candidate)

theorem filterQuery_eq_select {Item : Type} (predicate : Item → Except (Fault Error) Bool)
    (candidates : List Item) : filterQuery predicate candidates = select predicate candidates := by
  induction candidates with
  | nil => rfl
  | cons candidate rest ih =>
    rcases htest : predicate candidate with fault | holds
    · simp [filterQuery, select, htest, raised]
    · cases holds <;> simp [filterQuery, htest, ih, select, raised, satisfied]

/-- A predicate that never fails selects the candidates on which it is true. -/
theorem select_ok {Item : Type} (holds : Item → Bool) (candidates : List Item) :
    select (fun candidate ↦ (.ok (holds candidate) : Except (Fault Error) Bool)) candidates =
      ⟨candidates.filter holds, none⟩ := by
  rw [← filterQuery_eq_select]
  induction candidates with
  | nil => rfl
  | cons candidate rest ih => cases hholds : holds candidate <;> simp [filterQuery, hholds, ih]

/-! ### Specifications -/

/-- A specification answers each read of its getter, numbered by the clock. -/
structure QuerySpecification (carrier : Base → Type) (Error : Type) (item : Ty Base) where
  matchingCriteria : ℕ → Option (Criteria carrier Error item)

/-- A computation that may read getters and throw. -/
abbrev Reading := StateT ℕ (Except Exception)

namespace QuerySpecification

/-- One read of the getter. -/
def getMatchingCriteria (specification : QuerySpecification carrier Error item) :
    Reading (Option (Criteria carrier Error item)) :=
  fun clock ↦ .ok (specification.matchingCriteria clock, clock + 1)

/-- A member of a reference is used. -/
def dereference {α : Type} : Option α → Reading α
  | none => throw .nullReference
  | some value => pure value

/-- `Queryable.Where`. The predicate is compiled when the query is enumerated. -/
def queryableWhere [DecidableEq Base] (candidates : List (item.Denote carrier Error)) :
    Option (Criteria carrier Error item) →
      Reading (Enumeration (item.Denote carrier Error) Error)
  | none => throw (.argumentNull "predicate")
  | some criteria =>
    match criteria.compile with
    | .error fault => pure ⟨[], some fault⟩
    | .ok predicate => pure (filterQuery predicate candidates)

def satisfyingElementsFrom [DecidableEq Base] (specification : QuerySpecification carrier Error item) :
    Option (List (item.Denote carrier Error)) →
      Reading (Enumeration (item.Denote carrier Error) Error)
  | none => throw (.argumentNull "candidates")
  | some candidates => do
    match ← specification.getMatchingCriteria with
    | some _ => queryableWhere candidates (← specification.getMatchingCriteria)
    | none => pure ⟨candidates, none⟩

end QuerySpecification

open QuerySpecification

/-- The getter returns the expression it was made with. -/
def adHoc (expression : Option (Criteria carrier Error item)) :
    QuerySpecification carrier Error item :=
  ⟨fun _ ↦ expression⟩

namespace QuerySpecificationExtensions

/-- `Expression.Invoke` of a lambda on a parameter. -/
def expressionInvoke (parameter : ℕ) :
    Option (Criteria carrier Error item) → Reading (Expression carrier Error .boolean)
  | none => throw (.argumentNull "expression")
  | some invoked => pure (invoked.lambda.invoke (.parameter item parameter))

/-- What And and Or have in common. -/
def join (node : Expression carrier Error .boolean → Expression carrier Error .boolean →
      Expression carrier Error .boolean)
    (specification1 specification2 : Option (QuerySpecification carrier Error item)) :
    Reading (QuerySpecification carrier Error item) := do
  let invoked ← (← dereference specification2).getMatchingCriteria
  let argument ← dereference (← (← dereference specification1).getMatchingCriteria)
  let invokedExpr ← expressionInvoke argument.parameter invoked
  let left ← dereference (← (← dereference specification1).getMatchingCriteria)
  let binder ← dereference (← (← dereference specification1).getMatchingCriteria)
  pure (adHoc (some ⟨binder.parameter, node left.body invokedExpr⟩))

def and (specification1 specification2 : Option (QuerySpecification carrier Error item)) :
    Reading (QuerySpecification carrier Error item) := do
  if specification1.isNone then throw (.argumentNull "specification1")
  if specification2.isNone then throw (.argumentNull "specification2")
  join .andAlso specification1 specification2

-- `Or` has no null checks of its own.
def or (specification1 specification2 : Option (QuerySpecification carrier Error item)) :
    Reading (QuerySpecification carrier Error item) :=
  join .orElse specification1 specification2

end QuerySpecificationExtensions

/-! ### Trees of specifications -/

/-- A combining operation. -/
inductive Junction
  | and
  | or
deriving DecidableEq

namespace Junction

/-- The operation on specifications. -/
def apply : Junction → Option (QuerySpecification carrier Error item) →
    Option (QuerySpecification carrier Error item) →
      Reading (QuerySpecification carrier Error item)
  | .and => QuerySpecificationExtensions.and
  | .or => QuerySpecificationExtensions.or

/-- The node it makes. -/
def node : Junction → Expression carrier Error .boolean → Expression carrier Error .boolean →
    Expression carrier Error .boolean
  | .and => .andAlso
  | .or => .orElse

/-- The boolean operation: the second operand counts only when the first leaves it open. -/
def shortCircuit (junction : Junction) (left right : Except (Fault Error) Bool) :
    Except (Fault Error) Bool :=
  match junction, left with
  | _, .error fault => .error fault
  | .and, .ok true => right
  | .and, .ok false => .ok false
  | .or, .ok true => .ok true
  | .or, .ok false => right

@[simp] theorem free_node [DecidableEq Base] (junction : Junction)
    (left right : Expression carrier Error .boolean) :
    (junction.node left right).free = left.free ++ right.free := by
  cases junction <;> rfl

@[simp] theorem eval_node [DecidableEq Base] (junction : Junction)
    (left right : Expression carrier Error .boolean) (env : Env carrier Error) :
    (junction.node left right).eval env =
      junction.shortCircuit (left.eval env) (right.eval env) := by
  cases junction <;> rcases hleft : left.eval env with fault | _ | _ <;>
    simp [node, shortCircuit, Expression.eval, hleft]

theorem apply_some (junction : Junction) {first second : ℕ → Criteria carrier Error item}
    (clock : ℕ) :
    (junction.apply (some ⟨fun read ↦ some (first read)⟩)
        (some ⟨fun read ↦ some (second read)⟩)).run clock =
      .ok (adHoc (some ⟨(first (clock + 3)).parameter,
        junction.node (first (clock + 2)).body
          ((second clock).lambda.invoke (.parameter item (first (clock + 1)).parameter))⟩),
        clock + 4) := by
  cases junction <;> rfl

end Junction

end SharpArch.Domain.Specifications
