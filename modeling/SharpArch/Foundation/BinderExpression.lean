import Mathlib.Data.List.Basic
import Mathlib.Logic.Function.Basic

/-!
# Expressions whose binders are objects

Typed expression trees in which a parameter is an object: a use refers to the nearest enclosing
lambda that binds the same object, so one object may be bound by several lambdas and rebound inside a
body. `Expression.eval` gives an expression its meaning in an environment, a closure being the
function it denotes; evaluating a parameter that nothing has bound is a fault. An operator or a method
is a constant of function type applied by `invoke`.

The meaning depends on the free parameters only (`eval_congr`), so a closed expression means the same
everywhere (`eval_eq_of_free_eq_nil`).
-/

set_option autoImplicit false
set_option relaxedAutoImplicit false

namespace SharpArch.Foundation.BinderExpression

variable {Base : Type}

/-- The types of expressions, over some base types. -/
inductive Ty (Base : Type)
  | boolean
  | base (name : Base)
  | function (domain codomain : Ty Base)
deriving DecidableEq

/-- How an evaluation fails. -/
inductive Fault (Error : Type)
  | undefinedParameter
  | thrown (error : Error)
deriving DecidableEq

/-- The values of a type. Calling a function may fail. -/
@[reducible] def Ty.Denote (carrier : Base → Type) (Error : Type) : Ty Base → Type
  | .boolean => Bool
  | .base name => carrier name
  | .function domain codomain =>
    domain.Denote carrier Error → Except (Fault Error) (codomain.Denote carrier Error)

/-- A parameter is an object of its type. -/
structure Parameter (Base : Type) where
  type : Ty Base
  object : ℕ
deriving DecidableEq

/-- Expression trees of a type. -/
inductive Expression (carrier : Base → Type) (Error : Type) : Ty Base → Type
  | constant {type : Ty Base} (value : type.Denote carrier Error) : Expression carrier Error type
  | parameter (type : Ty Base) (object : ℕ) : Expression carrier Error type
  | andAlso (left right : Expression carrier Error .boolean) : Expression carrier Error .boolean
  | orElse (left right : Expression carrier Error .boolean) : Expression carrier Error .boolean
  | condition {type : Ty Base} (test : Expression carrier Error .boolean)
      (ifTrue ifFalse : Expression carrier Error type) : Expression carrier Error type
  | lambda {codomain : Ty Base} (type : Ty Base) (object : ℕ)
      (body : Expression carrier Error codomain) :
      Expression carrier Error (.function type codomain)
  | invoke {domain codomain : Ty Base}
      (function : Expression carrier Error (.function domain codomain))
      (argument : Expression carrier Error domain) : Expression carrier Error codomain

variable {carrier : Base → Type} {Error : Type}

/-! ### Environments -/

/-- The values of the parameters in scope. -/
abbrev Env (carrier : Base → Type) (Error : Type) :=
  ∀ type : Ty Base, ℕ → Option (type.Denote carrier Error)

namespace Env

/-- Nothing is in scope. -/
def empty : Env carrier Error := fun _ _ ↦ none

variable [DecidableEq Base]

/-- A parameter is bound, hiding what the object was bound to before. -/
def bind (env : Env carrier Error) {type : Ty Base} (object : ℕ)
    (value : type.Denote carrier Error) : Env carrier Error :=
  Function.update env type (Function.update (env type) object (some value))

@[simp] theorem bind_self (env : Env carrier Error) {type : Ty Base} (object : ℕ)
    (value : type.Denote carrier Error) : env.bind object value type object = some value := by
  simp [bind]

theorem bind_of_ne (env : Env carrier Error) {type : Ty Base} (object : ℕ)
    (value : type.Denote carrier Error) {other : Parameter Base} (hne : other ≠ ⟨type, object⟩) :
    env.bind object value other.type other.object = env other.type other.object := by
  obtain ⟨otherType, otherObject⟩ := other
  by_cases htype : otherType = type
  · subst htype
    have hobject : otherObject ≠ object := fun hsame ↦ hne (by rw [hsame])
    simp only [bind, Function.update_self, Function.update_of_ne hobject]
  · simp only [bind, Function.update_of_ne htype]

end Env

namespace Expression

variable [DecidableEq Base]

/-! ### Free parameters and meaning -/

/-- The parameters used outside every lambda that binds them. -/
def free {type : Ty Base} : Expression carrier Error type → List (Parameter Base)
  | .constant _ => []
  | .parameter type object => [⟨type, object⟩]
  | .andAlso left right => left.free ++ right.free
  | .orElse left right => left.free ++ right.free
  | .condition test ifTrue ifFalse => test.free ++ (ifTrue.free ++ ifFalse.free)
  | .lambda type object body => body.free.filter (· ≠ ⟨type, object⟩)
  | .invoke function argument => function.free ++ argument.free

/-- The meaning of an expression, with left-to-right evaluation and short-circuiting. -/
def eval {type : Ty Base} :
    Expression carrier Error type → Env carrier Error →
      Except (Fault Error) (type.Denote carrier Error)
  | .constant value, _ => .ok value
  | .parameter type object, env =>
    match env type object with
    | some value => .ok value
    | none => .error .undefinedParameter
  | .andAlso left right, env =>
    match left.eval env with
    | .error fault => .error fault
    | .ok true => right.eval env
    | .ok false => .ok false
  | .orElse left right, env =>
    match left.eval env with
    | .error fault => .error fault
    | .ok true => .ok true
    | .ok false => right.eval env
  | .condition test ifTrue ifFalse, env =>
    match test.eval env with
    | .error fault => .error fault
    | .ok true => ifTrue.eval env
    | .ok false => ifFalse.eval env
  | .lambda _ object body, env => .ok fun value ↦ body.eval (env.bind object value)
  | .invoke function argument, env =>
    match function.eval env with
    | .error fault => .error fault
    | .ok called =>
      match argument.eval env with
      | .error fault => .error fault
      | .ok value => called value

/-- A lambda invoked is its body with the parameter bound to the argument's value. -/
theorem eval_invoke_lambda {domain codomain : Ty Base} (object : ℕ)
    (body : Expression carrier Error codomain) (argument : Expression carrier Error domain)
    (env : Env carrier Error) {value : domain.Denote carrier Error}
    (hargument : argument.eval env = .ok value) :
    ((Expression.lambda domain object body).invoke argument).eval env =
      body.eval (env.bind object value) := by
  simp only [eval, hargument]

/-! ### Only the free parameters matter -/

/-- Two environments give the listed parameters the same values. -/
def Agree (parameters : List (Parameter Base)) (first second : Env carrier Error) : Prop :=
  ∀ parameter ∈ parameters,
    first parameter.type parameter.object = second parameter.type parameter.object

omit [DecidableEq Base] in
theorem agree_append {left right : List (Parameter Base)} {first second : Env carrier Error} :
    Agree (left ++ right) first second ↔ Agree left first second ∧ Agree right first second := by
  simp only [Agree, List.forall_mem_append]

/-- Environments that agree on what is free in a lambda agree, once its parameter is bound, on what is
free in the body. -/
theorem agree_bind {parameters : List (Parameter Base)} {first second : Env carrier Error}
    {type : Ty Base} {object : ℕ} (value : type.Denote carrier Error)
    (hagree : Agree (parameters.filter (· ≠ ⟨type, object⟩)) first second) :
    Agree parameters (first.bind object value) (second.bind object value) := by
  intro parameter hmem
  by_cases hbound : parameter = ⟨type, object⟩
  · subst hbound
    rw [Env.bind_self, Env.bind_self]
  · rw [Env.bind_of_ne _ _ _ hbound, Env.bind_of_ne _ _ _ hbound]
    exact hagree parameter (List.mem_filter.mpr ⟨hmem, by simpa using hbound⟩)

/-- The meaning of an expression depends only on the values of its free parameters. -/
theorem eval_congr {type : Ty Base} (expression : Expression carrier Error type)
    {first second : Env carrier Error} (hagree : Agree expression.free first second) :
    expression.eval first = expression.eval second := by
  induction expression generalizing first second with
  | constant value => rfl
  | parameter type object => simp only [eval, hagree ⟨type, object⟩ (by simp [free])]
  | andAlso left right ihleft ihright =>
    obtain ⟨hleft, hright⟩ := agree_append.mp hagree
    simp only [eval, ihleft hleft, ihright hright]
  | orElse left right ihleft ihright =>
    obtain ⟨hleft, hright⟩ := agree_append.mp hagree
    simp only [eval, ihleft hleft, ihright hright]
  | condition test ifTrue ifFalse ihtest ihtrue ihfalse =>
    obtain ⟨htest, hbranches⟩ := agree_append.mp hagree
    obtain ⟨htrue, hfalse⟩ := agree_append.mp hbranches
    simp only [eval, ihtest htest, ihtrue htrue, ihfalse hfalse]
  | lambda type object body ih =>
    simp only [eval]
    congr 1
    funext value
    exact ih (agree_bind value hagree)
  | invoke function argument ihfunction ihargument =>
    obtain ⟨hfunction, hargument⟩ := agree_append.mp hagree
    simp only [eval, ihfunction hfunction, ihargument hargument]

/-- A closed expression means the same in every environment. -/
theorem eval_eq_of_free_eq_nil {type : Ty Base} {expression : Expression carrier Error type}
    (hclosed : expression.free = []) (first second : Env carrier Error) :
    expression.eval first = expression.eval second := by
  refine eval_congr expression fun parameter hmem ↦ ?_
  rw [hclosed] at hmem
  exact absurd hmem List.not_mem_nil

theorem mem_free_lambda {codomain type : Ty Base} {object : ℕ}
    {body : Expression carrier Error codomain} {parameter : Parameter Base} :
    parameter ∈ (Expression.lambda type object body).free ↔
      parameter ∈ body.free ∧ parameter ≠ ⟨type, object⟩ := by
  simp [free]

/-- A lambda is closed when nothing but its own parameter is free in the body. -/
theorem free_lambda_eq_nil {codomain type : Ty Base} {object : ℕ}
    {body : Expression carrier Error codomain} :
    (Expression.lambda type object body).free = [] ↔
      ∀ parameter ∈ body.free, parameter = ⟨type, object⟩ := by
  simp [free, List.filter_eq_nil_iff]

end Expression

end SharpArch.Foundation.BinderExpression
