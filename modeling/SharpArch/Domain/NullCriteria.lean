import SharpArch.Domain.SpecificationTrees

/-!
# Specifications without criteria

`MatchingCriteria` may be null. `SatisfyingElementsFrom` then selects every candidate, but And and Or
use the members of their first operand's criteria and invoke those of the second, so neither takes a
specification without criteria (`apply_first_null`, `apply_second_null`).

The leaves of the trees here are closed specifications and specifications without criteria. A tree in
which a leaf has no criteria cannot be built once it contains an And or Or, wherever the leaf
stands (`buildNullable_throws`).
-/

set_option autoImplicit false
set_option relaxedAutoImplicit false

namespace SharpArch.Domain.Specifications

open Foundation.BinderExpression

variable {Base : Type} {carrier : Base → Type} {Error : Type} {item : Ty Base}

/-! ### A node over a specification without criteria -/

namespace Junction

/-- The first operand has no criteria. -/
theorem apply_first_null (junction : Junction)
    (specification2 : QuerySpecification carrier Error item) (clock : ℕ) :
    (junction.apply (some (adHoc none)) (some specification2)).run clock =
      .error .nullReference := by
  cases junction <;> rfl

/-- Only the second operand has no criteria. -/
theorem apply_second_null (junction : Junction) (first : ℕ → Criteria carrier Error item)
    (clock : ℕ) :
    (junction.apply (some ⟨fun read ↦ some (first read)⟩) (some (adHoc none))).run clock =
      .error (.argumentNull "expression") := by
  cases junction <;> rfl

end Junction

namespace Tree

variable [DecidableEq Base]

/-! ### Trees with leaves that have no criteria -/

/-- The specification of a leaf, which has no criteria where the leaf is nothing. -/
def ofLeaf : Option (ClosedSpecification carrier Error item) →
    QuerySpecification carrier Error item
  | none => adHoc none
  | some leaf => ⟨fun read ↦ some (leaf.matchingCriteria read)⟩

/-- The tree built from the leaves up. -/
def buildNullable : Tree (Option (ClosedSpecification carrier Error item)) →
    Reading (QuerySpecification carrier Error item)
  | .specification leaf => pure (ofLeaf leaf)
  | .junction operator left right => do
    let specification1 ← left.buildNullable
    let specification2 ← right.buildNullable
    operator.apply (some specification1) (some specification2)

/-- The boolean combination of the leaves, those without criteria being true. -/
def holdsNullable : Tree (Option (ClosedSpecification carrier Error item)) →
    item.Denote carrier Error → Except (Fault Error) Bool
  | .specification none, _ => .ok true
  | .specification (some leaf), value => leaf.holds value
  | .junction operator left right, value =>
    operator.shortCircuit (left.holdsNullable value) (right.holdsNullable value)

/-- Some leaf has no criteria. -/
def HasNullLeaf {Leaf : Type} : Tree (Option Leaf) → Prop
  | .specification leaf => leaf = none
  | .junction _ left right => left.HasNullLeaf ∨ right.HasNullLeaf

/-- Building the tree throws nothing, and the specification built selects, from any candidates, those
that satisfy the combination. -/
def SelectsCombination (tree : Tree (Option (ClosedSpecification carrier Error item)))
    (start : ℕ) : Prop :=
  ∃ made finish, tree.buildNullable.run start = .ok (made, finish) ∧
    ∀ candidates read, ∃ later, (made.satisfyingElementsFrom (some candidates)).run read =
      .ok (select tree.holdsNullable candidates, later)

variable {tree : Tree (Option (ClosedSpecification carrier Error item))}

/-- Without such a leaf the tree is built as a tree of closed specifications. -/
theorem exists_buildNullable_eq (hleaf : ¬ tree.HasNullLeaf) :
    ∃ closed : Tree (ClosedSpecification carrier Error item),
      tree.buildNullable = closed.build := by
  induction tree with
  | specification leaf =>
    cases leaf with
    | none => exact absurd rfl hleaf
    | some leaf => exact ⟨.specification leaf, rfl⟩
  | junction operator left right ihleft ihright =>
    obtain ⟨hleft, hright⟩ := not_or.mp hleaf
    obtain ⟨first, hfirst⟩ := ihleft hleft
    obtain ⟨second, hsecond⟩ := ihright hright
    refine ⟨.junction operator first second, ?_⟩
    rw [buildNullable, hfirst, hsecond, build]

omit [DecidableEq Base] in
theorem run_bind_of_error {α β : Type} {reading : Reading α} {next : α → Reading β} {start : ℕ}
    {exception : Exception} (hrun : reading.run start = .error exception) :
    (reading >>= next).run start = .error exception := by
  rw [StateT.run_bind, hrun]
  rfl

/-! ### Nodes that cannot be built -/

section Nodes

variable {operator : Junction}
  {left right : Tree (Option (ClosedSpecification carrier Error item))} {start : ℕ}

/-- Building the tree throws, or makes a specification without criteria. -/
def Unusable (tree : Tree (Option (ClosedSpecification carrier Error item))) (start : ℕ) : Prop :=
  (∃ exception, tree.buildNullable.run start = .error exception) ∨
    ∃ later, tree.buildNullable.run start = .ok (adHoc none, later)

theorem throws_of_first (hleft : left.Unusable start) :
    ∃ exception, (junction operator left right).buildNullable.run start = .error exception := by
  rw [buildNullable]
  rcases hleft with ⟨exception, hthrows⟩ | ⟨later, hbuilt⟩
  · exact ⟨exception, run_bind_of_error hthrows⟩
  · rw [run_bind_of_ok hbuilt]
    rcases hright : right.buildNullable.run later with exception | ⟨specification2, finish⟩
    · exact ⟨exception, run_bind_of_error hright⟩
    · rw [run_bind_of_ok hright]
      exact ⟨_, operator.apply_first_null specification2 finish⟩

theorem throws_of_second (hleft : ¬ left.HasNullLeaf) (hright : ∀ start, right.Unusable start) :
    ∃ exception, (junction operator left right).buildNullable.run start = .error exception := by
  obtain ⟨closed, hclosed⟩ := exists_buildNullable_eq hleft
  rw [buildNullable, hclosed, run_bind_of_ok (build_run closed start)]
  rcases hright (start + closed.reads) with ⟨exception, hthrows⟩ | ⟨later, hbuilt⟩
  · exact ⟨exception, run_bind_of_error hthrows⟩
  · rw [run_bind_of_ok hbuilt]
    exact ⟨_, operator.apply_second_null (closed.criteria start) later⟩

/-- A tree with a leaf without criteria cannot be an operand. -/
theorem unusable_of_hasNullLeaf (hleaf : tree.HasNullLeaf) (start : ℕ) : tree.Unusable start := by
  induction tree generalizing start with
  | specification leaf =>
    obtain rfl : leaf = none := hleaf
    exact Or.inr ⟨start, rfl⟩
  | junction operator left right ihleft ihright =>
    refine Or.inl ?_
    by_cases hleft : left.HasNullLeaf
    · exact throws_of_first (ihleft hleft start)
    · exact throws_of_second hleft (ihright (hleaf.resolve_left hleft))

/-- An And or Or with a leaf without criteria below it cannot be built. -/
theorem buildNullable_throws (hleaf : (junction operator left right).HasNullLeaf) (start : ℕ) :
    ∃ exception, (junction operator left right).buildNullable.run start = .error exception := by
  by_cases hleft : left.HasNullLeaf
  · exact throws_of_first (unusable_of_hasNullLeaf hleft start)
  · exact throws_of_second hleft (unusable_of_hasNullLeaf (hleaf.resolve_left hleft))

end Nodes

/-! ### Which trees are right -/

/-- A specification without criteria, used alone, selects every candidate. -/
theorem selectsCombination_specification_none (start : ℕ) :
    (specification none : Tree (Option (ClosedSpecification carrier Error item))
      ).SelectsCombination start := by
  refine ⟨adHoc none, start, rfl, fun candidates read ↦ ⟨read + 1, ?_⟩⟩
  have hselect : select (specification none : Tree (Option (ClosedSpecification carrier Error item))
      ).holdsNullable candidates = ⟨candidates, none⟩ :=
    (select_ok (fun _ ↦ true) candidates).trans (by rw [List.filter_true])
  rw [hselect]
  rfl

/-- A tree in which a leaf has no criteria is built, and selects the candidates that satisfy the
combination in which such leaves are true, exactly when it is that leaf. -/
theorem selectsCombination_iff (tree : Tree (Option (ClosedSpecification carrier Error item)))
    (hleaf : tree.HasNullLeaf) (start : ℕ) :
    tree.SelectsCombination start ↔ ∃ leaf, tree = .specification leaf := by
  cases tree with
  | specification leaf =>
    obtain rfl : leaf = none := hleaf
    exact iff_of_true (selectsCombination_specification_none start) ⟨none, rfl⟩
  | junction operator left right =>
    refine iff_of_false ?_ nofun
    rintro ⟨made, finish, hbuilt, -⟩
    obtain ⟨exception, hthrows⟩ := buildNullable_throws hleaf start
    rw [hthrows] at hbuilt
    exact absurd hbuilt nofun

theorem selectsCombination_iff_alone :
    (specification none : Tree (Option (ClosedSpecification (fun _ : Unit ↦ ℕ) Empty (.base ())))
      ).SelectsCombination 0 :=
  (selectsCombination_iff (specification none) rfl 0).mpr ⟨none, rfl⟩

/-- No criteria or positive numbers: every candidate should be selected, but Or throws. -/
theorem null_or_positiveNumbers_throws :
    ¬ (junction .or (specification none) (specification (some positiveNumbers))
      ).SelectsCombination 0 := by
  rintro ⟨made, finish, hbuilt, -⟩
  exact absurd hbuilt nofun

end Tree

end SharpArch.Domain.Specifications
