import SharpArch.Domain.Specifications

/-!
# Trees of And and Or

A leaf is a specification every read of which gives a closed lambda that means the same. Building a
tree over leaves never fails, and its criteria are given in closed form (`build_run`). What a
node makes is closed exactly when the reads of its first operand fit together and the operands
are closed (`closed_combined_iff`); it then means the boolean combination (`evaluate_combined`).

By induction on the tree (`build_correct_iff`) the whole combination is right exactly when the reads of
every leaf in first position agree. A getter that returns one stored lambda always agrees
(`readsAgree_of_stored`).
-/

set_option autoImplicit false
set_option relaxedAutoImplicit false

namespace SharpArch.Domain.Specifications

open Foundation.BinderExpression

variable {Base : Type} [DecidableEq Base] {carrier : Base → Type} {Error : Type} {item : Ty Base}

/-- A specification whose getter gives, at every read, a closed lambda with one meaning. -/
structure ClosedSpecification (carrier : Base → Type) (Error : Type) (item : Ty Base) where
  matchingCriteria : ℕ → Criteria carrier Error item
  holds : item.Denote carrier Error → Except (Fault Error) Bool
  closed : ∀ read, (matchingCriteria read).Closed
  evaluate_eq : ∀ read value, (matchingCriteria read).evaluate value = holds value

/-- Specifications combined by And and Or. -/
inductive Tree (Leaf : Type)
  | specification (leaf : Leaf)
  | junction (operator : Junction) (left right : Tree Leaf)

namespace Tree

/-- The getter reads made while a tree is built. -/
def reads {Leaf : Type} : Tree Leaf → ℕ
  | .specification _ => 0
  | .junction _ left right => left.reads + right.reads + 4

/-- The tree built from the leaves up. -/
def build : Tree (ClosedSpecification carrier Error item) →
    Reading (QuerySpecification carrier Error item)
  | .specification leaf => pure ⟨fun read ↦ some (leaf.matchingCriteria read)⟩
  | .junction operator left right => do
    let specification1 ← left.build
    let specification2 ← right.build
    operator.apply (some specification1) (some specification2)

/-- The boolean combination of the leaves. -/
def holds : Tree (ClosedSpecification carrier Error item) → item.Denote carrier Error →
    Except (Fault Error) Bool
  | .specification leaf, value => leaf.holds value
  | .junction operator left right, value =>
    operator.shortCircuit (left.holds value) (right.holds value)

/-! ### What building makes -/

/-- The lambda a node makes of the reads of its operands. -/
def combined (operator : Junction) (first second : ℕ → Criteria carrier Error item) (clock : ℕ) :
    Criteria carrier Error item where
  parameter := (first (clock + 3)).parameter
  body := operator.node (first (clock + 2)).body
    ((second clock).lambda.invoke (.parameter item (first (clock + 1)).parameter))

/-- The criteria of the tree whose building starts at a read. -/
def criteria : Tree (ClosedSpecification carrier Error item) → ℕ → ℕ → Criteria carrier Error item
  | .specification leaf, _ => leaf.matchingCriteria
  | .junction operator left right, start => fun _ ↦
    combined operator (left.criteria start) (right.criteria (start + left.reads))
      (start + left.reads + right.reads)

theorem run_bind_of_ok {α β : Type} {reading : Reading α} {next : α → Reading β} {start later : ℕ}
    {value : α} (hrun : reading.run start = .ok (value, later)) :
    (reading >>= next).run start = (next value).run later := by
  rw [StateT.run_bind, hrun]
  rfl

/-- Building a tree of specifications with criteria throws nothing. -/
theorem build_run (tree : Tree (ClosedSpecification carrier Error item))
    (start : ℕ) :
    tree.build.run start =
      .ok (⟨fun read ↦ some (tree.criteria start read)⟩, start + tree.reads) := by
  induction tree generalizing start with
  | specification leaf => rfl
  | junction operator left right ihleft ihright =>
    rw [build, run_bind_of_ok (ihleft start), run_bind_of_ok (ihright (start + left.reads)),
      Junction.apply_some]
    simp only [adHoc, criteria, combined, reads, Nat.add_assoc]

/-! ### One node -/

/-- The reads of a leaf in first position fit together: the parameter handed to the second criterion
is the one the new lambda binds, and so is the body's unless the body does not use it. -/
def AgreesAt (first : ℕ → Criteria carrier Error item) (clock : ℕ) : Prop :=
  (first (clock + 1)).parameter = (first (clock + 3)).parameter ∧
    ((first (clock + 2)).parameter = (first (clock + 3)).parameter ∨
      (first (clock + 2)).body.free = [])

theorem closed_iff {criteria : Criteria carrier Error item} :
    criteria.Closed ↔ ∀ parameter ∈ criteria.body.free, parameter = ⟨item, criteria.parameter⟩ :=
  Expression.free_lambda_eq_nil

theorem evaluate_of_closed {criteria : Criteria carrier Error item} (hclosed : criteria.Closed)
    (value : item.Denote carrier Error) :
    criteria.evaluate value = criteria.body.eval (Env.empty.bind criteria.parameter value) := by
  simp only [Criteria.evaluate, Criteria.compile, if_pos hclosed, Criteria.lambda, Expression.eval]

/-- The meaning of closed criteria is that of the body wherever the parameter is bound to the item. -/
theorem evaluate_eq_eval {criteria : Criteria carrier Error item} (hclosed : criteria.Closed)
    (value : item.Denote carrier Error) {env : Env carrier Error}
    (hbound : env item criteria.parameter = some value) :
    criteria.evaluate value = criteria.body.eval env := by
  rw [evaluate_of_closed hclosed]
  refine Expression.eval_congr _ fun parameter hmem ↦ ?_
  rw [closed_iff.mp hclosed parameter hmem, hbound, Env.bind_self]

variable {operator : Junction} {first second : ℕ → Criteria carrier Error item} {clock : ℕ}

theorem free_combined_body (hsecond : (second clock).Closed) :
    (combined operator first second clock).body.free =
      (first (clock + 2)).body.free ++ [⟨item, (first (clock + 1)).parameter⟩] := by
  rw [Criteria.Closed] at hsecond
  simp only [combined, Junction.free_node, Expression.free, hsecond, List.nil_append]

/-- With closed operands a node makes a closed lambda exactly when the reads of the first operand
agree. -/
theorem closed_combined_iff (hfirst : (first (clock + 2)).Closed) (hsecond : (second clock).Closed) :
    (combined operator first second clock).Closed ↔ AgreesAt first clock := by
  rw [closed_iff, free_combined_body hsecond]
  simp only [List.forall_mem_append, List.mem_singleton, forall_eq, combined,
    Parameter.mk.injEq, true_and]
  rw [and_comm]
  refine and_congr_right fun _ ↦ ⟨fun hbody ↦ ?_, fun hagree parameter hmem ↦ ?_⟩
  · rcases hfree : (first (clock + 2)).body.free with _ | ⟨parameter, rest⟩
    · exact .inr rfl
    · -- A free parameter of the body is both its own lambda's and the new lambda's.
      have hmem : parameter ∈ (first (clock + 2)).body.free := by simp [hfree]
      have hsame := (closed_iff.mp hfirst parameter hmem).symm.trans (hbody parameter hmem)
      exact .inl (congrArg Parameter.object hsame)
  · rcases hagree with hsame | hnil
    · rw [← hsame]
      exact closed_iff.mp hfirst parameter hmem
    · rw [hnil] at hmem
      exact absurd hmem List.not_mem_nil

/-- A closed lambda made of closed operands is their boolean combination. -/
theorem evaluate_combined (hfirst : (first (clock + 2)).Closed) (hsecond : (second clock).Closed)
    (hclosed : (combined operator first second clock).Closed) (value : item.Denote carrier Error) :
    (combined operator first second clock).evaluate value =
      operator.shortCircuit ((first (clock + 2)).evaluate value)
        ((second clock).evaluate value) := by
  obtain ⟨hargument, hbody⟩ := (closed_combined_iff hfirst hsecond).mp hclosed
  rw [evaluate_of_closed hclosed]
  have hleft : (first (clock + 2)).body.eval
      (Env.empty.bind (first (clock + 3)).parameter value) =
        (first (clock + 2)).evaluate value := by
    rcases hbody with hsame | hnil
    · rw [← hsame, evaluate_of_closed hfirst]
    · rw [evaluate_of_closed hfirst]
      exact Expression.eval_eq_of_free_eq_nil hnil _ _
  have hright : ((second clock).lambda.invoke (.parameter item (first (clock + 1)).parameter)).eval
      (Env.empty.bind (first (clock + 3)).parameter value) = (second clock).evaluate value := by
    have hvalue : (Expression.parameter item (first (clock + 1)).parameter).eval
        (Env.empty.bind (first (clock + 3)).parameter value) = .ok value := by
      simp only [Expression.eval, hargument, Env.bind_self]
    rw [Criteria.lambda, Expression.eval_invoke_lambda _ _ _ _ hvalue]
    exact (evaluate_eq_eval hsecond value (Env.bind_self _ _ _)).symm
  simp only [combined, Junction.eval_node, hleft, hright]

/-- What makes a closed lambda without capturing anything is closed itself. -/
theorem closed_operands (hclosed : (combined operator first second clock).Closed)
    (hfirst : (⟨item, (first (clock + 3)).parameter⟩ : Parameter Base) ∉
      (first (clock + 2)).lambda.free)
    (hsecond : (⟨item, (first (clock + 3)).parameter⟩ : Parameter Base) ∉
      (second clock).lambda.free) :
    (first (clock + 2)).Closed ∧ (second clock).Closed := by
  have hbody := closed_iff.mp hclosed
  simp only [combined, Junction.free_node, Expression.free, List.forall_mem_append] at hbody
  obtain ⟨hleft, hright, -⟩ := hbody
  constructor
  · refine List.eq_nil_iff_forall_not_mem.mpr fun parameter hmem ↦ hfirst ?_
    have hsame := hleft parameter (Expression.mem_free_lambda.mp hmem).1
    exact hsame ▸ hmem
  · exact List.eq_nil_iff_forall_not_mem.mpr fun parameter hmem ↦
      hsecond (hright parameter hmem ▸ hmem)

/-! ### Whole trees -/

/-- A parameter free in the criteria of an operand is bound by the criteria made of it. -/
def Captures (made operand : QuerySpecification carrier Error item) : Prop :=
  ∃ madeRead operandRead, ∃ binder ∈ made.matchingCriteria madeRead,
    ∃ criteria ∈ operand.matchingCriteria operandRead,
      (⟨item, binder.parameter⟩ : Parameter Base) ∈ criteria.lambda.free

/-- At no node of the tree is a parameter captured. -/
def CaptureFree : Tree (ClosedSpecification carrier Error item) → ℕ → Prop
  | .specification _, _ => True
  | .junction operator left right, start =>
    ∀ specification1 middle specification2 later made finish,
      left.build.run start = .ok (specification1, middle) →
      right.build.run middle = .ok (specification2, later) →
      (operator.apply (some specification1) (some specification2)).run later = .ok (made, finish) →
        left.CaptureFree start ∧ right.CaptureFree middle ∧
          ¬ Captures made specification1 ∧ ¬ Captures made specification2

/-- Building the tree gives a specification whose criteria are closed, with nothing captured on the
way, and mean the boolean combination of the leaves, and which selects the candidates that
satisfy it. -/
structure Correct (tree : Tree (ClosedSpecification carrier Error item)) (start : ℕ) : Prop where
  captureFree : tree.CaptureFree start
  built : ∃ made finish, tree.build.run start = .ok (made, finish) ∧
    (∀ read, ∃ criteria, made.matchingCriteria read = some criteria ∧ criteria.Closed ∧
      ∀ value, criteria.evaluate value = tree.holds value) ∧
    ∀ candidates read, ∃ later, (made.satisfyingElementsFrom (some candidates)).run read =
      .ok (select tree.holds candidates, later)

/-- As the first operand of a node: the reads of a leaf fit together. What And or Or has made keeps its
criteria in a field. -/
def OperandAgrees : Tree (ClosedSpecification carrier Error item) → ℕ → Prop
  | .specification leaf, clock => AgreesAt leaf.matchingCriteria clock
  | .junction .., _ => True

/-- The reads of every leaf in first position fit together. -/
def ReadsAgree : Tree (ClosedSpecification carrier Error item) → ℕ → Prop
  | .specification _, _ => True
  | .junction _ left right, start =>
    left.ReadsAgree start ∧ right.ReadsAgree (start + left.reads) ∧
      left.OperandAgrees (start + left.reads + right.reads)

variable {tree left right : Tree (ClosedSpecification carrier Error item)} {start : ℕ}

theorem agreesAt_criteria_iff (clock : ℕ) :
    AgreesAt (tree.criteria start) clock ↔ tree.OperandAgrees clock := by
  cases tree with
  | specification leaf => rfl
  | junction operator left right => simp [AgreesAt, criteria, OperandAgrees]

/-- One read tells whether the criteria are closed. -/
theorem closed_criteria_of_read {read : ℕ} (hclosed : (tree.criteria start read).Closed)
    (other : ℕ) : (tree.criteria start other).Closed := by
  cases tree with
  | specification leaf => exact leaf.closed other
  | junction operator left right => exact hclosed

theorem captureFree_junction :
    (Tree.junction operator left right).CaptureFree start ↔
      left.CaptureFree start ∧ right.CaptureFree (start + left.reads) ∧
        (∀ read, (⟨item, (left.criteria start (start + left.reads + right.reads + 3)).parameter⟩ :
          Parameter Base) ∉ (left.criteria start read).lambda.free) ∧
        ∀ read, (⟨item, (left.criteria start (start + left.reads + right.reads + 3)).parameter⟩ :
          Parameter Base) ∉ (right.criteria (start + left.reads) read).lambda.free := by
  have hcaptures (made : Criteria carrier Error item)
      (operand : ℕ → Criteria carrier Error item) :
      ¬ Captures (adHoc (some made)) ⟨fun read ↦ some (operand read)⟩ ↔
        ∀ read, (⟨item, made.parameter⟩ : Parameter Base) ∉ (operand read).lambda.free := by
    simp [Captures, adHoc]
  constructor
  · intro hfree
    have hnode := hfree _ _ _ _ _ _ (build_run left start) (build_run right _)
      (Junction.apply_some operator _)
    simpa only [hcaptures] using hnode
  · intro hfree specification1 middle specification2 later made finish hleft hright hmade
    rw [build_run] at hleft
    cases hleft
    rw [build_run] at hright
    cases hright
    rw [Junction.apply_some] at hmade
    cases hmade
    simpa only [hcaptures] using hfree

/-- The criteria are closed with nothing captured on the way exactly when the reads agree. -/
theorem closed_and_captureFree_iff :
    ((∀ read, (tree.criteria start read).Closed) ∧ tree.CaptureFree start) ↔
      tree.ReadsAgree start := by
  induction tree generalizing start with
  | specification leaf => exact iff_of_true ⟨leaf.closed, trivial⟩ trivial
  | junction operator left right ihleft ihright =>
    rw [captureFree_junction, ReadsAgree, ← ihleft, ← ihright, ← agreesAt_criteria_iff]
    constructor
    · rintro ⟨hclosed, hleftFree, hrightFree, hfirst, hsecond⟩
      have hnode := hclosed start
      obtain ⟨hleft, hright⟩ := closed_operands hnode (hfirst _) (hsecond _)
      exact ⟨⟨closed_criteria_of_read hleft, hleftFree⟩,
        ⟨closed_criteria_of_read hright, hrightFree⟩, (closed_combined_iff hleft hright).mp hnode⟩
    · rintro ⟨⟨hleft, hleftFree⟩, ⟨hright, hrightFree⟩, hagree⟩
      refine ⟨fun _ ↦ (closed_combined_iff (hleft _) (hright _)).mpr hagree, hleftFree, hrightFree,
        fun read hmem ↦ ?_, fun read hmem ↦ ?_⟩
      · rw [hleft read] at hmem
        exact absurd hmem List.not_mem_nil
      · rw [hright read] at hmem
        exact absurd hmem List.not_mem_nil

/-- Where the reads agree the criteria are closed. -/
theorem closed_criteria (hagree : tree.ReadsAgree start) (read : ℕ) :
    (tree.criteria start read).Closed :=
  (closed_and_captureFree_iff.mpr hagree).1 read

/-- Where the reads agree the criteria mean the boolean combination of the leaves. -/
theorem evaluate_criteria (hagree : tree.ReadsAgree start) (read : ℕ)
    (value : item.Denote carrier Error) :
    (tree.criteria start read).evaluate value = tree.holds value := by
  induction tree generalizing start read with
  | specification leaf => exact leaf.evaluate_eq read value
  | junction operator left right ihleft ihright =>
    have hclosed := closed_criteria hagree read
    obtain ⟨hleft, hright, -⟩ := hagree
    rw [holds, ← ihleft hleft (start + left.reads + right.reads + 2),
      ← ihright hright (start + left.reads + right.reads)]
    exact evaluate_combined (closed_criteria hleft _) (closed_criteria hright _) hclosed value

/-- Closed criteria can be compiled, to what they evaluate to. -/
theorem compile_of_closed {criteria : Criteria carrier Error item} (hclosed : criteria.Closed) :
    criteria.compile = .ok criteria.evaluate := by
  have hevaluate : criteria.evaluate =
      fun value ↦ criteria.body.eval (Env.empty.bind criteria.parameter value) :=
    funext (evaluate_of_closed hclosed)
  rw [hevaluate, Criteria.compile, if_pos hclosed]
  rfl

/-- A query filtered by closed criteria yields what they select. -/
theorem queryableWhere_run {criteria : Criteria carrier Error item} (hclosed : criteria.Closed)
    (candidates : List (item.Denote carrier Error)) (read : ℕ) :
    (QuerySpecification.queryableWhere candidates (some criteria)).run read =
      .ok (select criteria.evaluate candidates, read) := by
  rw [QuerySpecification.queryableWhere, compile_of_closed hclosed, ← filterQuery_eq_select]
  rfl

/-- Closed criteria select from any candidates those on which they evaluate to true. -/
theorem satisfyingElementsFrom_run {reading : ℕ → Criteria carrier Error item}
    (hclosed : ∀ read, (reading read).Closed) (candidates : List (item.Denote carrier Error))
    (read : ℕ) :
    (QuerySpecification.satisfyingElementsFrom ⟨fun read ↦ some (reading read)⟩
        (some candidates)).run read =
      .ok (select (reading (read + 1)).evaluate candidates, read + 2) :=
  queryableWhere_run (hclosed (read + 1)) candidates (read + 2)

/-- A tree of And and Or is the boolean combination of its leaves, closed and with nothing captured,
exactly when the reads of every leaf in first position fit together. -/
theorem build_correct_iff (tree : Tree (ClosedSpecification carrier Error item)) (start : ℕ) :
    tree.Correct start ↔ tree.ReadsAgree start := by
  constructor
  · rintro ⟨hfree, made, finish, hbuild, hmade, -⟩
    rw [build_run] at hbuild
    cases hbuild
    refine closed_and_captureFree_iff.mp ⟨fun read ↦ ?_, hfree⟩
    obtain ⟨criteria, hcriteria, hclosed, -⟩ := hmade read
    cases hcriteria
    exact hclosed
  · intro hagree
    refine ⟨(closed_and_captureFree_iff.mpr hagree).2, _, _, build_run tree start,
      fun read ↦ ⟨_, rfl, closed_criteria hagree read, evaluate_criteria hagree read⟩,
      fun candidates read ↦ ⟨read + 2, ?_⟩⟩
    rw [satisfyingElementsFrom_run (closed_criteria hagree)]
    have hholds : (tree.criteria start (read + 1)).evaluate = tree.holds :=
      funext (evaluate_criteria hagree _)
    rw [hholds]

/-! ### Stored and fresh lambdas -/

/-- A property of every leaf. -/
def Leaves {Leaf : Type} (property : Leaf → Prop) : Tree Leaf → Prop
  | .specification leaf => property leaf
  | .junction _ left right => left.Leaves property ∧ right.Leaves property

/-- Getters that return the lambda the specification stores always agree. -/
theorem readsAgree_of_stored
    (hstored : tree.Leaves fun leaf ↦
      ∀ read other, leaf.matchingCriteria read = leaf.matchingCriteria other) :
    tree.ReadsAgree start := by
  induction tree generalizing start with
  | specification leaf => trivial
  | junction operator left right ihleft ihright =>
    obtain ⟨hleft, hright⟩ := hstored
    refine ⟨ihleft hleft, ihright hright, ?_⟩
    cases left with
    | junction => trivial
    | specification leaf =>
      exact ⟨congrArg Criteria.parameter (hleft _ _), .inl (congrArg Criteria.parameter (hleft _ _))⟩

/-- A getter that makes its lambda anew, with a parameter of its own, at each read never agrees. -/
theorem not_agreesAt_of_fresh {reading : ℕ → Criteria carrier Error item}
    (hfresh : ∀ read other, (reading read).parameter = (reading other).parameter → read = other)
    (clock : ℕ) : ¬ AgreesAt reading clock := by
  rintro ⟨hparameter, -⟩
  exact absurd (hfresh _ _ hparameter) (by omega)

/-- The specification `MatchingCriteria => n => n > 0` over numbers: each read makes the lambda anew. -/
def positiveNumbers : ClosedSpecification (fun _ : Unit ↦ ℕ) Empty (.base ()) where
  matchingCriteria read :=
    { parameter := read
      body := .invoke (.constant fun number : ℕ ↦ .ok (decide (0 < number)))
        (.parameter (.base ()) read) }
  holds number := .ok (decide (0 < number))
  closed _ := by simp [Criteria.Closed, Criteria.lambda, Expression.free]
  evaluate_eq read number := by
    simp [Criteria.evaluate, Criteria.compile, Criteria.Closed, Criteria.lambda, Expression.free,
      Expression.eval]

/-- Combined with itself it leaves parameters free. -/
theorem positiveNumbers_and_not_correct :
    ¬ (Tree.junction .and (.specification positiveNumbers)
      (.specification positiveNumbers)).Correct 0 := by
  rintro ⟨-, made, finish, hbuild, hmade, -⟩
  rw [build_run] at hbuild
  cases hbuild
  obtain ⟨criteria, hcriteria, hclosed, -⟩ := hmade 0
  cases hcriteria
  exact absurd hclosed (by decide)

end Tree

end SharpArch.Domain.Specifications
