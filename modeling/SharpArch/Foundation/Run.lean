import Mathlib.Data.List.Basic

/-!
# Runs of a step function

A component that answers calls one after the other is a step function from a state and a call to
the next state, and its history is a list of calls, oldest first. `run` is the state after such a
history. `EveryCall` says that a property of a call and of the state the call is made in holds all
along a history, and `EveryState` that a property holds of every state a history passes through,
the first included.

The rules are the ones a safety argument needs. `run_invariant` carries an invariant over a run
from what one step does to it, `run_stable` a property that may begin to hold later,
`run_invariant_of_everyCall` does so when only allowed calls are made, and
`everyCall_iff_of_invariant` turns a description of one step, correct exactly when the call is
allowed, into the same description of a whole history: as long as only allowed calls are made the
invariant stays, and the first call that is not allowed is the first incorrect one.
-/

set_option autoImplicit false
set_option relaxedAutoImplicit false

namespace SharpArch.Foundation.Run

variable {State Call : Type*}

/-- The state after a list of calls, oldest first. -/
def run (step : State → Call → State) (start : State) (calls : List Call) : State :=
  calls.foldl step start

/-- A property of a call and of the state it is made in holds of every call of a history. -/
def EveryCall (step : State → Call → State) (property : State → Call → Prop) :
    State → List Call → Prop
  | _, [] => True
  | state, call :: rest =>
    property state call ∧ EveryCall step property (step state call) rest

/-- A property holds of every state a history passes through, the first and the last included. -/
def EveryState (step : State → Call → State) (property : State → Prop) (start : State)
    (calls : List Call) : Prop :=
  ∀ earlier later, calls = earlier ++ later → property (run step start earlier)

variable {step : State → Call → State} {start : State}

@[simp] theorem run_nil : run step start [] = start := rfl

@[simp] theorem run_cons (call : Call) (rest : List Call) :
    run step start (call :: rest) = run step (step start call) rest := rfl

theorem run_append (first second : List Call) :
    run step start (first ++ second) = run step (run step start first) second :=
  List.foldl_append

theorem everyCall_cons {property : State → Call → Prop} (call : Call) (rest : List Call) :
    EveryCall step property start (call :: rest) ↔
      property start call ∧ EveryCall step property (step start call) rest := Iff.rfl

theorem everyCall_append {property : State → Call → Prop} (first second : List Call) :
    ∀ start, EveryCall step property start (first ++ second) ↔
      EveryCall step property start first ∧
        EveryCall step property (run step start first) second := by
  induction first with
  | nil => intro start; simp [EveryCall]
  | cons call rest ih =>
    intro start
    simp only [List.cons_append, everyCall_cons, run_cons, ih, and_assoc]

/-- A property that does not look at the state holds along a history when it holds of each call. -/
theorem everyCall_forall {property : Call → Prop} (calls : List Call) :
    ∀ start, EveryCall step (fun _ call ↦ property call) start calls ↔
      ∀ call ∈ calls, property call := by
  induction calls with
  | nil => intro start; simp [EveryCall]
  | cons call rest ih =>
    intro start
    rw [everyCall_cons, ih, List.forall_mem_cons]

/-- A property of every call of a history holds of each of its calls, in the state that the calls
before it lead to. -/
theorem everyCall_iff_split {property : State → Call → Prop} (calls : List Call) :
    EveryCall step property start calls ↔
      ∀ earlier call later, calls = earlier ++ call :: later →
        property (run step start earlier) call := by
  induction calls generalizing start with
  | nil => simp [EveryCall]
  | cons call rest ih =>
    rw [everyCall_cons, ih]
    constructor
    · rintro ⟨hcall, hrest⟩ earlier other later hsplit
      cases earlier with
      | nil =>
        obtain ⟨rfl, -⟩ := List.cons.inj hsplit
        exact hcall
      | cons head tail =>
        obtain ⟨rfl, htail⟩ := List.cons.inj hsplit
        exact hrest tail other later htail
    · intro hall
      refine ⟨hall [] call rest rfl, fun earlier other later hsplit ↦ ?_⟩
      exact hall (call :: earlier) other later (by rw [hsplit]; rfl)

theorem everyState_nil {property : State → Prop} :
    EveryState step property start [] ↔ property start := by
  constructor
  · intro hall
    exact hall [] [] rfl
  · intro hstart earlier later hsplit
    obtain ⟨rfl, -⟩ := List.append_eq_nil_iff.mp hsplit.symm
    exact hstart

theorem everyState_cons {property : State → Prop} (call : Call) (rest : List Call) :
    EveryState step property start (call :: rest) ↔
      property start ∧ EveryState step property (step start call) rest := by
  constructor
  · intro hall
    refine ⟨hall [] _ rfl, fun earlier later hsplit ↦ ?_⟩
    exact hall (call :: earlier) later (by rw [hsplit]; rfl)
  · rintro ⟨hstart, hrest⟩ earlier later hsplit
    cases earlier with
    | nil => exact hstart
    | cons head tail =>
      obtain ⟨rfl, htail⟩ := List.cons.inj hsplit
      exact hrest tail later htail

/-- Every state of a history has a property exactly when the first state has it and every call
leads to a state that has it. -/
theorem everyState_iff_everyCall {property : State → Prop} (calls : List Call) :
    EveryState step property start calls ↔
      property start ∧ EveryCall step (fun state call ↦ property (step state call)) start calls := by
  induction calls generalizing start with
  | nil => simp [everyState_nil, EveryCall]
  | cons call rest ih => rw [everyState_cons, ih, everyCall_cons]

/-- An invariant that every call keeps holds after every history. -/
theorem run_invariant {invariant : State → Prop}
    (hkeep : ∀ state call, invariant state → invariant (step state call))
    (hstart : invariant start) (calls : List Call) : invariant (run step start calls) := by
  induction calls generalizing start with
  | nil => exact hstart
  | cons call rest ih => exact ih (hkeep start call hstart)

/-- A property that calls keep in the states of an invariant holds after every history once it holds. -/
theorem run_stable {invariant property : State → Prop}
    (hkeep : ∀ state call, invariant state → invariant (step state call))
    (hstable : ∀ state call, invariant state → property state → property (step state call))
    (hstart : invariant start) (hproperty : property start) (calls : List Call) :
    property (run step start calls) := by
  induction calls generalizing start with
  | nil => exact hproperty
  | cons call rest ih => exact ih (hkeep start call hstart) (hstable start call hstart hproperty)

/-- An invariant that every allowed call keeps holds after every history of allowed calls. -/
theorem run_invariant_of_everyCall {invariant : State → Prop} {allowed : State → Call → Prop}
    (hkeep : ∀ state call, invariant state → allowed state call → invariant (step state call))
    (hstart : invariant start) (calls : List Call) (hcalls : EveryCall step allowed start calls) :
    invariant (run step start calls) := by
  induction calls generalizing start with
  | nil => exact hstart
  | cons call rest ih => exact ih (hkeep start call hstart hcalls.1) hcalls.2

/-- If in the states of an invariant a call is correct exactly when it is allowed, and allowed
calls keep the invariant, then a whole history is correct exactly when all its calls are
allowed. -/
theorem everyCall_iff_of_invariant {invariant : State → Prop} {correct allowed : State → Call → Prop}
    (hkeep : ∀ state call, invariant state → allowed state call → invariant (step state call))
    (hiff : ∀ state call, invariant state → (correct state call ↔ allowed state call))
    (hstart : invariant start) (calls : List Call) :
    EveryCall step correct start calls ↔ EveryCall step allowed start calls := by
  induction calls generalizing start with
  | nil => exact Iff.rfl
  | cons call rest ih =>
    rw [everyCall_cons, everyCall_cons, hiff start call hstart]
    constructor
    · rintro ⟨hcall, hrest⟩
      exact ⟨hcall, (ih (hkeep start call hstart hcall)).mp hrest⟩
    · rintro ⟨hcall, hrest⟩
      exact ⟨hcall, (ih (hkeep start call hstart hcall)).mpr hrest⟩

end SharpArch.Foundation.Run
