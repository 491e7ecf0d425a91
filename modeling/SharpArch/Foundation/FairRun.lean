import Mathlib.Data.Nat.Init
import Mathlib.Tactic.Push
import SharpArch.Foundation.Run

/-!
# Runs under a fair schedule

A schedule says which call is made at every moment of an endless run. It is fair when every call comes
up again and again. `exists_final_of_isFair` is the rule for what must happen at last: if a call that
changes the state makes a measure smaller, and in every state that is not final some call changes the
state, then a fair schedule reaches a final state. A call that comes up while it can do nothing is
passed over, and it need not be the same call that can move from one moment to the next.
-/

set_option autoImplicit false
set_option relaxedAutoImplicit false

namespace SharpArch.Foundation.FairRun

open Run

variable {State Call : Type*}

/-- Every call comes up after every moment. -/
def IsFair (schedule : ℕ → Call) : Prop :=
  ∀ call moment, ∃ later, moment ≤ later ∧ schedule later = call

/-- The state a schedule has reached at a moment. -/
def stateAt (step : State → Call → State) (start : State) (schedule : ℕ → Call) : ℕ → State
  | 0 => start
  | moment + 1 => step (stateAt step start schedule moment) (schedule moment)

variable {step : State → Call → State} {start : State} {schedule : ℕ → Call}

/-- The state at a moment is the one the calls scheduled before it lead to. -/
theorem stateAt_eq_run (moment : ℕ) :
    stateAt step start schedule moment = run step start ((List.range moment).map schedule) := by
  induction moment with
  | zero => rfl
  | succ moment ih =>
    rw [stateAt, ih, List.range_succ, List.map_append, run_append]
    rfl

/-- As long as nothing has changed the state since a moment, it is the one of that moment. -/
theorem stateAt_add_of_forall {moment : ℕ}
    (hidle : ∀ later, moment ≤ later →
      stateAt step start schedule (later + 1) = stateAt step start schedule later) (count : ℕ) :
    stateAt step start schedule (moment + count) = stateAt step start schedule moment := by
  induction count with
  | zero => rfl
  | succ count ih => rw [← Nat.add_assoc, hidle _ (Nat.le_add_right _ _), ih]

/-- A call that changes the state at a moment is made sooner or later, or something else has changed
the state before. -/
theorem exists_change_of_isFair (hfair : IsFair schedule) {moment : ℕ} {call : Call}
    (hchanges : step (stateAt step start schedule moment) call ≠
      stateAt step start schedule moment) :
    ∃ later, moment ≤ later ∧
      stateAt step start schedule (later + 1) ≠ stateAt step start schedule later := by
  by_contra hnone
  push Not at hnone
  obtain ⟨later, hlater, hcall⟩ := hfair call moment
  have hsame : stateAt step start schedule later = stateAt step start schedule moment := by
    obtain ⟨count, rfl⟩ := Nat.exists_eq_add_of_le hlater
    exact stateAt_add_of_forall hnone count
  have hidle := hnone later hlater
  rw [stateAt, hcall, hsame] at hidle
  exact hchanges hidle

section Final

variable {measure : State → ℕ} {invariant final : State → Prop}

/-- The measure never grows. -/
theorem measure_stateAt_le
    (hdecreases : ∀ state call, step state call ≠ state → measure (step state call) < measure state)
    {moment later : ℕ} (hlater : moment ≤ later) :
    measure (stateAt step start schedule later) ≤ measure (stateAt step start schedule moment) := by
  induction later, hlater using Nat.le_induction with
  | base => exact Nat.le_refl _
  | succ later _ ih =>
    by_cases hsame : step (stateAt step start schedule later) (schedule later) =
        stateAt step start schedule later
    · rw [stateAt, hsame]
      exact ih
    · exact Nat.le_trans (Nat.le_of_lt (hdecreases _ _ hsame)) ih

/-- A fair schedule reaches a final state when every change makes the measure smaller and in every
state of the invariant that is not final some call changes the state. -/
theorem exists_final_of_isFair
    (hkeep : ∀ state call, invariant state → invariant (step state call))
    (hdecreases : ∀ state call, step state call ≠ state → measure (step state call) < measure state)
    (hmoves : ∀ state, invariant state → ¬ final state → ∃ call, step state call ≠ state)
    (hstart : invariant start) (hfair : IsFair schedule) :
    ∃ moment, final (stateAt step start schedule moment) := by
  have hinvariant : ∀ moment, invariant (stateAt step start schedule moment) := fun moment ↦ by
    rw [stateAt_eq_run]
    exact run_invariant hkeep hstart _
  -- induction on the measure: either the state is final or a later one is smaller
  suffices h : ∀ bound moment, measure (stateAt step start schedule moment) = bound →
      ∃ moment, final (stateAt step start schedule moment) from h _ 0 rfl
  intro bound
  induction bound using Nat.strong_induction_on with
  | _ bound ih =>
    intro moment hbound
    by_cases hfinal : final (stateAt step start schedule moment)
    · exact ⟨moment, hfinal⟩
    · obtain ⟨call, hcall⟩ := hmoves _ (hinvariant moment) hfinal
      obtain ⟨later, hlater, hchange⟩ := exists_change_of_isFair hfair hcall
      have hless : measure (stateAt step start schedule (later + 1)) < bound :=
        Nat.lt_of_lt_of_le (hdecreases _ _ hchange) (hbound ▸ measure_stateAt_le hdecreases hlater)
      exact ih _ hless (later + 1) rfl

end Final

end SharpArch.Foundation.FairRun
