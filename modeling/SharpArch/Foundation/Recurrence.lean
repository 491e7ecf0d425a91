import Mathlib.Data.List.Basic
import Mathlib.Order.Lattice
import Mathlib.Tactic.Common

/-!
# Things that recur

Something is due at a time, and when it has been served it is due again at the next time, if there is
one. Whoever serves it looks at a clock from time to time and serves it once if it is due; the clock may
be wrong. `served` are the due times that were served and what the clock said.

What is served are the first due times, in order (`after_of_getElem?`), none of them before it was due
(`le_of_mem_served`) and, if due times increase, none twice (`pairwise_served`). Nothing is lost: when the
clock has shown a due time or a later one often enough for it and all due times before it, they have all
been served (`lt_length_served`).
-/

set_option autoImplicit false
set_option relaxedAutoImplicit false

namespace SharpArch.Foundation.Recurrence

variable {Time : Type*}

/-- The time it is due after it has been served a number of times. -/
def after (next : Time → Option Time) : ℕ → Time → Option Time
  | 0, due => some due
  | count + 1, due => (after next count due).bind next

/-- The due times that are served, with the clock, when it is looked at. -/
def served [LE Time] [DecidableLE Time] (next : Time → Option Time) :
    Time → List Time → List (Time × Time)
  | _, [] => []
  | due, now :: rest =>
    if due ≤ now then (due, now) :: ((next due).elim [] fun following ↦ served next following rest)
    else served next due rest

variable {next : Time → Option Time} {due last : Time} {count : ℕ}

theorem after_succ : after next (count + 1) due = (next due).bind (after next count) := by
  induction count with
  | zero =>
    rw [after, after, Option.bind_some]
    cases next due <;> rfl
  | succ count ih =>
    rw [after, ih, Option.bind_assoc]
    rfl

section Ordered

variable [LinearOrder Time]

/-- Due times increase. -/
def Increases (next : Time → Option Time) : Prop :=
  ∀ due following, next due = some following → due < following

theorem le_of_after (hincreases : Increases next) (hlast : after next count due = some last) :
    due ≤ last := by
  induction count generalizing last with
  | zero => exact (Option.some.inj hlast).le
  | succ count ih =>
    obtain ⟨middle, hmiddle, hnext⟩ := Option.bind_eq_some_iff.mp hlast
    exact (ih hmiddle).trans (hincreases middle last hnext).le

variable {nows : List Time}

/-- Nothing is served before it is due. -/
theorem le_of_mem_served {serving : Time × Time} (hserving : serving ∈ served next due nows) :
    serving.1 ≤ serving.2 := by
  induction nows generalizing due with
  | nil => exact absurd hserving List.not_mem_nil
  | cons now rest ih =>
    rw [served] at hserving
    split_ifs at hserving with hdue
    · rcases List.mem_cons.mp hserving with rfl | hlater
      · exact hdue
      · cases hnext : next due with
        | none =>
          rw [hnext] at hlater
          exact absurd hlater List.not_mem_nil
        | some following =>
          rw [hnext] at hlater
          exact ih hlater
    · exact ih hserving

/-- The due times that are served are the first ones, in order. -/
theorem after_of_getElem? {index : ℕ} {serving : Time × Time}
    (hserving : (served next due nows)[index]? = some serving) :
    after next index due = some serving.1 := by
  induction nows generalizing due index with
  | nil => simp [served] at hserving
  | cons now rest ih =>
    rw [served] at hserving
    split_ifs at hserving with hdue
    · cases index with
      | zero =>
        obtain rfl := Option.some.inj hserving
        rfl
      | succ index =>
        rw [List.getElem?_cons_succ] at hserving
        cases hnext : next due with
        | none =>
          simp [hnext] at hserving
        | some following =>
          rw [hnext] at hserving
          rw [after_succ, hnext]
          exact ih hserving
    · exact ih hserving

theorem le_fst_of_mem_served (hincreases : Increases next) {serving : Time × Time}
    (hserving : serving ∈ served next due nows) : due ≤ serving.1 := by
  obtain ⟨index, hindex⟩ := List.mem_iff_getElem?.mp hserving
  exact le_of_after hincreases (after_of_getElem? hindex)

/-- No due time is served twice. -/
theorem pairwise_served (hincreases : Increases next) :
    (served next due nows).Pairwise fun earlier later ↦ earlier.1 < later.1 := by
  induction nows generalizing due with
  | nil => exact List.Pairwise.nil
  | cons now rest ih =>
    rw [served]
    split_ifs
    · cases hnext : next due with
      | none => exact List.pairwise_singleton _ _
      | some following =>
        refine List.pairwise_cons.mpr ⟨fun later hlater ↦ ?_, ih⟩
        exact (hincreases due following hnext).trans_le (le_fst_of_mem_served hincreases hlater)
    · exact ih

/-- When the clock has shown a due time or a later one more often than there are due times before it, it
has been served. -/
theorem lt_length_served (hincreases : Increases next) (hlast : after next count due = some last)
    (hnows : count < nows.countP (last ≤ ·)) : count < (served next due nows).length := by
  induction nows generalizing due count with
  | nil => exact absurd hnows (Nat.not_lt_zero _)
  | cons now rest ih =>
    rw [served]
    split_ifs with hdue
    · cases count with
      | zero => exact Nat.succ_pos _
      | succ count =>
        rw [after_succ] at hlast
        obtain ⟨following, hnext, hafter⟩ := Option.bind_eq_some_iff.mp hlast
        have hfewer : rest.countP (last ≤ ·) + 1 ≥ (now :: rest).countP (last ≤ ·) := by
          rw [List.countP_cons]
          split_ifs <;> omega
        simp only [hnext, Option.elim_some, List.length_cons]
        exact Nat.succ_lt_succ (ih hafter (by omega))
    · have hlater : ¬ last ≤ now := fun hle ↦ hdue ((le_of_after hincreases hlast).trans hle)
      rw [List.countP_cons_of_neg (by simpa using hlater)] at hnows
      exact ih hlast hnows

end Ordered

end SharpArch.Foundation.Recurrence
