import Mathlib.Data.List.Infix
import Mathlib.Tactic.Common

/-!
# Logs of committed batches

Several actors share a state that changes by whole batches only. The log names, oldest first, who has
committed which batch, and `stateAfter` is the state a log leads to. `Reads` says that states seen one
after the other are each the state after some part of the log, and that later ones have seen at least
as much: nobody has seen a batch half applied, and nobody has seen time run backwards.

A log only grows. What was seen before remains explained (`Reads.grow`), and whoever looks now sees the
state after the whole log (`Reads.read`).
-/

set_option autoImplicit false
set_option relaxedAutoImplicit false

namespace SharpArch.Foundation.CommitLog

variable {Actor Batch State : Type*}

/-- The state after the batches of a log, oldest first. -/
def stateAfter (apply : State → Batch → State) (initial : State) (log : List (Actor × Batch)) : State :=
  log.foldl (fun state entry ↦ apply state entry.2) initial

/-- States seen one after the other, each after some part of the log and none after less of it than the
one before. -/
def Reads (apply : State → Batch → State) (initial : State) (log : List (Actor × Batch))
    (seen : List State) : Prop :=
  ∃ parts : List (List (Actor × Batch)), parts.Pairwise (· <+: ·) ∧ (∀ part ∈ parts, part <+: log) ∧
    seen = parts.map (stateAfter apply initial)

variable {apply : State → Batch → State} {initial : State} {log : List (Actor × Batch)}

theorem stateAfter_concat (actor : Actor) (batch : Batch) :
    stateAfter apply initial (log ++ [(actor, batch)]) = apply (stateAfter apply initial log) batch :=
  List.foldl_concat _ _ _ _

theorem reads_nil : Reads apply initial log [] :=
  ⟨[], List.Pairwise.nil, fun _ h ↦ absurd h List.not_mem_nil, rfl⟩

variable {seen : List State}

/-- A longer log explains what was seen before. -/
theorem Reads.grow (hreads : Reads apply initial log seen) (more : List (Actor × Batch)) :
    Reads apply initial (log ++ more) seen := by
  obtain ⟨parts, hpairwise, hparts, hseen⟩ := hreads
  exact ⟨parts, hpairwise, fun part hpart ↦ (hparts part hpart).trans (List.prefix_append _ _), hseen⟩

/-- The state after the whole log can be seen next. -/
theorem Reads.read (hreads : Reads apply initial log seen) :
    Reads apply initial log (seen ++ [stateAfter apply initial log]) := by
  obtain ⟨parts, hpairwise, hparts, rfl⟩ := hreads
  refine ⟨parts ++ [log], ?_, ?_, by rw [List.map_append, List.map_singleton]⟩
  · refine List.pairwise_append.mpr ⟨hpairwise, List.pairwise_singleton _ _, fun part hpart last hlast ↦ ?_⟩
    obtain rfl := List.mem_singleton.mp hlast
    exact hparts part hpart
  · exact List.forall_mem_append.mpr ⟨hparts, List.forall_mem_singleton.mpr List.prefix_rfl⟩

end SharpArch.Foundation.CommitLog
