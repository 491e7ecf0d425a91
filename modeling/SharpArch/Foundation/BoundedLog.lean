import Mathlib.Data.List.DropRight
import Mathlib.Tactic.Common

/-!
# Logs that keep the newest entries

A bounded log keeps a number of entries, oldest first. Whoever adds one when the log is full drops the
oldest (`add`). `dropped` is what an addition drops, so that it may be kept in another form.

After any additions the log holds the newest entries and the dropped ones are the others, in the order
in which they were added (`addAll_eq`).
-/

set_option autoImplicit false
set_option relaxedAutoImplicit false

namespace SharpArch.Foundation.BoundedLog

variable {Entry : Type*} {limit : ℕ}

/-- The log after an addition. -/
def add (limit : ℕ) (log : List Entry) (entry : Entry) : List Entry :=
  if (log ++ [entry]).length ≤ limit then log ++ [entry] else (log ++ [entry]).tail

/-- The entry an addition drops. -/
def dropped (limit : ℕ) (log : List Entry) (entry : Entry) : List Entry :=
  if (log ++ [entry]).length ≤ limit then [] else (log ++ [entry]).take 1

/-- The entries that additions to an empty log have dropped, and those in it, oldest first. -/
def addAll (limit : ℕ) (entries : List Entry) : List Entry × List Entry :=
  entries.foldl (fun state entry ↦
    (state.1 ++ dropped limit state.2 entry, add limit state.2 entry)) ([], [])

theorem addAll_concat (entries : List Entry) (entry : Entry) :
    addAll limit (entries ++ [entry]) =
      ((addAll limit entries).1 ++ dropped limit (addAll limit entries).2 entry,
        add limit (addAll limit entries).2 entry) :=
  List.foldl_concat _ _ _ _

/-- An addition loses nothing. -/
theorem dropped_append_add (limit : ℕ) (log : List Entry) (entry : Entry) :
    dropped limit log entry ++ add limit log entry = log ++ [entry] := by
  unfold dropped add
  split_ifs
  · rfl
  · cases log <;> rfl

theorem length_add (hlimit : 0 < limit) {log : List Entry} (hlog : log.length ≤ limit)
    (entry : Entry) : (add limit log entry).length = min limit (log.length + 1) := by
  unfold add
  split_ifs with hfits
  · rw [List.length_append, List.length_singleton] at hfits ⊢
    omega
  · rw [List.length_append, List.length_singleton] at hfits
    rw [List.length_tail, List.length_append, List.length_singleton]
    omega

/-- Additions drop the oldest entries and keep the newest. -/
theorem addAll_eq (hlimit : 0 < limit) (entries : List Entry) :
    addAll limit entries = (entries.rdrop limit, entries.rtake limit) := by
  have hsplit : (addAll limit entries).1 ++ (addAll limit entries).2 = entries ∧
      (addAll limit entries).2.length = min limit entries.length := by
    induction entries using List.reverseRecOn with
    | nil => exact ⟨rfl, (Nat.min_zero limit).symm⟩
    | append_singleton entries entry ih =>
      obtain ⟨happend, hlength⟩ := ih
      rw [addAll_concat, List.append_assoc, dropped_append_add, ← List.append_assoc, happend]
      refine ⟨rfl, ?_⟩
      rw [length_add hlimit (by omega), hlength, List.length_append, List.length_singleton]
      omega
  obtain ⟨happend, hlength⟩ := hsplit
  have hdropped : (addAll limit entries).1.length = entries.length - limit := by
    have hall := congrArg List.length happend
    rw [List.length_append] at hall
    omega
  refine Prod.ext ?_ ?_
  · rw [List.rdrop, ← hdropped]
    exact (List.take_left' rfl).symm.trans (congrArg _ happend)
  · rw [List.rtake, ← hdropped]
    exact (List.drop_left' rfl).symm.trans (congrArg _ happend)

end SharpArch.Foundation.BoundedLog
