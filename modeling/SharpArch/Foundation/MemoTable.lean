import Mathlib.Logic.Function.Basic
import Mathlib.Tactic.Common

/-!
# Tables filled on demand

A table keeps the value computed for a key at its first lookup. `getOrAdd` takes a factory that may
throw; a value is kept only when the factory has returned it. `Sound` says that every value kept is
one the table is meant to keep for its key, and `sound_getOrAdd` that it stays so as long as the
factories handed in return such values. The frame of a lookup is the other keys
(`getOrAdd_of_ne`), and a factory that throws leaves the table as it is (`getOrAdd_of_throws`).
-/

set_option autoImplicit false
set_option relaxedAutoImplicit false

namespace SharpArch.Foundation.MemoTable

/-- A table from keys to the values kept for them. -/
abbrev Table (Key Value : Type*) := Key → Option Value

variable {Key Value Error : Type*} [DecidableEq Key]

/-- The value kept for a key, or else the one the factory returns, which is then kept. -/
def getOrAdd (key : Key) (factory : Key → Except Error Value) (table : Table Key Value) :
    Except Error Value × Table Key Value :=
  match table key with
  | some value => (.ok value, table)
  | none =>
    match factory key with
    | .error error => (.error error, table)
    | .ok value => (.ok value, Function.update table key (some value))

/-- Every value kept is allowed for its key. -/
def Sound (allowed : Key → Value → Prop) (table : Table Key Value) : Prop :=
  ∀ key value, table key = some value → allowed key value

variable {allowed : Key → Value → Prop} {table : Table Key Value} {key : Key}
  {factory : Key → Except Error Value}

theorem getOrAdd_of_some {value : Value} (hkept : table key = some value) :
    getOrAdd key factory table = (.ok value, table) := by
  simp only [getOrAdd, hkept]

theorem getOrAdd_of_none (hkept : table key = none) :
    getOrAdd key factory table =
      match factory key with
      | .error error => (.error error, table)
      | .ok value => (.ok value, Function.update table key (some value)) := by
  simp only [getOrAdd, hkept]

/-- A lookup that throws keeps nothing. -/
theorem getOrAdd_of_throws {error : Error} (hthrows : (getOrAdd key factory table).1 = .error error) :
    (getOrAdd key factory table).2 = table := by
  cases hkept : table key with
  | some value => rw [getOrAdd_of_some hkept]
  | none =>
    rw [getOrAdd_of_none hkept] at hthrows ⊢
    rcases hfactory : factory key with _ | value
    · rfl
    · rw [hfactory] at hthrows
      exact absurd hthrows (by simp)

/-- A lookup touches no other key. -/
theorem getOrAdd_of_ne {other : Key} (hne : other ≠ key) :
    (getOrAdd key factory table).2 other = table other := by
  cases hkept : table key with
  | some value => rw [getOrAdd_of_some hkept]
  | none =>
    rw [getOrAdd_of_none hkept]
    rcases factory key with _ | value
    · rfl
    · exact Function.update_of_ne hne _ _

omit [DecidableEq Key] in
theorem sound_empty : Sound allowed (fun _ ↦ none : Table Key Value) := by
  intro key value hkept
  exact absurd hkept (by simp)

/-- A table stays sound when the factory handed in for a key not yet in it returns an allowed
value. -/
theorem sound_getOrAdd (hsound : Sound allowed table)
    (hfactory : table key = none → ∀ value, factory key = .ok value → allowed key value) :
    Sound allowed (getOrAdd key factory table).2 := by
  cases hkept : table key with
  | some value =>
    rw [getOrAdd_of_some hkept]
    exact hsound
  | none =>
    rw [getOrAdd_of_none hkept]
    rcases hvalue : factory key with _ | value
    · exact hsound
    · intro other found hfound
      replace hfound : Function.update table key (some value) other = some found := hfound
      by_cases hsame : other = key
      · subst hsame
        obtain rfl : value = found := by simpa using hfound
        exact hfactory hkept value hvalue
      · rw [Function.update_of_ne hsame] at hfound
        exact hsound other found hfound

end SharpArch.Foundation.MemoTable
