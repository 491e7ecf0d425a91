import Mathlib.Data.Nat.Notation
import Mathlib.Tactic.Common

/-!
# Recursive functions by approximation

A function that calls itself on values reached through pointers need not terminate. It is given here
by its body, which takes the function for the recursive calls, and `approx body n` is the body
unfolded `n` times: `none` says that this was not enough. `Returns` says that some unfolding gives
an answer.

A body is `Monotone` when more answers of the recursive calls never change an answer it has already
given. Then more unfolding keeps every answer (`approx_mono`) and a function has at most one answer
(`Returns.unique`). What finitely many calls need is given by one unfolding
(`exists_unfolding_forall_mem`).
-/

set_option autoImplicit false
set_option relaxedAutoImplicit false

namespace SharpArch.Foundation.Fuel

variable {Argument Answer : Type*}

/-- Every answer of the first function is an answer of the second. -/
def Below (first second : Argument → Option Answer) : Prop :=
  ∀ argument answer, first argument = some answer → second argument = some answer

/-- The body of a recursive function keeps its answers when the recursive calls have more. -/
def Monotone (body : (Argument → Option Answer) → Argument → Option Answer) : Prop :=
  ∀ first second, Below first second → Below (body first) (body second)

/-- A body unfolded a number of times. -/
def approx (body : (Argument → Option Answer) → Argument → Option Answer) :
    ℕ → Argument → Option Answer
  | 0, _ => none
  | n + 1, argument => body (approx body n) argument

/-- Some unfolding gives the answer. -/
def Returns (body : (Argument → Option Answer) → Argument → Option Answer) (argument : Argument)
    (answer : Answer) : Prop :=
  ∃ n, approx body n argument = some answer

variable {body : (Argument → Option Answer) → Argument → Option Answer}

@[simp] theorem approx_zero (argument : Argument) : approx body 0 argument = none := rfl

@[simp] theorem approx_succ (n : ℕ) (argument : Argument) :
    approx body (n + 1) argument = body (approx body n) argument := rfl

theorem below_approx_succ (hbody : Monotone body) (n : ℕ) :
    Below (approx body n) (approx body (n + 1)) := by
  induction n with
  | zero =>
    intro argument answer hzero
    exact absurd hzero (by simp)
  | succ n ih => exact hbody _ _ ih

theorem approx_mono (hbody : Monotone body) {n m : ℕ} (hle : n ≤ m) :
    Below (approx body n) (approx body m) := by
  induction hle with
  | refl => exact fun _ _ h ↦ h
  | step _ ih => exact fun argument answer h ↦ below_approx_succ hbody _ _ _ (ih argument answer h)

theorem Returns.unique (hbody : Monotone body) {argument : Argument} {first second : Answer}
    (hfirst : Returns body argument first) (hsecond : Returns body argument second) :
    first = second := by
  obtain ⟨n, hn⟩ := hfirst
  obtain ⟨m, hm⟩ := hsecond
  have hn' := approx_mono hbody (Nat.le_max_left n m) _ _ hn
  have hm' := approx_mono hbody (Nat.le_max_right n m) _ _ hm
  exact Option.some.inj (hn'.symm.trans hm')

/-- What holds of each of finitely many items after some unfolding, and keeps holding, holds of all of
them after one. -/
theorem exists_unfolding_forall_mem {Item : Type*} {holds : ℕ → Item → Prop}
    (hmono : ∀ n m item, n ≤ m → holds n item → holds m item) (items : List Item)
    (hitems : ∀ item ∈ items, ∃ n, holds n item) : ∃ n, ∀ item ∈ items, holds n item := by
  induction items with
  | nil => exact ⟨0, fun item hmem ↦ absurd hmem List.not_mem_nil⟩
  | cons head tail ih =>
    obtain ⟨n, hn⟩ := hitems head List.mem_cons_self
    obtain ⟨m, hm⟩ := ih fun item hmem ↦ hitems item (List.mem_cons_of_mem _ hmem)
    refine ⟨max n m, fun item hmem ↦ ?_⟩
    rcases List.mem_cons.mp hmem with rfl | htail
    · exact hmono n _ item (Nat.le_max_left n m) hn
    · exact hmono m _ item (Nat.le_max_right n m) (hm item htail)

end SharpArch.Foundation.Fuel
