import Mathlib.Algebra.BigOperators.Group.List.Basic
import Mathlib.Algebra.Order.Group.Int
import Mathlib.Data.Rat.Defs
import Mathlib.Tactic.Ring
import Mathlib.Tactic.Positivity
import Mathlib.Tactic.FieldSimp

/-!
# Decimal numbers

A `System.Decimal` is an integer coefficient of at most 96 bits over a power of ten with an exponent of
at most 28. A sum is computed exactly; if its coefficient does not fit, as few digits as needed are
dropped, rounded half to even, and if that does not help either the addition throws an
`OverflowException`.

`units scale` is the value of a number in units of `10 ^ -scale`. As long as sums stay below `2 ^ 96`
such units, they are exact (`add_of_units`, `sum_of_units`).
-/

set_option autoImplicit false
set_option relaxedAutoImplicit false

namespace SharpArch.Platform

/-- Coefficients are below this number. -/
def coefficientLimit : ℕ := 2 ^ 96

/-- `System.Decimal`. -/
structure Decimal where
  coefficient : ℤ
  scale : ℕ
  natAbs_lt : coefficient.natAbs < coefficientLimit
  scale_le : scale ≤ 28
  deriving DecidableEq, Repr

namespace Decimal

/-- `coefficient / 10 ^ digits` as an integer, rounded half to even. -/
def roundHalfEven (coefficient : ℤ) (digits : ℕ) : ℤ :=
  let quotient := coefficient / 10 ^ digits
  let twice := 2 * (coefficient % 10 ^ digits)
  if twice < 10 ^ digits then quotient
  else if 10 ^ digits < twice then quotient + 1
  else if quotient % 2 = 0 then quotient
  else quotient + 1

/-- The number with a coefficient and a scale, after dropping digits until it fits, where `dropped` have
been dropped already. -/
def fit (coefficient : ℤ) (dropped : ℕ) : (scale : ℕ) → scale ≤ 28 → Option Decimal
  | 0, hscale =>
    if hfits : (roundHalfEven coefficient dropped).natAbs < coefficientLimit then
      some ⟨roundHalfEven coefficient dropped, 0, hfits, hscale⟩
    else none
  | scale + 1, hscale =>
    if hfits : (roundHalfEven coefficient dropped).natAbs < coefficientLimit then
      some ⟨roundHalfEven coefficient dropped, scale + 1, hfits, hscale⟩
    else fit coefficient (dropped + 1) scale (Nat.le_of_succ_le hscale)

/-- The value in units of `10 ^ -scale`. -/
def units (scale : ℕ) (number : Decimal) : ℤ := number.coefficient * 10 ^ (scale - number.scale)

/-- `decimal.Add`. Nothing stands for an `OverflowException`. -/
def add (left right : Decimal) : Option Decimal :=
  let scale := max left.scale right.scale
  fit (left.units scale + right.units scale) 0 scale (max_le left.scale_le right.scale_le)

/-- `0M`. -/
def zero : Decimal := ⟨0, 0, by decide, by decide⟩

/-- `decimal.Negate`. -/
def neg (number : Decimal) : Decimal where
  coefficient := -number.coefficient
  scale := number.scale
  natAbs_lt := by
    rw [Int.natAbs_neg]
    exact number.natAbs_lt
  scale_le := number.scale_le

/-- `Enumerable.Sum`. -/
def sum (numbers : List Decimal) : Option Decimal := numbers.foldlM add zero

/-- The left number is less than the right one. -/
def lt (left right : Decimal) : Bool :=
  let scale := max left.scale right.scale
  left.units scale < right.units scale

/-- The value. -/
def value (number : Decimal) : ℚ := number.coefficient / 10 ^ number.scale

/-! ### Exact sums -/

variable {left right number : Decimal} {scale : ℕ}

theorem units_of_le (hnumber : number.scale ≤ scale) {more : ℕ} (hmore : scale ≤ more) :
    number.units more = number.units scale * 10 ^ (more - scale) := by
  have hexponent : more - number.scale = (scale - number.scale) + (more - scale) := by omega
  rw [units, units, hexponent, pow_add, mul_assoc]

theorem value_eq_units (hnumber : number.scale ≤ scale) :
    number.value = number.units scale / 10 ^ scale := by
  have hexponent : scale = number.scale + (scale - number.scale) := by omega
  have hpower : (10 : ℚ) ^ scale = 10 ^ number.scale * 10 ^ (scale - number.scale) := by
    rw [← pow_add, ← hexponent]
  rw [value, units, hpower]
  push_cast
  field_simp

@[simp] theorem units_neg : (neg number).units scale = -number.units scale := neg_mul _ _

@[simp] theorem units_zero : zero.units scale = 0 := zero_mul _

theorem fit_of_fits {coefficient : ℤ} (hscale : scale ≤ 28) (hfits : coefficient.natAbs < coefficientLimit) :
    fit coefficient 0 scale hscale = some ⟨coefficient, scale, hfits, hscale⟩ := by
  have hround : roundHalfEven coefficient 0 = coefficient := by
    simp [roundHalfEven]
  cases scale with
  | zero =>
    rw [fit, hround]
    exact dif_pos hfits
  | succ scale =>
    rw [fit, hround]
    exact dif_pos hfits

/-- A sum that fits in units of a scale is exact. -/
theorem add_of_units (hleft : left.scale ≤ scale) (hright : right.scale ≤ scale)
    (hfits : (left.units scale + right.units scale).natAbs < coefficientLimit) :
    ∃ result, add left right = some result ∧ result.scale ≤ scale ∧
      result.units scale = left.units scale + right.units scale := by
  have hmax : max left.scale right.scale ≤ scale := max_le hleft hright
  have hsum : left.units scale + right.units scale =
      (left.units (max left.scale right.scale) + right.units (max left.scale right.scale)) *
        10 ^ (scale - max left.scale right.scale) := by
    rw [units_of_le (le_max_left _ _) hmax, units_of_le (le_max_right _ _) hmax, add_mul]
  have hsmall : (left.units (max left.scale right.scale) +
      right.units (max left.scale right.scale)).natAbs < coefficientLimit := by
    rw [hsum, Int.natAbs_mul] at hfits
    refine lt_of_le_of_lt (Nat.le_mul_of_pos_right _ ?_) hfits
    exact Int.natAbs_pos.mpr (by positivity)
  refine ⟨_, fit_of_fits (max_le left.scale_le right.scale_le) hsmall, hmax, ?_⟩
  exact hsum.symm

/-- A comparison in units of a scale. -/
theorem lt_iff_units (hleft : left.scale ≤ scale) (hright : right.scale ≤ scale) :
    lt left right = true ↔ left.units scale < right.units scale := by
  have hmax : max left.scale right.scale ≤ scale := max_le hleft hright
  have hpos : (0 : ℤ) < 10 ^ (scale - max left.scale right.scale) := by positivity
  rw [units_of_le (le_max_left _ _) hmax, units_of_le (le_max_right _ _) hmax, lt,
    decide_eq_true_iff]
  exact (mul_lt_mul_iff_left₀ hpos).symm

/-- How much numbers come to at most, in units of a scale, whatever their signs. -/
def total (scale : ℕ) (numbers : List Decimal) : ℕ :=
  (numbers.map fun number ↦ (number.units scale).natAbs).sum

/-- The numbers in units of a scale, added exactly. -/
def exactSum (scale : ℕ) (numbers : List Decimal) : ℤ := (numbers.map (units scale)).sum

theorem natAbs_exactSum_le (numbers : List Decimal) :
    (exactSum scale numbers).natAbs ≤ total scale numbers := by
  induction numbers with
  | nil => exact Nat.le_refl _
  | cons number rest ih =>
    simp only [exactSum, total, List.map_cons, List.sum_cons] at ih ⊢
    exact (Int.natAbs_add_le _ _).trans (Nat.add_le_add_left ih _)

theorem total_append (first second : List Decimal) :
    total scale (first ++ second) = total scale first + total scale second := by
  simp [total]

theorem exactSum_append (first second : List Decimal) :
    exactSum scale (first ++ second) = exactSum scale first + exactSum scale second := by
  simp [exactSum]

theorem foldlM_add_of_units {numbers : List Decimal} (start : Decimal) (hstart : start.scale ≤ scale)
    (hnumbers : ∀ number ∈ numbers, number.scale ≤ scale)
    (hfits : (start.units scale).natAbs + total scale numbers < coefficientLimit) :
    ∃ result, numbers.foldlM add start = some result ∧ result.scale ≤ scale ∧
      result.units scale = start.units scale + exactSum scale numbers := by
  induction numbers generalizing start with
  | nil => exact ⟨start, rfl, hstart, by simp [exactSum]⟩
  | cons number rest ih =>
    obtain ⟨hnumber, hrest⟩ := List.forall_mem_cons.mp hnumbers
    have htotal : total scale (number :: rest) =
        (number.units scale).natAbs + total scale rest := rfl
    have hadded := Int.natAbs_add_le (start.units scale) (number.units scale)
    obtain ⟨next, hnext, hnextScale, hnextUnits⟩ :=
      add_of_units hstart hnumber (by omega)
    obtain ⟨result, hresult, hscale, hunits⟩ := ih next hnextScale hrest (by rw [hnextUnits]; omega)
    refine ⟨result, ?_, hscale, ?_⟩
    · rw [List.foldlM_cons, hnext]
      exact hresult
    · rw [hunits, hnextUnits]
      simp only [exactSum, List.map_cons, List.sum_cons]
      ring

/-- Numbers that come to less than `2 ^ 96` units are added exactly. -/
theorem sum_of_units {numbers : List Decimal} (hnumbers : ∀ number ∈ numbers, number.scale ≤ scale)
    (hfits : total scale numbers < coefficientLimit) :
    ∃ result, sum numbers = some result ∧ result.scale ≤ scale ∧
      result.units scale = exactSum scale numbers := by
  obtain ⟨result, hresult, hscale, hunits⟩ :=
    foldlM_add_of_units zero (Nat.zero_le scale) hnumbers (by simpa)
  exact ⟨result, hresult, hscale, by simpa using hunits⟩

/-- The values of numbers add up to what the exact sum stands for. -/
theorem sum_value {numbers : List Decimal} (hnumbers : ∀ number ∈ numbers, number.scale ≤ scale) :
    (numbers.map value).sum = exactSum scale numbers / 10 ^ scale := by
  induction numbers with
  | nil => simp [exactSum]
  | cons number rest ih =>
    obtain ⟨hnumber, hrest⟩ := List.forall_mem_cons.mp hnumbers
    rw [List.map_cons, List.sum_cons, ih hrest, value_eq_units hnumber]
    simp only [exactSum, List.map_cons, List.sum_cons]
    push_cast
    rw [add_div]

end Decimal

end SharpArch.Platform
