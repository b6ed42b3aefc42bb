/-
This file builds the arithmetic of programs that divide and take roots. Division by zero and
the root of a negative number have no result, so a program that returns one has stayed inside
the domains of its operations. Over the reals the two operations are the usual ones.
-/

import Mathlib

namespace PerfWeave

/-- Numbers with an absolute value and the two operations that are not defined everywhere. -/
class PartialArithmetic (Value : Type) where
  abs : Value → Value
  quotient : Value → Value → Option Value
  squareRoot : Value → Option Value

open PartialArithmetic

/-- Exact arithmetic. -/
noncomputable instance : PartialArithmetic ℝ where
  abs value := |value|
  quotient numerator denominator :=
    if denominator = 0 then none else some (numerator / denominator)
  squareRoot radicand := if radicand < 0 then none else some √radicand

theorem quotient_of_ne_zero (numerator : ℝ) {denominator : ℝ} (nonzero : denominator ≠ 0) :
    quotient numerator denominator = some (numerator / denominator) := if_neg nonzero

theorem squareRoot_of_nonneg {radicand : ℝ} (nonneg : 0 ≤ radicand) :
    squareRoot radicand = some √radicand := if_neg (not_lt.mpr nonneg)

/-- A deviation and what is left of it after one `count`-th is taken away have the same sign. -/
theorem mul_sub_div_nonneg (deviation : ℝ) {count : Nat} (positive : 0 < count) :
    0 ≤ deviation * (deviation - deviation / count) := by
  have atLeastOne : (1 : ℝ) ≤ count := by exact_mod_cast positive
  have factored : deviation * (deviation - deviation / count) =
      deviation ^ 2 * (1 - 1 / count) := by ring
  rw [factored]
  refine mul_nonneg (sq_nonneg deviation) (sub_nonneg.mpr ?_)
  exact div_le_one_of_le₀ atLeastOne (by linarith)

end PerfWeave
