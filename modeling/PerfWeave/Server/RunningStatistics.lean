/-
This file proves that the running statistics of the detector are exact: over exact numbers the
one-pass recurrence keeps the mean of the readings and the sum of their squared deviations from it.
The recurrence multiplies the deviations from the old and from the new mean; that this is what an
appended number adds to the sum is a fact about lists of numbers.
-/

import PerfWeave.Library.Deviation
import PerfWeave.Server.SpikeRuns

namespace PerfWeave

/-- The statistics of readings by their definitions. -/
noncomputable def Welford.ofValues (xs : List ℝ) : Welford ℝ :=
  ⟨xs.length, arithmeticMean xs, squaredDeviations xs⟩

theorem Welford.ofValues_nil : Welford.ofValues [] = .default := by
  rw [ofValues, arithmeticMean, squaredDeviations, List.sum_nil, zero_div]
  rfl

/-- Learning a reading keeps the statistics those of the readings. -/
theorem Welford.update_ofValues (xs : List ℝ) (x : ℝ) :
    (Welford.ofValues xs).update x = some (.ofValues (xs ++ [x])) := by
  rw [update_real]
  simp only [ofValues]
  rw [← arithmeticMean_concat, ← squaredDeviations_concat, List.length_append,
    List.length_singleton]

/-- The recurrence computes the statistics of all readings. -/
theorem Welford.foldlM_update (xs : List ℝ) :
    xs.foldlM Welford.update .default = some (Welford.ofValues xs) := by
  induction xs using List.reverseRecOn with
  | nil => exact congrArg some ofValues_nil.symm
  | append_singleton xs x inductionHypothesis =>
    rw [List.foldlM_append, inductionHypothesis, Option.bind_eq_bind, Option.bind_some,
      List.foldlM_cons, update_ofValues]
    rfl

/-- Welford's recurrence is exact: from the default state it computes the count, the mean and the
sum of squared deviations, which is not negative at any step; the square of `sigma` is the
unbiased variance of two or more readings, and the order of the readings does not matter. -/
theorem welford_exact (xs : List ℝ) :
    ∃ w, xs.foldlM Welford.update .default = some w ∧
      w.n = xs.length ∧ w.mean = xs.sum / xs.length ∧
      w.m2 = (xs.map fun x => (x - w.mean) ^ 2).sum ∧
      (∀ before, before <+: xs →
        ∃ step, before.foldlM Welford.update .default = some step ∧ 0 ≤ step.m2) ∧
      (2 ≤ xs.length → ∃ sigma, w.sigma = some sigma ∧
        sigma ^ 2 = (xs.map fun x => (x - w.mean) ^ 2).sum / (xs.length - 1)) ∧
      ∀ ys : List ℝ, ys.Perm xs → ys.foldlM Welford.update .default = some w := by
  refine ⟨.ofValues xs, Welford.foldlM_update xs, rfl, rfl, rfl, fun before _ =>
    ⟨_, Welford.foldlM_update before, squaredDeviations_nonneg before⟩, fun several =>
    ⟨_, Welford.sigma_of_two_le several (squaredDeviations_nonneg xs), ?_⟩, fun ys perm => ?_⟩
  · have nonneg := div_nonneg (squaredDeviations_nonneg xs) (Nat.cast_nonneg (xs.length - 1))
    refine (Real.sq_sqrt nonneg).trans ?_
    rw [Nat.cast_pred (by omega)]
    rfl
  · rw [Welford.foldlM_update, Welford.ofValues, Welford.ofValues, perm.length_eq,
      arithmeticMean_perm perm, squaredDeviations_perm perm]

end PerfWeave
