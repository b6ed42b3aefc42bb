/-
This file develops the two sums behind a sample variance: the arithmetic mean of a list of numbers
and the sum of the squared deviations from it. Both are given by their definitions; the lemmas say
how they change when a number is appended, which is what a one-pass recurrence computes.
-/

import Mathlib

namespace PerfWeave

variable {Number : Type} [Field Number]

/-- The arithmetic mean; zero of the empty list. -/
def arithmeticMean (xs : List Number) : Number := xs.sum / xs.length

/-- The sum of the squared deviations from the mean. -/
def squaredDeviations (xs : List Number) : Number :=
  (xs.map fun x => (x - arithmeticMean xs) ^ 2).sum

theorem arithmeticMean_perm {first second : List Number} (perm : first.Perm second) :
    arithmeticMean first = arithmeticMean second := by
  rw [arithmeticMean, arithmeticMean, perm.sum_eq, perm.length_eq]

theorem squaredDeviations_perm {first second : List Number} (perm : first.Perm second) :
    squaredDeviations first = squaredDeviations second := by
  rw [squaredDeviations, squaredDeviations, arithmeticMean_perm perm]
  exact (perm.map _).sum_eq

theorem squaredDeviations_nonneg [LinearOrder Number] [IsStrictOrderedRing Number]
    (xs : List Number) : 0 ≤ squaredDeviations xs := by
  refine List.sum_nonneg fun square member => ?_
  obtain ⟨x, _, rfl⟩ := List.mem_map.mp member
  exact sq_nonneg _

variable [CharZero Number]

theorem length_mul_arithmeticMean (xs : List Number) :
    xs.length * arithmeticMean xs = xs.sum := by
  cases xs with
  | nil => simp
  | cons x rest => exact mul_div_cancel₀ _ (Nat.cast_ne_zero.mpr (Nat.succ_ne_zero _))

/-- The mean moves towards an appended number by a share of its deviation. -/
theorem arithmeticMean_concat (xs : List Number) (x : Number) :
    arithmeticMean (xs ++ [x]) =
      arithmeticMean xs + (x - arithmeticMean xs) / (xs.length + 1 : Nat) := by
  have nonzero : ((xs.length + 1 : Nat) : Number) ≠ 0 :=
    Nat.cast_ne_zero.mpr (Nat.succ_ne_zero _)
  have total := length_mul_arithmeticMean xs
  rw [arithmeticMean, List.sum_append, List.sum_singleton, List.length_append,
    List.length_singleton, ← total, div_eq_iff nonzero, add_mul, div_mul_cancel₀ _ nonzero]
  push_cast
  ring

/-- The squared distances from any centre exceed those from the mean by the centre's own. -/
theorem sum_sq_sub (xs : List Number) (center : Number) :
    (xs.map fun x => (x - center) ^ 2).sum =
      squaredDeviations xs + xs.length * (arithmeticMean xs - center) ^ 2 := by
  have balanced : (xs.map fun x => x - arithmeticMean xs).sum = 0 := by
    simp only [sub_eq_add_neg]
    rw [List.sum_map_add, List.map_id', List.map_const', List.sum_replicate, nsmul_eq_mul,
      mul_neg, length_mul_arithmeticMean, add_neg_cancel]
  have expanded : ∀ x, (x - center) ^ 2 = (x - arithmeticMean xs) ^ 2 +
      (2 * (arithmeticMean xs - center) * (x - arithmeticMean xs) +
        (arithmeticMean xs - center) ^ 2) := fun x => by ring
  rw [List.map_congr_left fun x _ => expanded x, List.sum_map_add, List.sum_map_add,
    List.sum_map_mul_left, balanced, mul_zero, zero_add, List.map_const', List.sum_replicate,
    nsmul_eq_mul, squaredDeviations]

/-- An appended number adds the product of its deviations from the old and from the new mean. -/
theorem squaredDeviations_concat (xs : List Number) (x : Number) :
    squaredDeviations (xs ++ [x]) = squaredDeviations xs +
      (x - arithmeticMean xs) * (x - arithmeticMean (xs ++ [x])) := by
  have nonzero : ((xs.length : Number) + 1) ≠ 0 := by
    exact_mod_cast Nat.succ_ne_zero xs.length
  rw [squaredDeviations, List.map_append, List.sum_append, sum_sq_sub, List.map_singleton,
    List.sum_singleton, arithmeticMean_concat, Nat.cast_succ]
  field_simp
  ring

end PerfWeave
