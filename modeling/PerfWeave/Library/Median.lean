/-
This file develops the order statistic that robust estimators rest on: the element of rank
`length / 2` of a list, found by sorting. The sorted list is an implementation; the
specification counts. A value is the upper median when at most half of the list lies below
it and more than half at or below it, and at most one value of a list has that property.

The second part is the rounding of rationals to the nearest integer, ties away from zero.
-/

import Mathlib

namespace PerfWeave

/-- Places whose values satisfy a predicate are counted. -/
theorem card_le_countP {Value : Type} {values : List Value} {satisfies : Value → Bool}
    {places : Finset Nat}
    (all : ∀ place ∈ places, ∃ value, values[place]? = some value ∧ satisfies value) :
    places.card ≤ values.countP satisfies := by
  induction values using List.reverseRecOn generalizing places with
  | nil =>
    have empty : places = ∅ := Finset.eq_empty_of_forall_notMem fun place member => by
      obtain ⟨value, found, _⟩ := all place member
      exact absurd found (by simp)
    rw [empty, Finset.card_empty]
    exact Nat.zero_le _
  | append_singleton values last inductionHypothesis =>
    have earlier : ∀ place ∈ places.erase values.length,
        ∃ value, values[place]? = some value ∧ satisfies value := by
      intro place member
      obtain ⟨differs, inPlaces⟩ := Finset.mem_erase.mp member
      obtain ⟨value, found, satisfied⟩ := all place inPlaces
      have bound := (List.getElem?_eq_some_iff.mp found).1
      rw [List.length_append, List.length_singleton] at bound
      rw [List.getElem?_append_left (by omega)] at found
      exact ⟨value, found, satisfied⟩
    have counted := inductionHypothesis earlier
    rw [List.countP_append]
    by_cases isLast : values.length ∈ places
    · obtain ⟨value, found, satisfied⟩ := all _ isLast
      rw [List.getElem?_concat_length, Option.some.injEq] at found
      rw [← Finset.card_erase_add_one isLast, found, List.countP_singleton, if_pos satisfied]
      exact Nat.add_le_add_right counted 1
    · rw [Finset.erase_eq_of_notMem isLast] at counted
      exact counted.trans (Nat.le_add_right _ _)

section Median

variable {Value : Type} [LinearOrder Value]

/-- The element of rank `length / 2` of a list in increasing order; none of the empty list. -/
def upperMedian (values : List Value) : Option Value :=
  (values.insertionSort (· ≤ ·))[values.length / 2]?

/-- The counting specification of the upper median. -/
structure IsUpperMedian (values : List Value) (median : Value) : Prop where
  mem : median ∈ values
  below : values.countP (· < median) ≤ values.length / 2
  atMost : values.length / 2 < values.countP (· ≤ median)

/-- A list has at most one value with no more values below it than a rank, and with more of them at
or below it. -/
theorem eq_of_countP {values : List Value} {rank : Nat} {first second : Value}
    (belowFirst : values.countP (· < first) ≤ rank)
    (atMostFirst : rank < values.countP (· ≤ first))
    (belowSecond : values.countP (· < second) ≤ rank)
    (atMostSecond : rank < values.countP (· ≤ second)) : first = second := by
  have order : ∀ {low high : Value}, rank < values.countP (· ≤ low) →
      values.countP (· < high) ≤ rank → ¬ low < high := by
    intro low high atMost below less
    have counted : values.countP (· ≤ low) ≤ values.countP (· < high) := by
      refine List.countP_mono_left fun value _ atMost => ?_
      rw [decide_eq_true_eq] at atMost ⊢
      exact lt_of_le_of_lt atMost less
    omega
  exact le_antisymm (not_lt.mp (order atMostSecond belowFirst))
    (not_lt.mp (order atMostFirst belowSecond))

/-- A list has at most one upper median. -/
theorem IsUpperMedian.unique {values : List Value} {first second : Value}
    (isFirst : IsUpperMedian values first) (isSecond : IsUpperMedian values second) :
    first = second :=
  eq_of_countP isFirst.below isFirst.atMost isSecond.below isSecond.atMost

/-- The element of a sorted list at a rank counts the ranks. -/
theorem countP_of_pairwise_le {sorted : List Value} (pairwise : sorted.Pairwise (· ≤ ·))
    {rank : Nat} (bound : rank < sorted.length) :
    sorted.countP (· < sorted[rank]) ≤ rank ∧ rank < sorted.countP (· ≤ sorted[rank]) := by
  have monotone := List.pairwise_iff_getElem.mp pairwise
  constructor
  · have later : (sorted.drop rank).countP (· < sorted[rank]) = 0 := by
      refine List.countP_eq_zero.mpr fun value member => ?_
      obtain ⟨index, indexLt, rfl⟩ := List.mem_drop_iff_getElem.mp member
      rw [decide_eq_true_eq, not_lt]
      rcases Nat.eq_zero_or_pos index with rfl | positive
      · exact le_of_eq (by simp)
      · exact monotone rank (rank + index) bound (by omega) (by omega)
    have split : sorted.countP (· < sorted[rank]) =
        (sorted.take rank).countP (· < sorted[rank]) +
          (sorted.drop rank).countP (· < sorted[rank]) := by
      rw [← List.countP_append, List.take_append_drop]
    rw [split, later, Nat.add_zero]
    exact List.countP_le_length.trans (List.length_take_le _ _)
  · have earlier : (sorted.take (rank + 1)).countP (· ≤ sorted[rank]) = rank + 1 := by
      have all : (sorted.take (rank + 1)).countP (· ≤ sorted[rank]) =
          (sorted.take (rank + 1)).length := by
        refine List.countP_eq_length.mpr fun value member => ?_
        obtain ⟨index, indexLt, rfl⟩ := List.mem_take_iff_getElem.mp member
        rw [decide_eq_true_eq]
        rcases Nat.lt_or_ge index rank with less | greater
        · exact monotone index rank (by omega) bound less
        · exact le_of_eq (by congr 1; omega)
      rw [all, List.length_take]
      omega
    have part : (sorted.take (rank + 1)).countP (· ≤ sorted[rank]) ≤
        sorted.countP (· ≤ sorted[rank]) := (List.take_sublist _ _).countP_le
    omega

/-- Any way of sorting a list leads to its upper median. -/
theorem isUpperMedian_of_sorted {values sorted : List Value} (perm : sorted.Perm values)
    (pairwise : sorted.Pairwise (· ≤ ·)) (bound : values.length / 2 < sorted.length) :
    IsUpperMedian values sorted[values.length / 2] := by
  have counts := countP_of_pairwise_le pairwise bound
  rw [perm.countP_eq, perm.countP_eq] at counts
  exact ⟨perm.mem_iff.mp (List.getElem_mem bound), counts.1, counts.2⟩

/-- Sorting and indexing finds the upper median of the specification. -/
theorem upperMedian_eq_some_iff (values : List Value) (median : Value) :
    upperMedian values = some median ↔ IsUpperMedian values median := by
  have sound : ∀ found, upperMedian values = some found → IsUpperMedian values found := by
    intro found isFound
    obtain ⟨bound, rfl⟩ := List.getElem?_eq_some_iff.mp isFound
    exact isUpperMedian_of_sorted (List.perm_insertionSort (· ≤ ·) values)
      (List.pairwise_insertionSort (· ≤ ·) values) bound
  refine ⟨sound median, fun isMedian => ?_⟩
  have nonempty : values.length / 2 < (values.insertionSort (· ≤ ·)).length := by
    have positive := List.length_pos_of_mem isMedian.mem
    rw [List.length_insertionSort]
    omega
  have found : upperMedian values = some (values.insertionSort (· ≤ ·))[values.length / 2] :=
    List.getElem?_eq_getElem nonempty
  rw [found, (sound _ found).unique isMedian]

theorem exists_isUpperMedian {values : List Value} (nonempty : values ≠ []) :
    ∃ median, IsUpperMedian values median := by
  have positive := List.length_pos_iff.mpr nonempty
  have bound : values.length / 2 < (values.insertionSort (· ≤ ·)).length := by
    rw [List.length_insertionSort]
    omega
  exact ⟨_, isUpperMedian_of_sorted (List.perm_insertionSort (· ≤ ·) values)
    (List.pairwise_insertionSort (· ≤ ·) values) bound⟩

theorem IsUpperMedian.of_perm {first second : List Value} {median : Value}
    (isMedian : IsUpperMedian first median) (perm : first.Perm second) :
    IsUpperMedian second median where
  mem := perm.mem_iff.mp isMedian.mem
  below := by
    rw [← perm.countP_eq, ← perm.length_eq]
    exact isMedian.below
  atMost := by
    rw [← perm.countP_eq, ← perm.length_eq]
    exact isMedian.atMost

/-- The upper median does not depend on the order of the list. -/
theorem upperMedian_perm {first second : List Value} (perm : first.Perm second) :
    upperMedian first = upperMedian second := by
  refine Option.ext fun median => ?_
  rw [upperMedian_eq_some_iff, upperMedian_eq_some_iff]
  exact ⟨fun isMedian => isMedian.of_perm perm, fun isMedian => isMedian.of_perm perm.symm⟩

/-! ### What bounds a median -/

/-- The upper median is at most what more than half of the list is at most. -/
theorem IsUpperMedian.le_of_countP {values : List Value} {median bound : Value}
    (isMedian : IsUpperMedian values median)
    (many : values.length / 2 < values.countP (· ≤ bound)) : median ≤ bound := by
  by_contra above
  have counted : values.countP (· ≤ bound) ≤ values.countP (· < median) := by
    refine List.countP_mono_left fun value _ atMost => ?_
    rw [decide_eq_true_eq] at atMost ⊢
    exact lt_of_le_of_lt atMost (not_le.mp above)
  have below := isMedian.below
  omega

/-- The upper median is at least what no more than half of the list is below. -/
theorem IsUpperMedian.ge_of_countP {values : List Value} {median bound : Value}
    (isMedian : IsUpperMedian values median)
    (few : values.countP (· < bound) ≤ values.length / 2) : bound ≤ median := by
  by_contra below
  have counted : values.countP (· ≤ median) ≤ values.countP (· < bound) := by
    refine List.countP_mono_left fun value _ atMost => ?_
    rw [decide_eq_true_eq] at atMost ⊢
    exact lt_of_le_of_lt atMost (not_le.mp below)
  have atMost := isMedian.atMost
  omega

/-- The breakdown bounds: when more than half of the places of a list hold values between two
bounds, the upper median lies between them. -/
theorem IsUpperMedian.mem_Icc_of_countP {values : List Value} {median low high : Value}
    (isMedian : IsUpperMedian values median)
    (many : values.length / 2 < values.countP fun value => low ≤ value ∧ value ≤ high) :
    low ≤ median ∧ median ≤ high := by
  constructor
  · refine isMedian.ge_of_countP ?_
    have others : values.countP (fun value => low ≤ value ∧ value ≤ high) ≤
        values.countP fun value => !decide (value < low) := by
      refine List.countP_mono_left fun value _ between => ?_
      rw [Bool.not_eq_true', decide_eq_false_iff_not, not_lt]
      exact (of_decide_eq_true between).1
    have total := values.length_eq_countP_add_countP (fun value => decide (value < low))
    simp only [decide_eq_true_eq] at total
    simp only [← decide_not] at others
    omega
  · refine isMedian.le_of_countP (many.trans_le ?_)
    refine List.countP_mono_left fun value _ between => ?_
    exact decide_eq_true (of_decide_eq_true between).2

/-- The same for chosen places. -/
theorem IsUpperMedian.mem_Icc_of_places {values : List Value} {median low high : Value}
    (isMedian : IsUpperMedian values median) {places : Finset Nat}
    (many : values.length / 2 < places.card)
    (between : ∀ place ∈ places, ∃ value, values[place]? = some value ∧
      low ≤ value ∧ value ≤ high) :
    low ≤ median ∧ median ≤ high := by
  refine isMedian.mem_Icc_of_countP (many.trans_le (card_le_countP fun place member => ?_))
  obtain ⟨value, found, bounds⟩ := between place member
  exact ⟨value, found, decide_eq_true bounds⟩

/-- A value that more than half of the list is equal to is its upper median. -/
theorem isUpperMedian_of_majority {values : List Value} {value : Value}
    (many : values.length / 2 < values.countP (· = value)) : IsUpperMedian values value := by
  have nonempty : values ≠ [] := by
    rintro rfl
    exact absurd many (by simp)
  obtain ⟨median, isMedian⟩ := exists_isUpperMedian nonempty
  have between : value ≤ median ∧ median ≤ value := by
    refine isMedian.mem_Icc_of_countP (many.trans_le ?_)
    refine List.countP_mono_left fun other _ same => ?_
    rw [of_decide_eq_true same]
    exact decide_eq_true ⟨le_rfl, le_rfl⟩
  rwa [le_antisymm between.1 between.2]

end Median

/-! ### Rounding -/

/-- The nearest integer, ties away from zero. -/
def roundAway (value : ℚ) : Int :=
  if 0 ≤ value then ⌊value + 1 / 2⌋ else -⌊-value + 1 / 2⌋

theorem abs_roundAway_sub_le (value : ℚ) : |(roundAway value : ℚ) - value| ≤ 1 / 2 := by
  unfold roundAway
  split
  · have low := Int.lt_floor_add_one (value + 1 / 2)
    have high := Int.floor_le (value + 1 / 2)
    rw [abs_le]
    constructor <;> linarith
  · have low := Int.lt_floor_add_one (-value + 1 / 2)
    have high := Int.floor_le (-value + 1 / 2)
    rw [abs_le]
    push_cast
    constructor <;> linarith

theorem abs_roundAway_le (value : ℚ) : |(roundAway value : ℚ)| ≤ |value| + 1 / 2 := by
  have rounded := abs_roundAway_sub_le value
  have triangle := abs_sub_abs_le_abs_sub (roundAway value : ℚ) value
  linarith

/-- Rounding stays on the same side of an integer. -/
theorem roundAway_le {value : ℚ} {bound : Int} (atMost : value ≤ bound) :
    roundAway value ≤ bound := by
  have near := (abs_le.mp (abs_roundAway_sub_le value)).2
  have below : (roundAway value : ℚ) < (bound + 1 : Int) := by
    push_cast
    linarith
  exact Int.lt_add_one_iff.mp (Int.cast_lt.mp below)

theorem le_roundAway {value : ℚ} {bound : Int} (atLeast : bound ≤ value) :
    bound ≤ roundAway value := by
  have near := (abs_le.mp (abs_roundAway_sub_le value)).1
  have above : (bound : ℚ) < (roundAway value + 1 : Int) := by
    push_cast
    linarith
  exact Int.lt_add_one_iff.mp (Int.cast_lt.mp above)

/-- Truncating division loses less than one. -/
theorem abs_tdiv_sub_div_lt (numerator denominator : Int) (positive : 0 < denominator) :
    |((numerator.tdiv denominator : Int) : ℚ) - numerator / denominator| < 1 := by
  have positiveQ : (0 : ℚ) < denominator := by exact_mod_cast positive
  have split : ((denominator * numerator.tdiv denominator + numerator.tmod denominator : Int) : ℚ) =
      numerator := by rw [Int.mul_tdiv_add_tmod]
  have remainder : |((numerator.tmod denominator : Int) : ℚ)| < denominator := by
    have bound : (numerator.tmod denominator).natAbs < denominator.natAbs := by
      rw [Int.natAbs_tmod]
      exact Nat.mod_lt _ (by omega)
    have small : |numerator.tmod denominator| < denominator := by
      rw [Int.abs_eq_natAbs]
      omega
    exact_mod_cast small
  push_cast at split
  have rewritten : ((numerator.tdiv denominator : Int) : ℚ) - numerator / denominator =
      -((numerator.tmod denominator : Int) : ℚ) / denominator := by
    field_simp
    linarith
  rw [rewritten, abs_div, abs_neg, abs_of_pos positiveQ, div_lt_one positiveQ]
  exact remainder

end PerfWeave
