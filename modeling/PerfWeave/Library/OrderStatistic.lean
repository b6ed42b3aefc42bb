/-
This file develops the order statistics of a list: the value of a rank in increasing order. As for
the upper median, the sorted list is an implementation and the specification counts: at most as
many values as the rank lie below the value, and more than that at or below it.
-/

import PerfWeave.Library.Median

namespace PerfWeave

variable {Value : Type} [LinearOrder Value]

/-- The counting specification of the value of a rank; the smallest value has rank zero. -/
structure HasRank (values : List Value) (rank : Nat) (value : Value) : Prop where
  mem : value ∈ values
  below : values.countP (· < value) ≤ rank
  atMost : rank < values.countP (· ≤ value)

/-- A list has at most one value of a rank. -/
theorem HasRank.unique {values : List Value} {rank : Nat} {first second : Value}
    (isFirst : HasRank values rank first) (isSecond : HasRank values rank second) :
    first = second :=
  eq_of_countP isFirst.below isFirst.atMost isSecond.below isSecond.atMost

/-- Any way of sorting a list has the value of a rank at that place. -/
theorem hasRank_of_sorted {values sorted : List Value} (perm : sorted.Perm values)
    (pairwise : sorted.Pairwise (· ≤ ·)) {rank : Nat} (bound : rank < sorted.length) :
    HasRank values rank sorted[rank] := by
  have counts := countP_of_pairwise_le pairwise bound
  rw [perm.countP_eq, perm.countP_eq] at counts
  exact ⟨perm.mem_iff.mp (List.getElem_mem bound), counts.1, counts.2⟩

/-- Sorting by a key puts the item of a rank at that place. -/
theorem hasRank_map_mergeSort {Item : Type} (before : Item → Item → Bool) (key : Item → Value)
    (byKey : ∀ first second, before first second = true ↔ key first ≤ key second)
    {items : List Item} {rank : Nat} (bound : rank < (items.mergeSort before).length) :
    HasRank (items.map key) rank (key (items.mergeSort before)[rank]) := by
  have transitive : ∀ a b c, before a b = true → before b c = true → before a c = true := by
    intro a b c first second
    rw [byKey] at first second ⊢
    exact first.trans second
  have total : ∀ a b, (before a b || before b a) = true := by
    intro a b
    rw [Bool.or_eq_true, byKey, byKey]
    exact le_total _ _
  have ordered : ((items.mergeSort before).map key).Pairwise (· ≤ ·) :=
    (List.pairwise_mergeSort transitive total items).map key fun a b => (byKey a b).mp
  have boundMap : rank < ((items.mergeSort before).map key).length := by rwa [List.length_map]
  have ranked := hasRank_of_sorted ((List.mergeSort_perm items before).map key) ordered boundMap
  rwa [List.getElem_map] at ranked

end PerfWeave
