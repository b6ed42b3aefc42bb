/-
This file develops the part of relational queries that the queries over the tables are made of:
left joins whose unmatched rows carry a default on the right, grouping by a key, and the first row
with the largest measure. A table is the list of its rows in the order in which a query reads
them, and every operation keeps that order, so what holds for all lists holds for any order.
-/

import Mathlib

namespace PerfWeave

variable {Left Right Row Key Measure : Type}

/-! ### Left joins -/

/-- The right rows a left row is joined with: those that match it, or the default if none does. -/
def joinMatches (on : Left → Right → Bool) (default : Right) (right : List Right) (row : Left) :
    List Right :=
  if (right.filter (on row)).isEmpty then [default] else right.filter (on row)

/-- The left join of two tables. -/
def leftJoin (on : Left → Right → Bool) (default : Right) (left : List Left)
    (right : List Right) : List (Left × Right) :=
  left.flatMap fun row => (joinMatches on default right row).map (Prod.mk row)

theorem joinMatches_ne_nil (on : Left → Right → Bool) (default : Right) (right : List Right)
    (row : Left) : joinMatches on default right row ≠ [] := by
  unfold joinMatches
  split
  · exact List.cons_ne_nil _ _
  · rename_i matched
    exact fun empty => matched (List.isEmpty_iff.mpr empty)

/-- A left join keeps every left row. -/
theorem length_flatMap_joinMatches_pos {Copy : Type} (on : Left → Right → Bool) (default : Right)
    (right : List Right) (row : Left) {copies : List Copy} (nonempty : copies ≠ []) :
    (copies.flatMap fun _ => joinMatches on default right row).length > 0 := by
  obtain ⟨copy, rest, rfl⟩ := List.exists_cons_of_ne_nil nonempty
  rw [List.flatMap_cons, List.length_append]
  exact Nat.add_pos_left (List.length_pos_iff.mpr (joinMatches_ne_nil on default right row)) _

theorem joinMatches_of_filter_eq_nil {on : Left → Right → Bool} (default : Right)
    {right : List Right} {row : Left} (unmatched : right.filter (on row) = []) :
    joinMatches on default right row = [default] :=
  if_pos (List.isEmpty_iff.mpr unmatched)

theorem joinMatches_of_filter_ne_nil {on : Left → Right → Bool} (default : Right)
    {right : List Right} {row : Left} (matched : right.filter (on row) ≠ []) :
    joinMatches on default right row = right.filter (on row) :=
  if_neg fun empty => matched (List.isEmpty_iff.mp empty)

/-- A condition on the left rows may be checked before the join. -/
theorem filter_leftJoin (on : Left → Right → Bool) (default : Right) (left : List Left)
    (right : List Right) (keep : Left → Bool) :
    (leftJoin on default left right).filter (fun joined => keep joined.1) =
      leftJoin on default (left.filter keep) right := by
  induction left with
  | nil => rfl
  | cons row rest inductionHypothesis =>
    unfold leftJoin at inductionHypothesis ⊢
    have onRow : (fun joined : Left × Right => keep joined.1) ∘ Prod.mk row =
        fun _ => keep row := rfl
    rw [List.flatMap_cons, List.filter_append, inductionHypothesis, List.filter_map, onRow]
    by_cases kept : keep row = true
    · rw [List.filter_cons_of_pos kept, List.flatMap_cons,
        List.filter_eq_self.mpr fun _ _ => kept]
    · rw [List.filter_cons_of_neg kept, List.filter_eq_nil_iff.mpr fun _ _ => kept]
      rfl

theorem map_snd_leftJoin (on : Left → Right → Bool) (default : Right) (left : List Left)
    (right : List Right) :
    (leftJoin on default left right).map Prod.snd =
      left.flatMap (joinMatches on default right) := by
  unfold leftJoin
  rw [List.map_flatMap]
  refine List.flatMap_congr fun row _ => ?_
  rw [List.map_map]
  exact List.map_id _

/-! ### Groups -/

/-- The keys of the rows of a table, each of them once. -/
def groupKeys [DecidableEq Key] (key : Row → Key) (rows : List Row) : List Key :=
  (rows.map key).dedup

/-- The rows of a table with a key. -/
def group [DecidableEq Key] (key : Row → Key) (rows : List Row) (k : Key) : List Row :=
  rows.filter fun row => key row = k

theorem mem_groupKeys_iff [DecidableEq Key] {key : Row → Key} {rows : List Row} {k : Key} :
    k ∈ groupKeys key rows ↔ ∃ row ∈ rows, key row = k := by
  unfold groupKeys
  rw [List.mem_dedup, List.mem_map]

/-- The rows of a table, group after group, are its rows. -/
theorem perm_flatMap_group [DecidableEq Key] (key : Row → Key) {rows : List Row}
    {keys : List Key} (distinct : keys.Nodup) (covered : ∀ row ∈ rows, key row ∈ keys) :
    (keys.flatMap (group key rows)).Perm rows := by
  induction keys generalizing rows with
  | nil => rw [List.eq_nil_iff_forall_not_mem.mpr fun row member =>
      absurd (covered row member) List.not_mem_nil, List.flatMap_nil]
  | cons k rest inductionHypothesis =>
    obtain ⟨fresh, distinctRest⟩ := List.nodup_cons.mp distinct
    have later : rest.flatMap (group key rows) =
        rest.flatMap (group key (rows.filter fun row => !decide (key row = k))) := by
      refine List.flatMap_congr fun other inRest => ?_
      unfold group
      rw [List.filter_filter]
      refine List.filter_congr fun row _ => ?_
      by_cases same : key row = other
      · have differs : other ≠ k := fun equal => fresh (equal ▸ inRest)
        simp [same, differs]
      · simp [same]
    have coveredRest : ∀ row ∈ rows.filter fun row => !decide (key row = k),
        key row ∈ rest := by
      intro row member
      obtain ⟨inRows, differs⟩ := List.mem_filter.mp member
      exact (List.mem_cons.mp (covered row inRows)).resolve_left (by simpa using differs)
    rw [List.flatMap_cons, later]
    exact ((inductionHypothesis distinctRest coveredRest).append_left _).trans
      (List.filter_append_perm (fun row => decide (key row = k)) rows)

/-- The same key once more, some number of times, in front of a list. -/
theorem dedup_replicate_append [DecidableEq Key] (count : Nat) (k : Key) (keys : List Key) :
    (List.replicate (count + 1) k ++ keys).dedup = (k :: keys).dedup := by
  induction count with
  | zero => rfl
  | succ count inductionHypothesis =>
    rw [List.replicate_succ, List.cons_append, List.dedup_cons_of_mem, inductionHypothesis]
    exact List.mem_append_left _ (List.mem_cons_self)

theorem dedup_append_congr [DecidableEq Key] (keys : List Key) {first second : List Key}
    (same : first.dedup = second.dedup) : (keys ++ first).dedup = (keys ++ second).dedup := by
  rw [List.dedup_append, List.dedup_append, same]

/-- A left join has the groups of its left rows. -/
theorem groupKeys_leftJoin [DecidableEq Key] (on : Left → Right → Bool) (default : Right)
    (left : List Left) (right : List Right) (key : Left → Key) :
    groupKeys (fun joined => key joined.1) (leftJoin on default left right) =
      groupKeys key left := by
  unfold groupKeys
  induction left with
  | nil => rfl
  | cons row rest inductionHypothesis =>
    obtain ⟨count, counted⟩ := Nat.exists_eq_add_one_of_ne_zero
      (List.length_pos_iff.mpr (joinMatches_ne_nil on default right row)).ne'
    have first : ((joinMatches on default right row).map (Prod.mk row)).map
        (fun joined => key joined.1) = List.replicate (count + 1) (key row) := by
      have onRow : (fun joined : Left × Right => key joined.1) ∘ Prod.mk row =
          fun _ => key row := rfl
      rw [List.map_map, ← counted, onRow, List.map_const']
    unfold leftJoin at inductionHypothesis ⊢
    rw [List.flatMap_cons, List.map_append, first, dedup_replicate_append, List.map_cons]
    exact dedup_append_congr [key row] inductionHypothesis

/-! ### The first row with the largest measure -/

variable [LinearOrder Measure]

/-- The first row with the largest measure. -/
def argMax (measure : Row → Measure) (rows : List Row) : Option Row := rows.argmax measure

theorem argMax_eq_none_iff {measure : Row → Measure} {rows : List Row} :
    argMax measure rows = none ↔ rows = [] :=
  List.argmax_eq_none

/-- Rows that are not above an earlier one do not matter. -/
theorem argMax_append_of_forall_le (measure : Row → Measure) {first : List Row}
    (second : List Row) (below : ∀ row ∈ second, ∃ earlier ∈ first, measure row ≤ measure earlier) :
    argMax measure (first ++ second) = argMax measure first := by
  unfold argMax
  induction second using List.reverseRecOn with
  | nil => rw [List.append_nil]
  | append_singleton second last inductionHypothesis =>
    rw [← List.append_assoc, List.argmax_concat,
      inductionHypothesis fun row member => below row (List.mem_append_left _ member)]
    obtain ⟨earlier, isEarlier, above⟩ :=
      below last (List.mem_append_right _ (List.mem_singleton_self last))
    cases largest : first.argmax measure with
    | none =>
      rw [List.argmax_eq_none.mp largest] at isEarlier
      exact absurd isEarlier List.not_mem_nil
    | some best =>
      exact if_neg (above.trans (List.le_of_mem_argmax isEarlier largest)).not_gt

/-- Repeating a table does not change its first row with the largest measure. -/
theorem argMax_flatMap_const (measure : Row → Measure) (rows : List Row) {copies : List Left}
    (nonempty : copies ≠ []) :
    argMax measure (copies.flatMap fun _ => rows) = argMax measure rows := by
  obtain ⟨copy, rest, rfl⟩ := List.exists_cons_of_ne_nil nonempty
  rw [List.flatMap_cons]
  refine argMax_append_of_forall_le measure _ fun row member => ?_
  obtain ⟨_, _, inRows⟩ := List.mem_flatMap.mp member
  exact ⟨row, inRows, le_rfl⟩

theorem argMax_map (measure : Right → Measure) (image : Row → Right) (rows : List Row) :
    argMax measure (rows.map image) =
      (argMax (fun row => measure (image row)) rows).map image := by
  unfold argMax
  induction rows using List.reverseRecOn with
  | nil => rfl
  | append_singleton rows last inductionHypothesis =>
    rw [List.map_append, List.map_singleton, List.argmax_concat, List.argmax_concat,
      inductionHypothesis]
    cases rows.argmax fun row => measure (image row) with
    | none => rfl
    | some best =>
      exact (apply_ite (Option.map image) (measure (image best) < measure (image last))
        (some last) (some best)).symm

/-- The first of the largest rows that a left row is joined with: one of those that match it, or
the default if none does. -/
theorem argMax_joinMatches_map (on : Left → Right → Bool) (default : Right)
    (measure : Right → Measure) (image : Row → Right) (rows : List Row) (left : Left) :
    argMax measure (joinMatches on default (rows.map image) left) =
      some (((argMax (fun row => measure (image row))
        (rows.filter fun row => on left (image row))).map image).getD default) := by
  have matched : (rows.map image).filter (on left) =
      (rows.filter fun row => on left (image row)).map image := List.filter_map
  cases best : argMax (fun row => measure (image row))
      (rows.filter fun row => on left (image row)) with
  | none =>
    rw [argMax_eq_none_iff.mp best, List.map_nil] at matched
    rw [joinMatches_of_filter_eq_nil default matched]
    exact List.argmax_singleton
  | some best =>
    have nonempty : (rows.map image).filter (on left) ≠ [] := by
      rw [matched]
      intro empty
      rw [argMax_eq_none_iff.mpr (List.map_eq_nil_iff.mp empty)] at best
      exact absurd best nofun
    rw [joinMatches_of_filter_ne_nil default nonempty, matched, argMax_map, best]
    rfl

end PerfWeave
