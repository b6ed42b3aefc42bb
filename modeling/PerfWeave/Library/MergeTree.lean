/-
This file develops the tables of a store that keeps what is inserted as parts and merges them in
the background. A part is a list of rows; a merge replaces two neighbouring parts by one in which
the rows with the same sorting key are combined into a single row, the older one first. When
merges happen is not under anybody's control, so a query is worth something only if it cannot see
them. Two kinds of queries are such: the combined row of a key, and the total of a measure that
adds up when rows are combined, over the rows a condition on the key selects. Both read, at any
moment of any run, what they would read from the rows as they were inserted.
-/

import PerfWeave.Library.Relational
import PerfWeave.Library.Run

namespace PerfWeave

variable {Key Row Measure : Type}

/-! ### Totals -/

section

variable {op : Measure → Measure → Measure} {unit : Measure}

/-- The measures of the rows of a table, combined by an operation. -/
def total (op : Measure → Measure → Measure) (unit : Measure) (measure : Row → Measure)
    (rows : List Row) : Measure :=
  rows.foldl (fun sum row => op sum (measure row)) unit

@[simp]
theorem total_nil (measure : Row → Measure) : total op unit measure [] = unit := rfl

theorem total_concat (measure : Row → Measure) (rows : List Row) (row : Row) :
    total op unit measure (rows ++ [row]) = op (total op unit measure rows) (measure row) :=
  List.foldl_concat _ _ _ _

theorem total_congr {first second : Row → Measure} {rows : List Row}
    (same : ∀ row ∈ rows, first row = second row) :
    total op unit first rows = total op unit second rows :=
  List.foldl_ext _ _ _ fun sum row member => congrArg (op sum) (same row member)

variable [Std.Associative op] [Std.LawfulIdentity op unit]

theorem total_append (measure : Row → Measure) (first second : List Row) :
    total op unit measure (first ++ second) =
      op (total op unit measure first) (total op unit measure second) := by
  induction second using List.reverseRecOn with
  | nil => rw [List.append_nil, total_nil, @Std.LawfulRightIdentity.right_id _ _ op]
  | append_singleton second row inductionHypothesis =>
    rw [← List.append_assoc, total_concat, total_concat, inductionHypothesis,
      @Std.Associative.assoc _ op]

theorem total_cons (measure : Row → Measure) (row : Row) (rows : List Row) :
    total op unit measure (row :: rows) = op (measure row) (total op unit measure rows) := by
  have single : total op unit measure [row] = measure row :=
    @Std.LawfulLeftIdentity.left_id _ _ op _ _ (measure row)
  rw [← List.singleton_append, total_append, single]

theorem total_filter (measure : Row → Measure) (keep : Row → Bool) (rows : List Row) :
    total op unit measure (rows.filter keep) =
      total op unit (fun row => if keep row then measure row else unit) rows := by
  induction rows with
  | nil => rfl
  | cons row rest inductionHypothesis =>
    rw [total_cons, ← inductionHypothesis]
    cases kept : keep row with
    | true => rw [List.filter_cons_of_pos kept, total_cons, if_pos rfl]
    | false =>
      rw [List.filter_cons_of_neg (by simp [kept]), if_neg Bool.false_ne_true,
        @Std.LawfulLeftIdentity.left_id _ _ op _ _]

theorem total_filterMap (measure : Row → Measure) (image : Key → Option Row) (keys : List Key) :
    total op unit measure (keys.filterMap image) =
      total op unit (fun k => (image k).elim unit measure) keys := by
  induction keys with
  | nil => rfl
  | cons k rest inductionHypothesis =>
    rw [total_cons, ← inductionHypothesis]
    cases found : image k with
    | none =>
      rw [List.filterMap_cons_none found]
      exact (@Std.LawfulLeftIdentity.left_id _ _ op _ _ _).symm
    | some row => rw [List.filterMap_cons_some found, total_cons]; rfl

theorem total_flatMap (measure : Row → Measure) (image : Key → List Row) (keys : List Key) :
    total op unit measure (keys.flatMap image) =
      total op unit (fun k => total op unit measure (image k)) keys := by
  induction keys with
  | nil => rfl
  | cons k rest inductionHypothesis =>
    rw [List.flatMap_cons, total_append, total_cons, inductionHypothesis]

omit [Std.LawfulIdentity op unit] in
theorem total_perm [Std.Commutative op] (measure : Row → Measure) {first second : List Row}
    (same : first.Perm second) :
    total op unit measure first = total op unit measure second := by
  refine same.foldl_eq' (fun row _ other _ sum => ?_) unit
  rw [@Std.Associative.assoc _ op, @Std.Associative.assoc _ op,
    @Std.Commutative.comm _ op _ (measure row)]

end

/-! ### Combining the rows of a key -/

/-- How a table combines the rows with one sorting key, the older one first. -/
structure Collapsing (Key Row : Type) where
  key : Row → Key
  combine : Row → Row → Row
  key_combine : ∀ older newer, key older = key newer → key (combine older newer) = key newer
  combine_assoc : ∀ first second third,
    combine (combine first second) third = combine first (combine second third)

namespace Collapsing

variable (table : Collapsing Key Row)

instance associative_combine : Std.Associative table.combine := ⟨table.combine_assoc⟩

/-- All rows of a list combined into one. -/
def combineAll (rows : List Row) : Option Row :=
  total (Option.merge table.combine) none some rows

theorem combineAll_append (first second : List Row) :
    table.combineAll (first ++ second) =
      (table.combineAll first).merge table.combine (table.combineAll second) :=
  total_append some first second

theorem isSome_combineAll_iff (rows : List Row) :
    (table.combineAll rows).isSome ↔ rows ≠ [] := by
  cases rows with
  | nil => exact iff_of_false Bool.false_ne_true fun nonempty => nonempty rfl
  | cons row rest =>
    refine iff_of_true ?_ (List.cons_ne_nil row rest)
    unfold combineAll
    rw [total_cons, Option.isSome_merge]
    rfl

theorem key_of_combineAll {rows : List Row} {k : Key} (ofKey : ∀ row ∈ rows, table.key row = k)
    {combined : Row} (found : table.combineAll rows = some combined) :
    table.key combined = k := by
  induction rows using List.reverseRecOn generalizing combined with
  | nil => exact absurd found (Option.some_ne_none combined).symm
  | append_singleton rows row inductionHypothesis =>
    have last : table.key row = k :=
      ofKey row (List.mem_append_right _ (List.mem_singleton_self row))
    have earlier : ∀ other ∈ rows, table.key other = k :=
      fun other member => ofKey other (List.mem_append_left _ member)
    unfold combineAll at found inductionHypothesis
    rw [total_concat] at found
    cases before : total (Option.merge table.combine) none some rows with
    | none =>
      rw [before, Option.merge_none_left] at found
      rw [← Option.some.inj found]
      exact last
    | some older =>
      rw [before, Option.merge_some_some] at found
      have same : table.key older = table.key row :=
        (inductionHypothesis earlier before).trans last.symm
      rw [← Option.some.inj found, table.key_combine older row same]
      exact last

variable [DecidableEq Key]

/-- What the rows of a key are combined into. -/
def reading (rows : List Row) (k : Key) : Option Row :=
  table.combineAll (group table.key rows k)

/-- One row for each key, up to the order of the rows. -/
def collapse (rows : List Row) : List Row :=
  (groupKeys table.key rows).filterMap (table.reading rows)

theorem reading_append (first second : List Row) (k : Key) :
    table.reading (first ++ second) k =
      (table.reading first k).merge table.combine (table.reading second k) := by
  unfold reading group
  rw [List.filter_append, combineAll_append]

theorem key_of_reading {rows : List Row} {k : Key} {combined : Row}
    (found : table.reading rows k = some combined) : table.key combined = k :=
  table.key_of_combineAll (fun _ member => of_decide_eq_true (List.mem_filter.mp member).2) found

theorem isSome_reading_iff (rows : List Row) (k : Key) :
    (table.reading rows k).isSome ↔ ∃ row ∈ rows, table.key row = k := by
  unfold reading group
  rw [isSome_combineAll_iff, ne_eq, List.filter_eq_nil_iff]
  push Not
  simp only [decide_eq_true_eq]

/-- The row of a collapsed list with a key is what its rows with this key are combined into. -/
theorem group_collapse (rows : List Row) (k : Key) :
    group table.key (table.collapse rows) k = (table.reading rows k).toList := by
  have distinct : (groupKeys table.key rows).Nodup := List.nodup_dedup _
  have covered : k ∉ groupKeys table.key rows → table.reading rows k = none := by
    intro absent
    rw [← Option.not_isSome_iff_eq_none, isSome_reading_iff, ← mem_groupKeys_iff]
    exact absent
  unfold collapse
  generalize groupKeys table.key rows = keys at distinct covered
  unfold group
  induction keys with
  | nil => rw [covered List.not_mem_nil]; rfl
  | cons first rest inductionHypothesis =>
    obtain ⟨fresh, distinctRest⟩ := List.nodup_cons.mp distinct
    have later : ∀ other ∈ rest.filterMap (table.reading rows), table.key other ≠ first := by
      intro other member
      obtain ⟨otherKey, inRest, found⟩ := List.mem_filterMap.mp member
      rw [table.key_of_reading found]
      exact fun same => fresh (same ▸ inRest)
    by_cases same : first = k
    · subst same
      have empty : (rest.filterMap (table.reading rows)).filter
          (fun row => table.key row = first) = [] :=
        List.filter_eq_nil_iff.mpr fun other member => by simpa using later other member
      cases found : table.reading rows first with
      | none => rw [List.filterMap_cons_none found, empty]; rfl
      | some row =>
        rw [List.filterMap_cons_some found, List.filter_cons, empty,
          if_pos (decide_eq_true (table.key_of_reading found))]
        rfl
    · have rest := inductionHypothesis distinctRest fun absent =>
        covered fun member => (List.mem_cons.mp member).elim (fun equal => same equal.symm) absent
      cases found : table.reading rows first with
      | none => rw [List.filterMap_cons_none found, rest]
      | some row =>
        have differs : ¬ decide (table.key row = k) = true := by
          rw [table.key_of_reading found]
          simpa using same
        rw [List.filterMap_cons_some found, List.filter_cons, if_neg differs, rest]

/-- A collapsed list holds, of each key, what its rows are combined into. -/
theorem mem_collapse_iff (rows : List Row) (row : Row) :
    row ∈ table.collapse rows ↔ table.reading rows (table.key row) = some row := by
  have ofKey : row ∈ table.collapse rows ↔
      row ∈ group table.key (table.collapse rows) (table.key row) := by
    unfold group
    rw [List.mem_filter]
    exact (and_iff_left (decide_eq_true rfl)).symm
  rw [ofKey, group_collapse, Option.mem_toList]

theorem nodup_collapse (rows : List Row) : ((table.collapse rows).map table.key).Nodup := by
  rw [List.nodup_iff_count_le_one]
  intro k
  have counted : ((table.collapse rows).map table.key).count k =
      (group table.key (table.collapse rows) k).length := by
    unfold group
    rw [List.count_eq_countP, List.countP_map, List.countP_eq_length_filter]
    refine congrArg List.length (List.filter_congr fun row _ => ?_)
    rw [Function.comp_apply, beq_eq_decide]
  rw [counted, group_collapse]
  exact Option.length_toList_le

theorem reading_collapse (rows : List Row) (k : Key) :
    table.reading (table.collapse rows) k = table.reading rows k := by
  have single : table.reading (table.collapse rows) k =
      table.combineAll (table.reading rows k).toList :=
    congrArg table.combineAll (table.group_collapse rows k)
  rw [single]
  cases table.reading rows k with
  | none => rfl
  | some row => rfl

/-! ### Runs of inserts and merges -/

/-- What happens to a table: rows are inserted, or two neighbouring parts are merged. -/
inductive Op (Row : Type) where
  | insert (rows : List Row)
  | merge (index : Nat)

/-- The rows an operation inserts. -/
def Op.inserted : Op Row → List Row
  | .insert rows => rows
  | .merge _ => []

/-- The first two parts merged, where there are two. -/
def mergeFirst : List (List Row) → List (List Row)
  | first :: second :: rest => table.collapse (first ++ second) :: rest
  | parts => parts

/-- One operation on the parts of a table, oldest first. An inserted block is collapsed as it
becomes a part. -/
def step (parts : List (List Row)) : Op Row → List (List Row)
  | .insert rows => parts ++ [table.collapse rows]
  | .merge index => parts.take index ++ table.mergeFirst (parts.drop index)

/-- The rows a table holds after a run from the empty table, part after part. -/
def contents (ops : List (Op Row)) : List Row := (run table.step [] ops).flatten

/-- An observation of a table that cannot see whether some neighbouring rows were collapsed. -/
def Blind {Observed : Type} (observe : List Row → Observed) : Prop :=
  ∀ before rows after,
    observe (before ++ table.collapse rows ++ after) = observe (before ++ rows ++ after)

/-- One operation adds what it inserts, for an observation that cannot see merges. -/
theorem observe_step {Observed : Type} {observe : List Row → Observed}
    (blind : table.Blind observe) (parts : List (List Row)) (op : Op Row) (after : List Row) :
    observe ((table.step parts op).flatten ++ after) =
      observe (parts.flatten ++ op.inserted ++ after) := by
  cases op with
  | insert rows =>
    show observe ((parts ++ [table.collapse rows]).flatten ++ after) = _
    rw [List.flatten_append, List.flatten_singleton]
    exact blind parts.flatten rows after
  | merge index =>
    show observe ((parts.take index ++ table.mergeFirst (parts.drop index)).flatten ++ after) =
      observe (parts.flatten ++ [] ++ after)
    have whole : parts.flatten = (parts.take index).flatten ++ (parts.drop index).flatten := by
      rw [← List.flatten_append, List.take_append_drop]
    rw [List.append_nil, whole, List.flatten_append]
    match parts.drop index with
    | [] => rfl
    | [part] => rfl
    | first :: second :: rest =>
      have merged := blind (parts.take index).flatten (first ++ second) (rest.flatten ++ after)
      show observe (_ ++ (table.collapse (first ++ second) :: rest).flatten ++ after) =
        observe (_ ++ (first :: second :: rest).flatten ++ after)
      simp only [List.flatten_cons, List.append_assoc] at merged ⊢
      exact merged

/-- Whatever is merged and when, a blind observation sees the rows as they were inserted. -/
theorem observe_contents {Observed : Type} {observe : List Row → Observed}
    (blind : table.Blind observe) (ops : List (Op Row)) :
    observe (table.contents ops) = observe (ops.flatMap Op.inserted) := by
  have withMore : ∀ after, observe (table.contents ops ++ after) =
      observe (ops.flatMap Op.inserted ++ after) := by
    unfold contents
    induction ops using List.reverseRecOn with
    | nil => exact fun _ => rfl
    | append_singleton ops op inductionHypothesis =>
      intro after
      rw [run_concat, table.observe_step blind, List.append_assoc, inductionHypothesis,
        List.flatMap_append, List.flatMap_singleton, List.append_assoc]
  have here := withMore []
  rw [List.append_nil, List.append_nil] at here
  exact here

/-- The combined row of a key is a blind observation. -/
theorem blind_reading (k : Key) : table.Blind fun rows => table.reading rows k := by
  intro before rows after
  show table.reading _ k = table.reading _ k
  rw [reading_append, reading_append, reading_append, reading_append, reading_collapse]

/-- After any run the combined row of a key is that of the rows inserted. -/
theorem reading_contents (ops : List (Op Row)) (k : Key) :
    table.reading (table.contents ops) k = table.reading (ops.flatMap Op.inserted) k :=
  table.observe_contents (table.blind_reading k) ops

/-- A measure of rows that adds up when rows are combined. -/
def Additive (op : Measure → Measure → Measure) (measure : Row → Measure) : Prop :=
  ∀ older newer, measure (table.combine older newer) = op (measure older) (measure newer)

section

variable {op : Measure → Measure → Measure} {unit : Measure} [Std.Associative op]
  [Std.Commutative op] [Std.LawfulIdentity op unit] {measure : Row → Measure}

omit [DecidableEq Key] [Std.Associative op] [Std.Commutative op] in
theorem elim_combineAll (additive : table.Additive op measure) (rows : List Row) :
    (table.combineAll rows).elim unit measure = total op unit measure rows := by
  induction rows using List.reverseRecOn with
  | nil => rfl
  | append_singleton rows row inductionHypothesis =>
    unfold combineAll at inductionHypothesis ⊢
    rw [total_concat, total_concat, ← inductionHypothesis]
    cases total (Option.merge table.combine) none some rows with
    | none => exact (@Std.LawfulLeftIdentity.left_id _ _ op _ _ (measure row)).symm
    | some older => exact additive older row

/-- The total of an additive measure over the rows a condition on the key selects. -/
theorem total_collapse (additive : table.Additive op measure) (selected : Key → Bool)
    (rows : List Row) :
    total op unit measure ((table.collapse rows).filter fun row => selected (table.key row)) =
      total op unit measure (rows.filter fun row => selected (table.key row)) := by
  have byKey : (rows.filter fun row => selected (table.key row)).Perm
      (((groupKeys table.key rows).flatMap (group table.key rows)).filter
        fun row => selected (table.key row)) :=
    ((perm_flatMap_group table.key (List.nodup_dedup _) fun row member =>
      mem_groupKeys_iff.mpr ⟨row, member, rfl⟩).filter _).symm
  rw [total_perm measure byKey, total_filter, total_filter, total_flatMap]
  unfold collapse
  rw [total_filterMap]
  refine total_congr fun k _ => ?_
  have ofKey : ∀ row ∈ group table.key rows k, table.key row = k :=
    fun row member => of_decide_eq_true (List.mem_filter.mp member).2
  cases chosen : selected k with
  | true =>
    have all : ∀ row ∈ group table.key rows k,
        (if selected (table.key row) then measure row else unit) = measure row :=
      fun row member => by rw [ofKey row member, chosen, if_pos rfl]
    rw [total_congr all, ← table.elim_combineAll additive]
    show (table.reading rows k).elim unit _ = (table.reading rows k).elim unit measure
    cases found : table.reading rows k with
    | none => rfl
    | some row =>
      show (if selected (table.key row) then measure row else unit) = measure row
      rw [table.key_of_reading found, chosen, if_pos rfl]
  | false =>
    have nothing : ∀ others : List Row, total op unit (fun _ => unit) others = unit := by
      intro others
      induction others with
      | nil => rfl
      | cons other others inductionHypothesis =>
        rw [total_cons, inductionHypothesis, @Std.LawfulLeftIdentity.left_id _ _ op _ _]
    have none : ∀ row ∈ group table.key rows k,
        (if selected (table.key row) then measure row else unit) = unit :=
      fun row member => by rw [ofKey row member, chosen, if_neg Bool.false_ne_true]
    rw [total_congr none, nothing]
    cases found : table.reading rows k with
    | none => rfl
    | some row =>
      show (if selected (table.key row) then measure row else unit) = unit
      rw [table.key_of_reading found, chosen, if_neg Bool.false_ne_true]

/-- The total of an additive measure over such rows is a blind observation. -/
theorem blind_total (additive : table.Additive op measure) (selected : Key → Bool) :
    table.Blind fun rows =>
      total op unit measure (rows.filter fun row => selected (table.key row)) := by
  intro before rows after
  simp only [List.filter_append, total_append]
  rw [table.total_collapse additive]

end

/-! ### Tables that keep the newest row of a key -/

section

variable {Version : Type} [LinearOrder Version] (key : Row → Key) (version : Row → Version)

/-- The table that keeps, of the rows with one key, one with the greatest version, and of those
the one inserted last. -/
def replacing : Collapsing Key Row where
  key := key
  combine older newer := if version older ≤ version newer then newer else older
  key_combine older newer same := by
    split
    · rfl
    · exact same
  combine_assoc first second third := by
    by_cases one : version first ≤ version second <;>
      by_cases two : version second ≤ version third
    · rw [if_pos one, if_pos two, if_pos (one.trans two)]
    · rw [if_pos one, if_neg two, if_pos one]
    · rw [if_neg one, if_pos two]
    · rw [if_neg one, if_neg two, if_neg one,
        if_neg fun below => one (below.trans (not_le.mp two).le)]

/-- The last of the rows of a key with the greatest version. -/
def IsNewest (rows : List Row) (k : Key) (row : Row) : Prop :=
  ∃ before after, rows = before ++ row :: after ∧ key row = k ∧
    (∀ other ∈ before, key other = k → version other ≤ version row) ∧
      ∀ other ∈ after, key other = k → version other < version row

variable {key version}

omit [DecidableEq Key] in
theorem IsNewest.unique {rows : List Row} {k : Key} {row other : Row}
    (isRow : IsNewest key version rows k row) (isOther : IsNewest key version rows k other) :
    row = other := by
  obtain ⟨before, after, split, ofKey, earlier, later⟩ := isRow
  obtain ⟨otherBefore, otherAfter, otherSplit, otherOfKey, otherEarlier, otherLater⟩ := isOther
  rw [split] at otherSplit
  rcases List.append_eq_append_iff.mp otherSplit with ⟨middle, whole, rest⟩ | ⟨middle, whole, rest⟩
  · cases middle with
    | nil => exact (List.cons.inj rest).1
    | cons first middle =>
      obtain ⟨rfl, tail⟩ := List.cons.inj rest
      have above := otherEarlier row (whole ▸ List.mem_append_right _ List.mem_cons_self) ofKey
      have below := later other
        (tail ▸ List.mem_append_right _ List.mem_cons_self) otherOfKey
      exact absurd above (not_le.mpr below)
  · cases middle with
    | nil => exact (List.cons.inj rest).1.symm
    | cons first middle =>
      obtain ⟨rfl, tail⟩ := List.cons.inj rest
      have above := earlier other (whole ▸ List.mem_append_right _ List.mem_cons_self) otherOfKey
      have below := otherLater row
        (tail ▸ List.mem_append_right _ List.mem_cons_self) ofKey
      exact absurd above (not_le.mpr below)

theorem isNewest_of_reading {rows : List Row} {k : Key} {row : Row}
    (found : (replacing key version).reading rows k = some row) :
    IsNewest key version rows k row := by
  induction rows using List.reverseRecOn generalizing row with
  | nil => exact absurd found (Option.some_ne_none row).symm
  | append_singleton rows last inductionHypothesis =>
    rw [reading_append] at found
    by_cases ofKey : key last = k
    · have lastOnly : (replacing key version).reading [last] k = some last := by
        have kept : group key [last] k = [last] := by
          unfold group
          rw [List.filter_singleton, decide_eq_true ofKey]
          rfl
        show combineAll _ (group key [last] k) = some last
        rw [kept]
        rfl
      rw [lastOnly] at found
      cases earlier : (replacing key version).reading rows k with
      | none =>
        rw [earlier, Option.merge_none_left] at found
        obtain rfl := Option.some.inj found
        refine ⟨rows, [], rfl, ofKey, fun other member same => ?_, by simp⟩
        have present := ((replacing key version).isSome_reading_iff rows k).mpr
          ⟨other, member, same⟩
        rw [earlier] at present
        exact absurd present Bool.false_ne_true
      | some older =>
        rw [earlier, Option.merge_some_some] at found
        obtain ⟨before, after, rfl, olderOfKey, atMost, below⟩ := inductionHypothesis earlier
        have chosen : (if version older ≤ version last then last else older) = row :=
          Option.some.inj found
        split_ifs at chosen with newer
        · subst chosen
          refine ⟨_, [], rfl, ofKey, fun other member same => ?_, by simp⟩
          rcases List.mem_append.mp member with inBefore | inRest
          · exact (atMost other inBefore same).trans newer
          · rcases List.mem_cons.mp inRest with rfl | inAfter
            · exact newer
            · exact (below other inAfter same).le.trans newer
        · subst chosen
          refine ⟨before, after ++ [last], by simp, olderOfKey, atMost,
            fun other member same => ?_⟩
          rcases List.mem_append.mp member with inAfter | isLast
          · exact below other inAfter same
          · rw [List.mem_singleton.mp isLast]
            exact not_le.mp newer
    · have nothing : (replacing key version).reading [last] k = none := by
        rw [← Option.not_isSome_iff_eq_none, isSome_reading_iff]
        rintro ⟨other, member, same⟩
        exact ofKey (List.mem_singleton.mp member ▸ same)
      rw [nothing, Option.merge_none_right] at found
      obtain ⟨before, after, rfl, olderOfKey, atMost, below⟩ := inductionHypothesis found
      refine ⟨before, after ++ [last], by simp, olderOfKey, atMost, fun other member same => ?_⟩
      rcases List.mem_append.mp member with inAfter | isLast
      · exact below other inAfter same
      · exact absurd (List.mem_singleton.mp isLast ▸ same) ofKey

/-- What such a table keeps of a key. -/
theorem reading_replacing_iff {rows : List Row} {k : Key} {row : Row} :
    (replacing key version).reading rows k = some row ↔ IsNewest key version rows k row := by
  refine ⟨isNewest_of_reading, fun isNewest => ?_⟩
  obtain ⟨before, after, rfl, ofKey, -, -⟩ := id isNewest
  have present := ((replacing key version).isSome_reading_iff (before ++ row :: after) k).mpr
    ⟨row, List.mem_append_right _ List.mem_cons_self, ofKey⟩
  obtain ⟨kept, found⟩ := Option.isSome_iff_exists.mp present
  rw [found, (isNewest_of_reading found).unique isNewest]

end

end Collapsing

end PerfWeave
