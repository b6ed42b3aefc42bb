/-
This file packs half-open intervals of time into rows, each interval into the first row that is
free when it starts. In any partition of the intervals into rows without overlap, no more of them
run at one instant than there are rows. When they are packed in the order of their starts, a row is
opened only where all others are taken, so some instant has one interval of every row running: the
rows are as few as can be.
-/

import PerfWeave.Library.Run

namespace PerfWeave

variable {Item Time : Type} [LinearOrder Time] {start finish : Item → Time}

/-! ### Rows -/

/-- A row: the end of its last item, and its items in order. -/
structure PackedRow (Item Time : Type) where
  endsAt : Time
  items : List Item

/-- An item is put into the first row that has ended when it starts, or into a row of its own. -/
def placeFirstFit (startsAt endsAt : Time) (item : Item) :
    List (PackedRow Item Time) → List (PackedRow Item Time)
  | [] => [⟨endsAt, [item]⟩]
  | row :: rest =>
    if startsAt ≥ row.endsAt then ⟨endsAt, row.items ++ [item]⟩ :: rest
    else row :: placeFirstFit startsAt endsAt item rest

/-- The rows after an item. -/
def packItem (start finish : Item → Time) (rows : List (PackedRow Item Time)) (item : Item) :
    List (PackedRow Item Time) :=
  placeFirstFit (start item) (finish item) item rows

/-- The rows of the items, packed in their order. -/
def pack (start finish : Item → Time) (items : List Item) : List (PackedRow Item Time) :=
  run (packItem start finish) [] items

/-- Placing an item either continues one row that has ended, or all rows still run and it opens
another. -/
theorem placeFirstFit_cases (startsAt endsAt : Time) (item : Item)
    (rows : List (PackedRow Item Time)) :
    (∃ before row after, rows = before ++ row :: after ∧ row.endsAt ≤ startsAt ∧
      placeFirstFit startsAt endsAt item rows =
        before ++ ⟨endsAt, row.items ++ [item]⟩ :: after) ∨
    ((∀ row ∈ rows, startsAt < row.endsAt) ∧
      placeFirstFit startsAt endsAt item rows = rows ++ [⟨endsAt, [item]⟩]) := by
  induction rows with
  | nil => exact .inr ⟨fun _ absent => absurd absent List.not_mem_nil, rfl⟩
  | cons row rest inductionHypothesis =>
    rw [placeFirstFit]
    split
    next free => exact .inl ⟨[], row, rest, rfl, free, rfl⟩
    next taken =>
      rcases inductionHypothesis with ⟨before, other, after, rfl, free, placed⟩ | ⟨full, placed⟩
      · exact .inl ⟨row :: before, other, after, rfl, free, by rw [placed]; rfl⟩
      · refine .inr ⟨fun any member => ?_, by rw [placed]; rfl⟩
        rcases List.mem_cons.mp member with rfl | later
        · exact not_le.mp taken
        · exact full any later

/-! ### What runs at an instant -/

/-- An item runs from its start until before its end. -/
def Runs (start finish : Item → Time) (instant : Time) (item : Item) : Prop :=
  start item ≤ instant ∧ instant < finish item

instance (instant : Time) : DecidablePred (Runs start finish instant) :=
  fun _ => inferInstanceAs (Decidable (_ ∧ _))

/-- How many of the items run at an instant. -/
def running (start finish : Item → Time) (items : List Item) (instant : Time) : Nat :=
  items.countP (Runs start finish instant)

/-- Of items that follow each other, at most one runs at an instant. -/
theorem running_le_one {items : List Item}
    (follow : items.Pairwise fun first second => finish first ≤ start second) (instant : Time) :
    running start finish items instant ≤ 1 := by
  induction follow with
  | nil => exact Nat.zero_le 1
  | @cons first rest later _ inductionHypothesis =>
    unfold running at inductionHypothesis ⊢
    rw [List.countP_cons]
    by_cases runs : Runs start finish instant first
    · have none : rest.countP (Runs start finish instant) = 0 := by
        refine List.countP_eq_zero.mpr fun second member running => ?_
        have started := (of_decide_eq_true running).1
        exact not_le.mpr runs.2 ((later second member).trans started)
      simp [none, runs]
    · simpa [runs] using inductionHypothesis

/-- A partition of items into rows, in each of which the items follow each other. -/
structure IsPacking (start finish : Item → Time) (items : List Item) (rows : List (List Item)) :
    Prop where
  perm : rows.flatten.Perm items
  follow : ∀ row ∈ rows, row.Pairwise fun first second => finish first ≤ start second

/-- No more items run at an instant than there are rows. -/
theorem IsPacking.running_le {items : List Item} {rows : List (List Item)}
    (packing : IsPacking start finish items rows) (instant : Time) :
    running start finish items instant ≤ rows.length := by
  rw [running, ← packing.perm.countP_eq, List.countP_flatten]
  refine (List.sum_le_card_nsmul _ 1 fun count member => ?_).trans_eq (by simp)
  obtain ⟨row, isRow, rfl⟩ := List.mem_map.mp member
  exact running_le_one (packing.follow row isRow) instant

/-- Where every row has an item that runs, at least as many items run as there are rows. -/
theorem IsPacking.le_running {items : List Item} {rows : List (List Item)}
    (packing : IsPacking start finish items rows) {instant : Time}
    (taken : ∀ row ∈ rows, ∃ item ∈ row, Runs start finish instant item) :
    rows.length ≤ running start finish items instant := by
  rw [running, ← packing.perm.countP_eq, List.countP_flatten]
  refine le_of_eq_of_le (List.length_map _).symm (List.length_le_sum_of_one_le _ ?_)
  intro count member
  obtain ⟨row, isRow, rfl⟩ := List.mem_map.mp member
  obtain ⟨item, isItem, runs⟩ := taken row isRow
  exact List.countP_pos_iff.mpr ⟨item, isItem, decide_eq_true runs⟩

theorem running_le_concat (items : List Item) (item : Item) (instant : Time) :
    running start finish items instant ≤ running start finish (items ++ [item]) instant := by
  rw [running, running, List.countP_append]
  exact Nat.le_add_right _ _

theorem running_concat_of_runs (items : List Item) {item : Item} {instant : Time}
    (runs : Runs start finish instant item) :
    running start finish (items ++ [item]) instant = running start finish items instant + 1 := by
  simp [running, List.countP_append, runs]

/-! ### Sound rows -/

/-- A row whose items follow each other and which ends with the last of them. -/
structure PackedRow.Sound (start finish : Item → Time) (row : PackedRow Item Time) : Prop where
  follow : row.items.Pairwise fun first second => finish first ≤ start second
  ends : ∃ before last, row.items = before ++ [last] ∧ finish last = row.endsAt

namespace PackedRow

theorem Sound.single (item : Item) : Sound start finish ⟨finish item, [item]⟩ :=
  ⟨List.pairwise_singleton _ _, [], item, rfl, rfl⟩

/-- No item of a row ends after the row. -/
theorem Sound.finish_le {row : PackedRow Item Time} (sound : row.Sound start finish)
    (positive : ∀ item ∈ row.items, start item < finish item) {item : Item}
    (isItem : item ∈ row.items) : finish item ≤ row.endsAt := by
  obtain ⟨before, last, isRow, ends⟩ := sound.ends
  have follow := sound.follow
  rw [isRow] at positive follow isItem
  rcases List.mem_append.mp isItem with earlier | isLast
  · have started := (List.pairwise_append.mp follow).2.2 item earlier last
      (List.mem_singleton_self last)
    exact (started.trans (positive last (by simp)).le).trans_eq ends
  · rw [List.mem_singleton.mp isLast, ends]

/-- A row that has ended when an item starts goes on with it. -/
theorem Sound.concat {row : PackedRow Item Time} (sound : row.Sound start finish)
    (positive : ∀ item ∈ row.items, start item < finish item) {item : Item}
    (free : row.endsAt ≤ start item) : Sound start finish ⟨finish item, row.items ++ [item]⟩ := by
  refine ⟨List.pairwise_append.mpr ⟨sound.follow, List.pairwise_singleton _ _, ?_⟩, row.items, item,
    rfl, rfl⟩
  intro earlier isEarlier next isNext
  rw [List.mem_singleton.mp isNext]
  exact (sound.finish_le positive isEarlier).trans free

end PackedRow

/-! ### Packing in the order of the starts -/

/-- What holds of the rows of some items: they are a partition into sound rows, and at some instant
at least as many items run. -/
structure PackInvariant (start finish : Item → Time) (items : List Item)
    (rows : List (PackedRow Item Time)) : Prop where
  perm : (rows.flatMap PackedRow.items).Perm items
  sound : ∀ row ∈ rows, row.Sound start finish
  crowded : ∃ instant, rows.length ≤ running start finish items instant

variable {items : List Item} {rows : List (PackedRow Item Time)}

/-- The items of a row are those of the list. -/
theorem PackInvariant.mem (packed : PackInvariant start finish items rows)
    {row : PackedRow Item Time} (isRow : row ∈ rows) {item : Item} (isItem : item ∈ row.items) :
    item ∈ items :=
  packed.perm.mem_iff.mp (List.mem_flatMap.mpr ⟨row, isRow, isItem⟩)

theorem PackInvariant.isPacking (packed : PackInvariant start finish items rows) :
    IsPacking start finish items (rows.map PackedRow.items) where
  perm := packed.perm
  follow row isRow := by
    obtain ⟨packedRow, member, rfl⟩ := List.mem_map.mp isRow
    exact (packed.sound packedRow member).follow

/-- A row that has ended goes on with another item. -/
theorem PackInvariant.continueRow {before after : List (PackedRow Item Time)}
    {row : PackedRow Item Time}
    (packed : PackInvariant start finish items (before ++ row :: after))
    (positive : ∀ item ∈ items, start item < finish item) {item : Item}
    (free : row.endsAt ≤ start item) :
    PackInvariant start finish (items ++ [item])
      (before ++ ⟨finish item, row.items ++ [item]⟩ :: after) := by
  obtain ⟨instant, crowded⟩ := packed.crowded
  have isRow : row ∈ before ++ row :: after := by simp
  have goesOn : PackedRow.Sound start finish ⟨finish item, row.items ++ [item]⟩ :=
    (packed.sound row isRow).concat (fun other member => positive other (packed.mem isRow member))
      free
  refine ⟨?_, fun any member => ?_, instant, ?_⟩
  · have moved : (after.flatMap PackedRow.items ++ [item]).Perm
        (item :: after.flatMap PackedRow.items) := List.perm_append_comm
    refine .trans ?_ (packed.perm.append_right [item])
    simpa using (moved.symm.append_left row.items).append_left (before.flatMap PackedRow.items)
  · rcases List.mem_append.mp member with early | late
    · exact packed.sound any (List.mem_append_left _ early)
    · rcases List.mem_cons.mp late with rfl | late
      · exact goesOn
      · exact packed.sound any (by simp [late])
  · refine le_trans ?_ (running_le_concat items item instant)
    simpa using crowded

/-- Where the last item of every row still runs when another one starts, that one has a row of its
own: with it, one item of every row runs. -/
theorem PackInvariant.openRow (packed : PackInvariant start finish items rows) {item : Item}
    (itemPositive : start item < finish item) (ordered : ∀ other ∈ items, start other ≤ start item)
    (full : ∀ row ∈ rows, start item < row.endsAt) :
    PackInvariant start finish (items ++ [item]) (rows ++ [⟨finish item, [item]⟩]) := by
  have runs : Runs start finish (start item) item := ⟨le_rfl, itemPositive⟩
  refine ⟨by simpa using packed.perm.append_right [item], fun any member => ?_, start item, ?_⟩
  · rcases List.mem_append.mp member with before | new
    · exact packed.sound any before
    · rw [List.mem_singleton.mp new]
      exact .single item
  · have taken : ∀ row ∈ rows.map PackedRow.items, ∃ last ∈ row,
        Runs start finish (start item) last := by
      intro rowItems member
      obtain ⟨row, isRow, rfl⟩ := List.mem_map.mp member
      obtain ⟨before, last, isItems, ends⟩ := (packed.sound row isRow).ends
      have isLast : last ∈ row.items := by simp [isItems]
      exact ⟨last, isLast, ordered last (packed.mem isRow isLast), ends ▸ full row isRow⟩
    have counted := packed.isPacking.le_running taken
    rw [List.length_map] at counted
    rw [running_concat_of_runs items runs, List.length_append]
    exact Nat.add_le_add_right counted 1

/-- An item that starts no earlier than those before it keeps the invariant. -/
theorem PackInvariant.packItem (packed : PackInvariant start finish items rows)
    (positive : ∀ item ∈ items, start item < finish item) {item : Item}
    (itemPositive : start item < finish item)
    (ordered : ∀ other ∈ items, start other ≤ start item) :
    PackInvariant start finish (items ++ [item]) (packItem start finish rows item) := by
  rw [PerfWeave.packItem]
  rcases placeFirstFit_cases (start item) (finish item) item rows with
    ⟨before, row, after, rfl, free, placed⟩ | ⟨full, placed⟩
  · rw [placed]
    exact packed.continueRow positive free
  · rw [placed]
    exact packed.openRow itemPositive ordered full

/-- Items in the order of their starts are packed with the invariant. -/
theorem pack_invariant [Nonempty Time] (positive : ∀ item ∈ items, start item < finish item)
    (ordered : items.Pairwise fun first second => start first ≤ start second) :
    PackInvariant start finish items (pack start finish items) := by
  induction items using List.reverseRecOn with
  | nil =>
    obtain ⟨instant⟩ := ‹Nonempty Time›
    exact ⟨.refl _, fun _ absent => absurd absent List.not_mem_nil, instant, Nat.zero_le _⟩
  | append_singleton items item inductionHypothesis =>
    obtain ⟨orderedBefore, -, orderedLast⟩ := List.pairwise_append.mp ordered
    have positiveBefore : ∀ other ∈ items, start other < finish other :=
      fun other member => positive other (List.mem_append_left _ member)
    rw [pack, run_concat]
    exact (inductionHypothesis positiveBefore orderedBefore).packItem positiveBefore
      (positive item (by simp)) fun other member => orderedLast other member item (by simp)

/-- Packed in the order of their starts, the items take as many rows as run at once at most. -/
theorem pack_isGreatest [Nonempty Time] (positive : ∀ item ∈ items, start item < finish item)
    (ordered : items.Pairwise fun first second => start first ≤ start second) :
    IsGreatest (Set.range (running start finish items)) (pack start finish items).length := by
  have packed := pack_invariant positive ordered
  have atMost : ∀ instant, running start finish items instant ≤
      (pack start finish items).length := by
    intro instant
    exact (packed.isPacking.running_le instant).trans_eq (List.length_map _)
  obtain ⟨instant, crowded⟩ := packed.crowded
  refine ⟨⟨instant, le_antisymm (atMost instant) crowded⟩, ?_⟩
  rintro count ⟨other, rfl⟩
  exact atMost other

/-- No partition into rows has fewer of them. -/
theorem pack_length_le [Nonempty Time] (positive : ∀ item ∈ items, start item < finish item)
    (ordered : items.Pairwise fun first second => start first ≤ start second)
    {rows : List (List Item)} (packing : IsPacking start finish items rows) :
    (pack start finish items).length ≤ rows.length := by
  obtain ⟨instant, crowded⟩ := (pack_invariant positive ordered).crowded
  exact crowded.trans (packing.running_le instant)

end PerfWeave
