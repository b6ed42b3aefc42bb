/-
This file builds `tiles_activity` as the store keeps it: partial aggregates. The views turn every
block of events that is inserted into rows with a count, a sum and a maximum; the
AggregatingMergeTree combines rows with the same sorting key whenever it merges two parts; and the
activity query merges what it finds. However the events were cut into blocks and whatever was
merged before the query, it serves what it would serve over the rows as the views insert them, one
for each event and view.
-/

import PerfWeave.Library.MergeTree
import PerfWeave.Server.Tiles

namespace PerfWeave

variable {Value : Type}

/-! ### Rows of partial aggregates -/

/-- The sorting key of `tiles_activity`. -/
structure TileKey where
  bucketWidthNs : UInt64
  nodeId : UInt32
  gpuId : UInt8
  category : Int8
  bucketStartNs : UInt64
  deriving DecidableEq

/-- The sorting key of a row. -/
def ActivityTile.key (tile : ActivityTile) : TileKey where
  bucketWidthNs := tile.bucketWidthNs
  nodeId := tile.nodeId
  gpuId := tile.gpuId
  category := tile.category
  bucketStartNs := tile.bucketStartNs

/-- The aggregates of two rows with one key. -/
def ActivityTile.combine (older newer : ActivityTile) : ActivityTile where
  bucketStartNs := newer.bucketStartNs
  bucketWidthNs := newer.bucketWidthNs
  nodeId := newer.nodeId
  gpuId := newer.gpuId
  category := newer.category
  count := older.count + newer.count
  sumDurationNs := older.sumDurationNs + newer.sumDurationNs
  maxDurationNs := max older.maxDurationNs newer.maxDurationNs

instance UInt64.associative_max : Std.Associative (max : UInt64 → UInt64 → UInt64) :=
  ⟨fun first second third => UInt64.toNat_inj.mp (by
    rw [UInt64.toNat_max, UInt64.toNat_max, UInt64.toNat_max, UInt64.toNat_max, max_assoc])⟩

instance UInt64.commutative_max : Std.Commutative (max : UInt64 → UInt64 → UInt64) :=
  ⟨fun first second => UInt64.toNat_inj.mp (by
    rw [UInt64.toNat_max, UInt64.toNat_max, max_comm])⟩

instance UInt64.lawfulIdentity_max : Std.LawfulIdentity (max : UInt64 → UInt64 → UInt64) 0 where
  left_id value := UInt64.toNat_inj.mp (by rw [UInt64.toNat_max]; exact Nat.zero_max _)
  right_id value := UInt64.toNat_inj.mp (by rw [UInt64.toNat_max]; exact Nat.max_zero _)

/-- How `tiles_activity` combines its rows. -/
def tilesActivity : Collapsing TileKey ActivityTile where
  key := ActivityTile.key
  combine := ActivityTile.combine
  key_combine _ _ _ := rfl
  combine_assoc first second third := by
    unfold ActivityTile.combine
    rw [Nat.add_assoc, UInt64.add_assoc,
      @Std.Associative.assoc _ (max : UInt64 → UInt64 → UInt64)]

theorem additive_count : tilesActivity.Additive (· + ·) ActivityTile.count := fun _ _ => rfl

theorem additive_sum : tilesActivity.Additive (· + ·) ActivityTile.sumDurationNs := fun _ _ => rfl

theorem additive_max : tilesActivity.Additive max ActivityTile.maxDurationNs := fun _ _ => rfl

/-! ### Filling the table -/

/-- What happens to the store: a block of events is inserted, or two parts of the tiles merge. -/
inductive TileInput (Value : Type) where
  | insertEvents (rows : List (EventRow Value))
  | merge (index : Nat)

/-- The operations on `tiles_activity` that an input leads to: every view inserts its rows. -/
def TileInput.ops (views : List TileView) : TileInput Value → List (Collapsing.Op ActivityTile)
  | .insertEvents rows =>
    (views.filter fun view => view.target = .activity).map fun view => .insert (viewRows rows view)
  | .merge index => [.merge index]

/-- The events an input inserts. -/
def TileInput.events : TileInput Value → List (EventRow Value)
  | .insertEvents rows => rows
  | .merge _ => []

/-- The rows of `tiles_activity` after a run. -/
def tilesAfter (views : List TileView) (inputs : List (TileInput Value)) : List ActivityTile :=
  tilesActivity.contents (inputs.flatMap (TileInput.ops views))

/-! ### What the query can see -/

/-- Filters on the GPU and the category as filters on a row. -/
def onTile (selected : UInt8 → Int8 → Bool) (tile : ActivityTile) : Bool :=
  selected tile.gpuId tile.category

/-- The `WHERE` clause of the query, on the sorting key. -/
def TileKey.inWindow (startNs endNs widthNs : UInt64) (selected : UInt8 → Int8 → Bool)
    (key : TileKey) : Bool :=
  key.bucketWidthNs = widthNs && startNs ≤ key.bucketStartNs && key.bucketStartNs < endNs &&
    selected key.gpuId key.category

theorem TileKey.inWindow_iff {startNs endNs widthNs : UInt64} {selected : UInt8 → Int8 → Bool}
    {key : TileKey} :
    key.inWindow startNs endNs widthNs selected = true ↔
      key.bucketWidthNs = widthNs ∧ startNs ≤ key.bucketStartNs ∧ key.bucketStartNs < endNs ∧
        selected key.gpuId key.category = true := by
  unfold TileKey.inWindow
  simp [and_assoc]

/-- The columns the query groups by, of a sorting key. -/
def TileKey.group (key : TileKey) : UInt64 × UInt8 × Int8 × UInt64 :=
  (key.bucketStartNs, key.gpuId, key.category, key.bucketWidthNs)

theorem serveActivity_eq (startNs endNs : UInt64) (pixels : UInt32)
    (selected : UInt8 → Int8 → Bool) (tiles : List ActivityTile) :
    serveActivity startNs endNs pixels (onTile selected) tiles =
      (groupKeys ActivityTile.group (tiles.filter fun tile =>
        tile.key.inWindow startNs endNs (activityWidth startNs endNs pixels) selected)).map
          (.ofGroup (tiles.filter fun tile =>
            tile.key.inWindow startNs endNs (activityWidth startNs endNs pixels) selected)) :=
  rfl

theorem ofGroup_eq (tiles : List ActivityTile) (group : UInt64 × UInt8 × Int8 × UInt64) :
    ActivityTileRow.ofGroup tiles group =
      { bucketStartNs := group.1
        bucketWidthNs := group.2.2.2
        gpuId := group.2.1
        category := group.2.2.1
        count := total (· + ·) 0 ActivityTile.count (tiles.filter fun tile => tile.group = group)
        sumDurationNs :=
          total (· + ·) 0 ActivityTile.sumDurationNs (tiles.filter fun tile => tile.group = group)
        maxDurationNs :=
          total max 0 ActivityTile.maxDurationNs (tiles.filter fun tile => tile.group = group) } :=
  rfl

/-- Two tables that agree on the totals of every condition on the sorting key, and on the keys
that occur, are served alike. -/
theorem serveActivity_perm {first second : List ActivityTile}
    (keys : ∀ key, (∃ tile ∈ first, tile.key = key) ↔ ∃ tile ∈ second, tile.key = key)
    (counts : ∀ condition : TileKey → Bool,
      total (· + ·) 0 ActivityTile.count (first.filter fun tile => condition tile.key) =
        total (· + ·) 0 ActivityTile.count (second.filter fun tile => condition tile.key))
    (sums : ∀ condition : TileKey → Bool,
      total (· + ·) 0 ActivityTile.sumDurationNs (first.filter fun tile => condition tile.key) =
        total (· + ·) 0 ActivityTile.sumDurationNs (second.filter fun tile => condition tile.key))
    (largest : ∀ condition : TileKey → Bool,
      total max 0 ActivityTile.maxDurationNs (first.filter fun tile => condition tile.key) =
        total max 0 ActivityTile.maxDurationNs (second.filter fun tile => condition tile.key))
    (startNs endNs : UInt64) (pixels : UInt32) (selected : UInt8 → Int8 → Bool) :
    (serveActivity startNs endNs pixels (onTile selected) first).Perm
      (serveActivity startNs endNs pixels (onTile selected) second) := by
  set condition := TileKey.inWindow startNs endNs (activityWidth startNs endNs pixels) selected
  rw [serveActivity_eq, serveActivity_eq]
  have rows : ∀ group, ActivityTileRow.ofGroup (first.filter fun tile => condition tile.key)
      group = .ofGroup (second.filter fun tile => condition tile.key) group := by
    intro group
    have ofGroup : ∀ tiles : List ActivityTile,
        (tiles.filter fun tile => condition tile.key).filter (fun tile => tile.group = group) =
          tiles.filter fun tile => decide (tile.key.group = group) && condition tile.key :=
      fun tiles => List.filter_filter
    rw [ofGroup_eq, ofGroup_eq]
    simp only [ofGroup]
    rw [counts fun key => decide (key.group = group) && condition key,
      sums fun key => decide (key.group = group) && condition key,
      largest fun key => decide (key.group = group) && condition key]
  have groupOf : ∀ (tiles : List ActivityTile) group,
      group ∈ groupKeys ActivityTile.group (tiles.filter fun tile => condition tile.key) ↔
        ∃ key : TileKey, (∃ tile ∈ tiles, tile.key = key) ∧ condition key ∧
          key.group = group := by
    intro tiles group
    rw [mem_groupKeys_iff]
    constructor
    · rintro ⟨tile, member, same⟩
      obtain ⟨inTiles, holds⟩ := List.mem_filter.mp member
      exact ⟨tile.key, ⟨tile, inTiles, rfl⟩, holds, same⟩
    · rintro ⟨_, ⟨tile, inTiles, rfl⟩, holds, same⟩
      exact ⟨tile, List.mem_filter.mpr ⟨inTiles, holds⟩, same⟩
  rw [List.map_congr_left fun group _ => rows group]
  refine List.Perm.map _ ((List.perm_ext_iff_of_nodup (List.nodup_dedup _)
    (List.nodup_dedup _)).mpr fun group => ?_)
  show group ∈ groupKeys ActivityTile.group _ ↔ group ∈ groupKeys ActivityTile.group _
  rw [groupOf, groupOf]
  exact exists_congr fun key => and_congr_left fun _ => keys key

theorem serveActivity_contents (ops : List (Collapsing.Op ActivityTile)) (startNs endNs : UInt64)
    (pixels : UInt32) (selected : UInt8 → Int8 → Bool) :
    (serveActivity startNs endNs pixels (onTile selected) (tilesActivity.contents ops)).Perm
      (serveActivity startNs endNs pixels (onTile selected)
        (ops.flatMap Collapsing.Op.inserted)) := by
  refine serveActivity_perm (fun key => ?_)
    (fun condition => tilesActivity.observe_contents
      (tilesActivity.blind_total additive_count condition) ops)
    (fun condition => tilesActivity.observe_contents
      (tilesActivity.blind_total additive_sum condition) ops)
    (fun condition => tilesActivity.observe_contents
      (tilesActivity.blind_total additive_max condition) ops) startNs endNs pixels selected
  exact ((tilesActivity.isSome_reading_iff _ key).symm.trans (by
    rw [tilesActivity.reading_contents])).trans (tilesActivity.isSome_reading_iff _ key)

theorem serveActivity_of_perm {first second : List ActivityTile} (same : first.Perm second)
    (startNs endNs : UInt64) (pixels : UInt32) (selected : UInt8 → Int8 → Bool) :
    (serveActivity startNs endNs pixels (onTile selected) first).Perm
      (serveActivity startNs endNs pixels (onTile selected) second) :=
  serveActivity_perm (fun _ => exists_congr fun _ => and_congr_left fun _ => same.mem_iff)
    (fun _ => total_perm _ (same.filter _)) (fun _ => total_perm _ (same.filter _))
    (fun _ => total_perm _ (same.filter _)) startNs endNs pixels selected

/-! ### The rows inserted -/

theorem activityTiles_append (views : List TileView) (first second : List (EventRow Value)) :
    (activityTiles views first ++ activityTiles views second).Perm
      (activityTiles views (first ++ second)) := by
  unfold activityTiles
  refine (List.flatMap_append_perm _ _ _).trans (List.Perm.of_eq ?_)
  refine List.flatMap_congr fun view _ => ?_
  rw [viewRows, viewRows, viewRows, List.filter_append, List.map_append]

theorem insertEvents_inserted (views : List TileView) (rows : List (EventRow Value)) :
    ((TileInput.insertEvents rows).ops views).flatMap Collapsing.Op.inserted =
      activityTiles views rows := by
  unfold TileInput.ops activityTiles
  rw [List.flatMap_map]
  rfl

/-- Over a run the views insert what they insert for the events one by one, up to order. -/
theorem inserted_perm (views : List TileView) (inputs : List (TileInput Value)) :
    ((inputs.flatMap (TileInput.ops views)).flatMap Collapsing.Op.inserted).Perm
      (activityTiles views (inputs.flatMap TileInput.events)) := by
  induction inputs with
  | nil =>
    refine List.Perm.of_eq ?_
    show [] = (views.filter _).flatMap fun _ => []
    exact (List.flatMap_eq_nil_iff.mpr fun _ _ => rfl).symm
  | cons input rest inductionHypothesis =>
    rw [List.flatMap_cons, List.flatMap_append, List.flatMap_cons]
    cases input with
    | insertEvents rows =>
      rw [insertEvents_inserted]
      exact (inductionHypothesis.append_left _).trans (activityTiles_append views rows _)
    | merge index => exact inductionHypothesis

/-- Blocks and merges do not show. -/
theorem serveActivity_tilesAfter (views : List TileView) (inputs : List (TileInput Value))
    (startNs endNs : UInt64) (pixels : UInt32) (selected : UInt8 → Int8 → Bool) :
    (serveActivity startNs endNs pixels (onTile selected) (tilesAfter views inputs)).Perm
      (serveActivity startNs endNs pixels (onTile selected)
        (activityTiles views (inputs.flatMap TileInput.events))) :=
  (serveActivity_contents _ startNs endNs pixels selected).trans
    (serveActivity_of_perm (inserted_perm views inputs) startNs endNs pixels selected)

/-! ### The rows of a query -/

/-- A query of some window, width and filters selects what a view inserts for an event. -/
structure TileView.Shows (startNs endNs widthNs : UInt64) (selected : UInt8 → Int8 → Bool)
    (view : TileView) (event : EventRow Value) : Prop where
  target : view.target = .activity
  activity : event.category ≠ categoryToI8 .metric
  width : view.writtenWidth = widthNs
  inWindow : startNs ≤ (view.insert event).bucketStartNs ∧
    (view.insert event).bucketStartNs < endNs
  chosen : selected event.gpuId event.category

/-- The columns a served row was grouped by. -/
def ActivityTileRow.group (row : ActivityTileRow) : UInt64 × UInt8 × Int8 × UInt64 :=
  (row.bucketStartNs, row.gpuId, row.category, row.bucketWidthNs)

theorem groups_eq_iff (row : ActivityTileRow) (view : TileView) (event : EventRow Value) :
    (view.insert event).group = row.group ↔
      (view.insert event).bucketStartNs = row.bucketStartNs ∧ event.gpuId = row.gpuId ∧
        event.category = row.category ∧ view.writtenWidth = row.bucketWidthNs := by
  simp only [ActivityTileRow.group, ActivityTile.group, Prod.mk.injEq]
  exact Iff.rfl

theorem mem_serveActivity_iff (views : List TileView) (events : List (EventRow Value))
    (startNs endNs : UInt64) (pixels : UInt32) (selected : UInt8 → Int8 → Bool)
    (group : UInt64 × UInt8 × Int8 × UInt64) :
    (∃ row ∈ serveActivity startNs endNs pixels (onTile selected) (activityTiles views events),
        row.group = group) ↔
      ∃ view ∈ views, ∃ event ∈ events,
        view.Shows startNs endNs (activityWidth startNs endNs pixels) selected event ∧
          (view.insert event).group = group := by
  have members : (∃ row ∈ serveActivity startNs endNs pixels (onTile selected)
        (activityTiles views events), row.group = group) ↔
      group ∈ groupKeys ActivityTile.group ((activityTiles views events).filter fun tile =>
        tile.key.inWindow startNs endNs (activityWidth startNs endNs pixels) selected) := by
    rw [serveActivity_eq]
    constructor
    · rintro ⟨row, member, rfl⟩
      obtain ⟨other, isGroup, rfl⟩ := List.mem_map.mp member
      exact isGroup
    · exact fun isGroup => ⟨_, List.mem_map.mpr ⟨group, isGroup, rfl⟩, rfl⟩
  rw [members, mem_groupKeys_iff]
  constructor
  · rintro ⟨tile, member, rfl⟩
    obtain ⟨isTile, window⟩ := List.mem_filter.mp member
    obtain ⟨view, kept, written⟩ := List.mem_flatMap.mp isTile
    obtain ⟨isView, target⟩ := List.mem_filter.mp kept
    obtain ⟨event, isEvent, rfl⟩ := List.mem_map.mp written
    obtain ⟨stored, activity⟩ := List.mem_filter.mp isEvent
    obtain ⟨width, fromStart, beforeEnd, chosen⟩ := TileKey.inWindow_iff.mp window
    exact ⟨view, isView, event, stored, ⟨of_decide_eq_true target, of_decide_eq_true activity,
      width, ⟨fromStart, beforeEnd⟩, chosen⟩, rfl⟩
  · rintro ⟨view, isView, event, stored, shows, rfl⟩
    refine ⟨view.insert event, List.mem_filter.mpr ⟨List.mem_flatMap.mpr
      ⟨view, List.mem_filter.mpr ⟨isView, decide_eq_true shows.target⟩, List.mem_map.mpr
        ⟨event, List.mem_filter.mpr ⟨stored, decide_eq_true shows.activity⟩, rfl⟩⟩,
      TileKey.inWindow_iff.mpr ⟨shows.width, shows.inWindow.1, shows.inWindow.2,
        shows.chosen⟩⟩, rfl⟩

/-! ### Views with and without aliases -/

/-- A query asks for one of the widths of the pyramid. -/
theorem activityWidth_mem_tileWidthsNs (startNs endNs : UInt64) (pixels : UInt32) :
    activityWidth startNs endNs pixels ∈ tileWidthsNs := by
  unfold activityWidth chooseTile
  by_cases noPixels : pixels = 0
  · rw [if_pos noPixels]
    decide
  · rw [if_neg noPixels]
    dsimp only
    cases picked : tileWidthsNs.find? fun width =>
        decide ((endNs - startNs) / pixels.toUInt64 ≤ width) with
    | none => decide
    | some width => exact List.mem_of_find?_eq_some picked

theorem activityWidth_ne_zero (startNs endNs : UInt64) (pixels : UInt32) :
    activityWidth startNs endNs pixels ≠ 0 := fun zero =>
  absurd (zero ▸ activityWidth_mem_tileWidthsNs startNs endNs pixels) (by decide)

/-- A view has an alias for every column it computes. -/
def TileView.isAliased (view : TileView) : Bool :=
  [.bucketStartNs, .bucketWidthNs, .count, .sumDurationNs, .maxDurationNs].all fun column =>
    column ∈ view.aliased

/-- The events themselves as rows of the table, once for each view with aliases. -/
def directTiles (views : List TileView) (rows : List (EventRow Value)) : List ActivityTile :=
  (views.filter fun view => view.target = .activity && view.isAliased).flatMap fun view =>
    (rows.filter fun row => row.category ≠ categoryToI8 .metric).map (.ofRow view.widthNs)

theorem TileView.insert_of_isAliased {view : TileView} (isAliased : view.isAliased = true)
    (row : EventRow Value) : view.insert row = .ofRow view.widthNs row := by
  have has := List.all_eq_true.mp isAliased
  simp only [List.mem_cons, List.not_mem_nil, or_false, forall_eq_or_imp, forall_eq,
    decide_eq_true_eq] at has
  obtain ⟨start, width, count, sum, largest⟩ := has
  simp only [TileView.insert, if_pos start, if_pos width, if_pos count, if_pos sum, if_pos largest]

/-- Of views that have all the aliases or none for the width, those with aliases alone are seen. -/
theorem filter_activityTiles {views : List TileView}
    (allOrNone : ∀ view ∈ views, view.isAliased = true ∨ view.writtenWidth = 0)
    {seen : ActivityTile → Bool} (positive : ∀ tile, seen tile = true → tile.bucketWidthNs ≠ 0)
    (rows : List (EventRow Value)) :
    (activityTiles views rows).filter seen = (directTiles views rows).filter seen := by
  unfold activityTiles directTiles
  induction views with
  | nil => rfl
  | cons view rest inductionHypothesis =>
    have later := inductionHypothesis fun other member =>
      allOrNone other (List.mem_cons_of_mem _ member)
    by_cases target : view.target = .activity
    · rw [List.filter_cons_of_pos (by simpa using target), List.flatMap_cons, List.filter_append,
        later]
      by_cases isAliased : view.isAliased = true
      · rw [List.filter_cons_of_pos (by simp [target, isAliased]), List.flatMap_cons,
          List.filter_append]
        refine congrArg (· ++ _) (congrArg (List.filter seen) ?_)
        exact List.map_congr_left fun row _ => view.insert_of_isAliased isAliased row
      · rw [List.filter_cons_of_neg (by simp [isAliased])]
        have unseen : (viewRows rows view).filter seen = [] := by
          refine List.filter_eq_nil_iff.mpr fun tile member isSeen => positive tile isSeen ?_
          obtain ⟨row, _, rfl⟩ := List.mem_map.mp member
          exact (allOrNone view List.mem_cons_self).resolve_left isAliased
        rw [unseen, List.nil_append]
    · rw [List.filter_cons_of_neg (by simpa using target),
        List.filter_cons_of_neg (by simp [target])]
      exact later

/-- The rows a query sees are of a width, which is not zero. -/
theorem bucketWidthNs_ne_zero_of_inWindow {startNs endNs : UInt64} {pixels : UInt32}
    {selected : UInt8 → Int8 → Bool} (tile : ActivityTile)
    (seen : tile.key.inWindow startNs endNs (activityWidth startNs endNs pixels) selected = true) :
    tile.bucketWidthNs ≠ 0 := by
  have width : tile.bucketWidthNs = activityWidth startNs endNs pixels :=
    (TileKey.inWindow_iff.mp seen).1
  rw [width]
  exact activityWidth_ne_zero startNs endNs pixels

/-- Over views that have all the aliases or none for the bucket width, the query refines the
direct aggregation of the events: whatever blocks they came in and whatever was merged, it serves
what it would serve over the events themselves, once for each view with aliases. -/
theorem tilesAfter_serves (views : List TileView)
    (allOrNone : ∀ view ∈ views, view.isAliased = true ∨ view.writtenWidth = 0)
    (inputs : List (TileInput Value)) (startNs endNs : UInt64) (pixels : UInt32)
    (selected : UInt8 → Int8 → Bool) :
    (serveActivity startNs endNs pixels (onTile selected) (tilesAfter views inputs)).Perm
      (serveActivity startNs endNs pixels (onTile selected)
        (directTiles views (inputs.flatMap TileInput.events))) := by
  refine (serveActivity_tilesAfter views inputs startNs endNs pixels selected).trans
    (List.Perm.of_eq ?_)
  rw [serveActivity_eq, serveActivity_eq,
    filter_activityTiles allOrNone bucketWidthNs_ne_zero_of_inWindow]

/-- A row of a kernel at a time. -/
def kernelRowAt [Zero Value] (tsNs : UInt64) : EventRow Value :=
  .ofEvent {
    tsNs := tsNs, durationNs := 50, nodeId := 1, gpuId := 0, pid := 7, tid := 7, ctxId := 1
    streamId := 3, category := Category.kernel.asI32, nameId := 11, correlationId := 5
    parentId := 0, payload := none }

/-- The view of the finest width beside those the migrations leave, over two blocks with a merge
between them. -/
theorem tilesAfter_serves_microseconds :
    (serveActivity 0 1000000 1000 (onTile fun _ _ => true)
      (tilesAfter (microsecondView :: migratedViews)
        [.insertEvents [(kernelRowAt 5000 : EventRow Nat), kernelRowAt 5020], .merge 0,
          .insertEvents [kernelRowAt 5040]])).Perm
      (serveActivity 0 1000000 1000 (onTile fun _ _ => true)
        (directTiles (microsecondView :: migratedViews)
          [(kernelRowAt 5000 : EventRow Nat), kernelRowAt 5020, kernelRowAt 5040])) :=
  tilesAfter_serves (microsecondView :: migratedViews) (by decide)
    [.insertEvents [kernelRowAt 5000, kernelRowAt 5020], .merge 0, .insertEvents [kernelRowAt 5040]]
    0 1000000 1000 fun _ _ => true

end PerfWeave
