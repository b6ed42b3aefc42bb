/-
This file models what the bars of the timeline are made of: `arrowToBatches` of
`web/src/timeline/Timeline.tsx` for the tiles of a historical load, beside `liveKernelsToBatches`
for the live kernels. Both collect bars in a map that keeps the order of insertion, so the batches
of a load stand in the order in which its lanes first occur, and those of the live kernels in the
order in which their GPUs do.
-/

import PerfWeave.Library.InsertionOrder
import PerfWeave.Web.Renderer

namespace PerfWeave

/-! ### Bars -/

/-- The arrays of an `InstanceBatch`, read bar by bar. -/
def zipBars (starts widths corrLo : List ℚ) : List Bar :=
  (starts.zip (widths.zip corrLo)).map fun bar => ⟨bar.1, bar.2.1, bar.2.2⟩

theorem zipBars_map {Item : Type} (items : List Item) (start width corrLo : Item → ℚ) :
    zipBars (items.map start) (items.map width) (items.map corrLo) =
      items.map fun item => ⟨start item, width item, corrLo item⟩ := by
  simp only [zipBars, List.zip_map', List.map_map]
  rfl

/-! ### The live kernels -/

/-- The bar of a live kernel. -/
def LiveKernel.bar (k : LiveKernel) : Bar :=
  ⟨k.tsNs, (max 1 k.durationNs : Nat), float32 k.nameLo⟩

/-- A batch as the renderer takes it. -/
def InstanceBatch.barBatch (b : InstanceBatch) : BarBatch where
  lane := b.lane
  colorId := b.colorId
  bars := zipBars (b.starts.map Nat.cast) (b.widths.map Nat.cast) (b.corrLo.map Nat.cast)

/-- The loop of `liveKernelsToBatches` groups kernels by their GPU. -/
def kernelGrouping : Grouping LiveKernel Nat GpuBars where
  keyOf := LiveKernel.gpuId
  empty := GpuBars.empty
  key := GpuBars.gpuId
  push := GpuBars.push
  key_empty _ := rfl
  key_push _ _ := rfl

theorem addKernel_eq : addKernel = kernelGrouping.insert := rfl

/-- The kernels of a GPU, in their order. -/
def kernelsOfGpu (kernels : List LiveKernel) (gpuId : Nat) : List LiveKernel :=
  kernels.filter fun k => k.gpuId = gpuId

theorem refs_foldl_push (kernels : List LiveKernel) (g : GpuBars) :
    (kernels.foldl GpuBars.push g).refs = g.refs ++ kernels := by
  induction kernels generalizing g with
  | nil => exact (List.append_nil _).symm
  | cons k rest inductionHypothesis =>
    rw [List.foldl_cons, inductionHypothesis, GpuBars.push, List.append_assoc]
    rfl

theorem refs_groupOf (kernels : List LiveKernel) (gpuId : Nat) :
    (kernelGrouping.groupOf kernels gpuId).refs = kernelsOfGpu kernels gpuId :=
  refs_foldl_push _ _

theorem bars_of_built {kernels : List LiveKernel} {g : GpuBars} (built : g.Built kernels)
    (lanesPerGpu : Nat) : (g.batch lanesPerGpu).barBatch.bars = g.refs.map LiveKernel.bar := by
  rw [InstanceBatch.barBatch, GpuBars.batch, built.s, built.w, built.nameLo, List.map_map,
    List.map_map, List.map_map, List.map_map]
  exact zipBars_map g.refs _ _ _

/-- The kernels stand beside the batches GPU by GPU, in the order in which the GPUs first occur. -/
theorem kernelsByBatch_eq (kernels : List LiveKernel) (lanesPerGpu : Nat) :
    (liveKernelsToBatches kernels lanesPerGpu).kernelsByBatch =
      (kernelGrouping.keys kernels).map (kernelsOfGpu kernels) := by
  rw [liveKernelsToBatches, addKernel_eq, kernelGrouping.foldl_insert]
  exact List.map_map.trans (List.map_congr_left fun gpuId _ => refs_groupOf kernels gpuId)

/-- The bars of a batch are those of the kernels beside it. -/
theorem bars_liveKernelsToBatches (kernels : List LiveKernel) (lanesPerGpu : Nat) :
    (liveKernelsToBatches kernels lanesPerGpu).batches.map (fun b => b.barBatch.bars) =
      (liveKernelsToBatches kernels lanesPerGpu).kernelsByBatch.map (List.map LiveKernel.bar) := by
  rw [liveKernelsToBatches, List.map_map, List.map_map]
  exact List.map_congr_left fun g member => bars_of_built (built_perGpu kernels g member) _

/-! ### Historical loads -/

/-- A row of the activity tiles, by the columns that are read. -/
structure ActivityRow where
  bucketStartNs : UInt64
  bucketWidthNs : UInt64
  gpuId : UInt8
  category : UInt8
  topNameId : UInt64

/-- `Number` of a column of words. -/
def numberOfWord (word : UInt64) : Nat := roundSignificant 53 word.toNat

/-- A 32-bit float that holds a signed integer. -/
def signedFloat32 (n : Int) : ℚ := n.sign * float32 n.natAbs

/-- The lane of a category among those of its GPU, and its color; none where the loop goes on. -/
def categoryLane (category : UInt8) : Option (Nat × Nat) :=
  match category.toNat with
  | 3 => some (metricSlots + 0, 0)
  | 4 | 5 => some (metricSlots + 1, 1)
  | 2 => some (metricSlots + 2, 2)
  | _ => none

/-- A group of tiles: the entry of a key in `groups`. -/
structure TileGroup where
  key : Nat
  s : List Nat
  w : List Nat
  corr : List Int
  color : Nat

namespace TileGroup

/-- A group without tiles. -/
def empty (key color : Nat) : TileGroup := ⟨key, [], [], [], color⟩

/-- One more tile of the group. -/
def push (g : TileGroup) (row : ActivityRow) : TileGroup :=
  { g with
    s := g.s ++ [numberOfWord row.bucketStartNs]
    w := g.w ++ [numberOfWord row.bucketWidthNs]
    corr := g.corr ++ [toInt32 (numberOfWord row.topNameId)] }

/-- The batch of the group. -/
def batch (g : TileGroup) : BarBatch where
  lane := g.key / 10
  colorId := g.color
  bars := zipBars (g.s.map Nat.cast) (g.w.map Nat.cast) (g.corr.map signedFloat32)

end TileGroup

/-- The loop of `arrowToBatches` over one row. -/
def addTile (lanesPerGpu : Nat) (groups : List TileGroup) (row : ActivityRow) : List TileGroup :=
  match categoryLane row.category with
  | none => groups
  | some (laneOffset, color) =>
    let laneIdx := row.gpuId.toNat * lanesPerGpu + laneOffset
    let key := laneIdx * 10 + color
    if groups.any (·.key = key) then
      groups.map fun g => if g.key = key then g.push row else g
    else groups ++ [(TileGroup.empty key color).push row]

/-- `arrowToBatches`. -/
def arrowToBatches (table : List ActivityRow) (lanesPerGpu : Nat) : List BarBatch :=
  (table.foldl (addTile lanesPerGpu) []).map TileGroup.batch

/-- The key of the group of a row, when it is shown. -/
def ActivityRow.key (lanesPerGpu : Nat) (row : ActivityRow) : Option Nat :=
  (categoryLane row.category).map fun place =>
    (row.gpuId.toNat * lanesPerGpu + place.1) * 10 + place.2

/-- The rows that are shown, with their keys. -/
def keyedRows (lanesPerGpu : Nat) (table : List ActivityRow) : List (Nat × ActivityRow) :=
  table.filterMap fun row => (row.key lanesPerGpu).map fun key => (key, row)

/-- The loop of `arrowToBatches` groups the rows by their keys; a key ends with its color. -/
def tileGrouping : Grouping (Nat × ActivityRow) Nat TileGroup where
  keyOf := Prod.fst
  empty key := TileGroup.empty key (key % 10)
  key := TileGroup.key
  push g tile := g.push tile.2
  key_empty _ := rfl
  key_push _ _ := rfl

/-- The colors are digits. -/
theorem color_lt {category : UInt8} {place : Nat × Nat}
    (isPlace : categoryLane category = some place) : place.2 < 10 := by
  unfold categoryLane at isPlace
  split at isPlace <;> first | cases isPlace; decide | cases isPlace

theorem foldl_addTile (lanesPerGpu : Nat) (table : List ActivityRow) (groups : List TileGroup) :
    table.foldl (addTile lanesPerGpu) groups =
      (keyedRows lanesPerGpu table).foldl tileGrouping.insert groups := by
  rw [keyedRows, List.foldl_filterMap]
  congr 1
  funext groups row
  cases isPlace : categoryLane row.category with
  | none => simp only [addTile, ActivityRow.key, isPlace, Option.map_none]
  | some place =>
    have digit := color_lt isPlace
    have color : ((row.gpuId.toNat * lanesPerGpu + place.1) * 10 + place.2) % 10 = place.2 := by
      omega
    simp only [addTile, ActivityRow.key, isPlace, Option.map_some, Grouping.insert, tileGrouping,
      color]
    rfl

/-- The lanes in which the rows of a table are shown, in the order in which they first occur. -/
def activityLanes (lanesPerGpu : Nat) (table : List ActivityRow) : List Nat :=
  (table.filterMap (ActivityRow.key lanesPerGpu)).eraseDups.map (· / 10)

theorem keys_keyedRows (lanesPerGpu : Nat) (table : List ActivityRow) :
    tileGrouping.keys (keyedRows lanesPerGpu table) =
      (table.filterMap (ActivityRow.key lanesPerGpu)).eraseDups := by
  rw [Grouping.keys, keyedRows, List.map_filterMap]
  simp [tileGrouping, Function.comp_def]

/-- The batches of a load, lane by lane. -/
theorem arrowToBatches_eq (table : List ActivityRow) (lanesPerGpu : Nat) :
    arrowToBatches table lanesPerGpu =
      (tileGrouping.keys (keyedRows lanesPerGpu table)).map fun key =>
        (tileGrouping.groupOf (keyedRows lanesPerGpu table) key).batch := by
  rw [arrowToBatches, foldl_addTile, Grouping.foldl_insert, List.map_map]
  rfl

theorem lane_arrowToBatches (table : List ActivityRow) (lanesPerGpu : Nat) :
    (arrowToBatches table lanesPerGpu).map BarBatch.lane = activityLanes lanesPerGpu table := by
  rw [arrowToBatches_eq, keys_keyedRows, List.map_map, activityLanes]
  refine List.map_congr_left fun key _ => ?_
  exact congrArg (· / 10) (tileGrouping.key_groupOf (keyedRows lanesPerGpu table) key)

/-- The bar of a row. -/
def ActivityRow.bar (row : ActivityRow) : Bar where
  startNs := numberOfWord row.bucketStartNs
  widthNs := numberOfWord row.bucketWidthNs
  corrLo := signedFloat32 (toInt32 (numberOfWord row.topNameId))

/-- A group that holds the arrays of some rows goes on with those of more rows. -/
theorem bars_foldl_push (tiles : List (Nat × ActivityRow)) {g : TileGroup} {rows : List ActivityRow}
    (s : g.s = rows.map fun row => numberOfWord row.bucketStartNs)
    (w : g.w = rows.map fun row => numberOfWord row.bucketWidthNs)
    (corr : g.corr = rows.map fun row => toInt32 (numberOfWord row.topNameId)) :
    (tiles.foldl tileGrouping.push g).batch.bars =
      (rows ++ tiles.map Prod.snd).map ActivityRow.bar := by
  induction tiles generalizing g rows with
  | nil =>
    rw [List.map_nil, List.append_nil, List.foldl_nil, TileGroup.batch, s, w, corr, List.map_map,
      List.map_map, List.map_map]
    exact zipBars_map rows _ _ _
  | cons tile rest inductionHypothesis =>
    rw [List.foldl_cons, List.map_cons, List.append_cons]
    refine inductionHypothesis ?_ ?_ ?_
    · simp [tileGrouping, TileGroup.push, s]
    · simp [tileGrouping, TileGroup.push, w]
    · simp [tileGrouping, TileGroup.push, corr]

/-- The bars of a lane are those of its rows, in their order. -/
theorem bars_groupOf (tiles : List (Nat × ActivityRow)) (key : Nat) :
    (tileGrouping.groupOf tiles key).batch.bars =
      ((tiles.filter fun tile => tile.1 = key).map fun tile => tile.2.bar) := by
  refine (@bars_foldl_push _ (TileGroup.empty key (key % 10)) [] rfl rfl rfl).trans ?_
  rw [List.nil_append, List.map_map]
  rfl

/-- A batch of a load shows some bar, and none of a negative width. -/
theorem bars_arrowToBatches {table : List ActivityRow} {lanesPerGpu : Nat} {batch : BarBatch}
    (member : batch ∈ arrowToBatches table lanesPerGpu) :
    batch.bars ≠ [] ∧ ∀ bar ∈ batch.bars, 0 ≤ bar.widthNs := by
  rw [arrowToBatches_eq] at member
  obtain ⟨key, isKey, rfl⟩ := List.mem_map.mp member
  rw [bars_groupOf]
  constructor
  · obtain ⟨tile, isTile, rfl⟩ := List.mem_map.mp (tileGrouping.mem_keys.mp isKey)
    intro none
    have absent := List.filter_eq_nil_iff.mp (List.map_eq_nil_iff.mp none) tile isTile
    exact absent (decide_eq_true rfl)
  · intro bar isBar
    obtain ⟨tile, _, rfl⟩ := List.mem_map.mp isBar
    exact Nat.cast_nonneg _

end PerfWeave
