/-
This file follows stored events to the bars of a historical load: the views aggregate them, the
activity query groups the aggregates, the server turns its rows into the columns of an Arrow batch,
the client reads the columns row by row, and `arrowToBatches` makes bars of the rows. The result
says which bars that draws: exactly those of the buckets that some view wrote, in the queried width,
for a stored event of the lane's categories. The views that the migrations leave write none.
-/

import PerfWeave.Server.TileCoverage
import PerfWeave.Server.TileStore
import PerfWeave.Web.Hover

namespace PerfWeave

variable {Value : Type}

/-! ### Columns -/

/-- `ActivityTileRows`, which is also the schema of the batch. -/
structure ActivityColumns where
  bucketStartNs : List UInt64
  bucketWidthNs : List UInt64
  gpuId : List UInt8
  category : List UInt8
  count : List UInt64
  sumDurationNs : List UInt64
  maxDurationNs : List UInt64
  topNameId : List UInt64

namespace ActivityColumns

/-- `ActivityTileRows::default()`. -/
def empty : ActivityColumns := ⟨[], [], [], [], [], [], [], []⟩

/-- One row more in every column. The top name is an element of the query's approximate `topK`. -/
def push (topName : ActivityTileRow → UInt64) (columns : ActivityColumns) (row : ActivityTileRow) :
    ActivityColumns where
  bucketStartNs := columns.bucketStartNs ++ [row.bucketStartNs]
  bucketWidthNs := columns.bucketWidthNs ++ [row.bucketWidthNs]
  gpuId := columns.gpuId ++ [row.gpuId]
  category := columns.category ++ [row.category.toUInt8]
  count := columns.count ++ [UInt64.ofNat row.count]
  sumDurationNs := columns.sumDurationNs ++ [row.sumDurationNs]
  maxDurationNs := columns.maxDurationNs ++ [row.maxDurationNs]
  topNameId := columns.topNameId ++ [topName row]

/-- The columns `serve_activity` fills. -/
def ofRows (topName : ActivityTileRow → UInt64) (rows : List ActivityTileRow) : ActivityColumns :=
  rows.foldl (push topName) empty

/-- The lengths of the columns after the first. -/
def lengths (columns : ActivityColumns) : List Nat :=
  [columns.bucketWidthNs.length, columns.gpuId.length, columns.category.length,
    columns.count.length, columns.sumDurationNs.length, columns.maxDurationNs.length,
    columns.topNameId.length]

/-- `activity_to_arrow`: `RecordBatch::try_new` refuses columns of different lengths. -/
def toArrow (columns : ActivityColumns) : Option ActivityColumns :=
  if columns.lengths.all fun length => length = columns.bucketStartNs.length then some columns
  else none

/-- What the client reads of row `i`: five of the columns. -/
def rowAt (columns : ActivityColumns) (i : Nat) : Option ActivityRow := do
  let bucketStartNs ← columns.bucketStartNs[i]?
  let bucketWidthNs ← columns.bucketWidthNs[i]?
  let gpuId ← columns.gpuId[i]?
  let category ← columns.category[i]?
  let topNameId ← columns.topNameId[i]?
  return ⟨bucketStartNs, bucketWidthNs, gpuId, category, topNameId⟩

/-- The table the client decodes, row by row. -/
def table (columns : ActivityColumns) : List ActivityRow :=
  (List.range columns.bucketStartNs.length).filterMap columns.rowAt

end ActivityColumns

/-- The part of a served row that the client reads. -/
def ActivityTileRow.shown (topName : ActivityTileRow → UInt64) (row : ActivityTileRow) :
    ActivityRow where
  bucketStartNs := row.bucketStartNs
  bucketWidthNs := row.bucketWidthNs
  gpuId := row.gpuId
  category := row.category.toUInt8
  topNameId := topName row

/-- The columns after some rows. -/
theorem ActivityColumns.ofRows_eq (topName : ActivityTileRow → UInt64)
    (rows : List ActivityTileRow) :
    ofRows topName rows =
      { bucketStartNs := rows.map ActivityTileRow.bucketStartNs
        bucketWidthNs := rows.map ActivityTileRow.bucketWidthNs
        gpuId := rows.map ActivityTileRow.gpuId
        category := rows.map fun row => row.category.toUInt8
        count := rows.map fun row => UInt64.ofNat row.count
        sumDurationNs := rows.map ActivityTileRow.sumDurationNs
        maxDurationNs := rows.map ActivityTileRow.maxDurationNs
        topNameId := rows.map topName } := by
  induction rows using List.reverseRecOn with
  | nil => rfl
  | append_singleton rows row inductionHypothesis =>
    unfold ofRows at inductionHypothesis ⊢
    rw [List.foldl_concat, inductionHypothesis]
    simp only [push, List.map_append, List.map_singleton]

theorem ActivityColumns.rowAt_ofRows (topName : ActivityTileRow → UInt64)
    (rows : List ActivityTileRow) (i : Nat) :
    (ofRows topName rows).rowAt i = rows[i]?.map (ActivityTileRow.shown topName) := by
  rw [ofRows_eq]
  unfold rowAt
  simp only [List.getElem?_map]
  cases rows[i]? <;> rfl

theorem filterMap_range_getElem? {Item Image : Type} (image : Item → Image) (items : List Item) :
    (List.range items.length).filterMap (fun i => items[i]?.map image) = items.map image := by
  induction items using List.reverseRecOn with
  | nil => rfl
  | append_singleton items last inductionHypothesis =>
    have earlier : (List.range items.length).filterMap
        (fun i => (items ++ [last])[i]?.map image) = items.map image := by
      rw [← inductionHypothesis]
      refine List.filterMap_congr fun i member => ?_
      rw [List.getElem?_append_left (List.mem_range.mp member)]
    rw [List.length_append, List.length_singleton, List.range_succ, List.filterMap_append, earlier,
      List.map_append]
    simp

/-- The server's rows arrive: the batch is accepted and the client reads them in their order. -/
theorem ActivityColumns.toArrow_ofRows (topName : ActivityTileRow → UInt64)
    (rows : List ActivityTileRow) :
    (ofRows topName rows).toArrow.map table = some (rows.map (ActivityTileRow.shown topName)) := by
  have accepted : (ofRows topName rows).toArrow = some (ofRows topName rows) := by
    refine if_pos ?_
    rw [ofRows_eq]
    simp [lengths]
  rw [accepted, Option.map_some]
  refine congrArg some ?_
  have length : (ofRows topName rows).bucketStartNs.length = rows.length := by
    rw [ofRows_eq]
    exact List.length_map _
  unfold table
  rw [length, List.filterMap_congr fun i _ => rowAt_ofRows topName rows i]
  exact filterMap_range_getElem? _ rows

/-! ### The bars of a table -/

theorem color_groupOf (tiles : List (Nat × ActivityRow)) (key : Nat) :
    (tileGrouping.groupOf tiles key).batch.colorId = key % 10 := by
  have kept : ∀ (some : List (Nat × ActivityRow)) (g : TileGroup),
      (some.foldl tileGrouping.push g).color = g.color := by
    intro some
    induction some with
    | nil => exact fun _ => rfl
    | cons tile rest inductionHypothesis => exact fun g => inductionHypothesis (g.push tile.2)
  exact kept _ _

theorem lane_groupOf (tiles : List (Nat × ActivityRow)) (key : Nat) :
    (tileGrouping.groupOf tiles key).batch.lane = key / 10 :=
  congrArg (· / 10) (tileGrouping.key_groupOf tiles key)

/-- The bar of a row in a lane and a color. -/
def ActivityRow.DrawnIn (lanesPerGpu : Nat) (row : ActivityRow) (lane color : Nat) : Prop :=
  ∃ place, categoryLane row.category = some place ∧ row.gpuId.toNat * lanesPerGpu + place.1 = lane ∧
    place.2 = color

theorem mem_bars_iff (lanesPerGpu : Nat) (table : List ActivityRow) (lane color : Nat) (bar : Bar) :
    (∃ batch ∈ arrowToBatches table lanesPerGpu, batch.lane = lane ∧ batch.colorId = color ∧
        bar ∈ batch.bars) ↔
      ∃ row ∈ table, row.DrawnIn lanesPerGpu lane color ∧ row.bar = bar := by
  have keyed : ∀ key row, (key, row) ∈ keyedRows lanesPerGpu table ↔
      row ∈ table ∧ row.key lanesPerGpu = some key := by
    intro key row
    unfold keyedRows
    rw [List.mem_filterMap]
    constructor
    · rintro ⟨other, member, found⟩
      obtain ⟨otherKey, isKey, same⟩ := Option.map_eq_some_iff.mp found
      obtain ⟨rfl, rfl⟩ := Prod.mk.inj same
      exact ⟨member, isKey⟩
    · rintro ⟨member, isKey⟩
      exact ⟨row, member, by rw [isKey]; rfl⟩
  rw [arrowToBatches_eq]
  constructor
  · rintro ⟨batch, isBatch, onLane, inColor, drawn⟩
    obtain ⟨key, _, rfl⟩ := List.mem_map.mp isBatch
    rw [lane_groupOf] at onLane
    rw [color_groupOf] at inColor
    rw [bars_groupOf] at drawn
    obtain ⟨⟨tileKey, row⟩, member, rfl⟩ := List.mem_map.mp drawn
    obtain ⟨isKeyed, sameKey⟩ := List.mem_filter.mp member
    obtain rfl : tileKey = key := of_decide_eq_true sameKey
    obtain ⟨inTable, isKey⟩ := (keyed tileKey row).mp isKeyed
    obtain ⟨place, isPlace, rfl⟩ := Option.map_eq_some_iff.mp isKey
    have digit := color_lt isPlace
    exact ⟨row, inTable, ⟨place, isPlace, by omega, by omega⟩, rfl⟩
  · rintro ⟨row, inTable, ⟨place, isPlace, rfl, rfl⟩, rfl⟩
    have digit := color_lt isPlace
    set key := (row.gpuId.toNat * lanesPerGpu + place.1) * 10 + place.2 with keyEq
    have isKeyed : (key, row) ∈ keyedRows lanesPerGpu table :=
      (keyed key row).mpr ⟨inTable, by rw [ActivityRow.key, isPlace]; rfl⟩
    refine ⟨_, List.mem_map.mpr ⟨key, tileGrouping.mem_keys.mpr
      (List.mem_map.mpr ⟨(key, row), isKeyed, rfl⟩), rfl⟩, ?_, ?_, ?_⟩
    · rw [lane_groupOf]
      omega
    · rw [color_groupOf]
      omega
    · rw [bars_groupOf]
      exact List.mem_map.mpr ⟨(key, row),
        List.mem_filter.mpr ⟨isKeyed, decide_eq_true rfl⟩, rfl⟩

/-! ### Stored events and bars -/

/-- The bars a historical load draws for an answer of the server, when the answer is accepted. -/
def drawnBatches (topName : ActivityTileRow → UInt64) (rows : List ActivityTileRow) :
    List BarBatch :=
  ((ActivityColumns.ofRows topName rows).toArrow.map fun columns =>
    arrowToBatches columns.table lanesPerGpu).getD []

theorem drawnBatches_eq (topName : ActivityTileRow → UInt64) (rows : List ActivityTileRow) :
    drawnBatches topName rows =
      arrowToBatches (rows.map (ActivityTileRow.shown topName)) lanesPerGpu := by
  have arrives := ActivityColumns.toArrow_ofRows topName rows
  obtain ⟨columns, accepted, read⟩ := Option.map_eq_some_iff.mp arrives
  unfold drawnBatches
  rw [accepted, ← read]
  rfl

/-- Whatever blocks the events came in, whatever was merged and in whatever order the rows are
served, a historical load draws a bar exactly where some view inserted a row of the queried width
for a stored event in the window: the lane is that of the event's GPU and category, the bar covers
the bucket, both of its ends as doubles. Over the views that the migrations leave it never draws
one. -/
theorem bar_drawn_iff (views : List TileView) (inputs : List (TileInput Value))
    (startNs endNs : UInt64) (pixels : UInt32) (selected : UInt8 → Int8 → Bool)
    (topName : ActivityTileRow → UInt64) (rows : List ActivityTileRow)
    (served : rows.Perm
      (serveActivity startNs endNs pixels (onTile selected) (tilesAfter views inputs)))
    (lane color : Nat) (barStart barWidth : ℚ) :
    ((∃ batch ∈ drawnBatches topName rows, batch.lane = lane ∧ batch.colorId = color ∧
        ∃ bar ∈ batch.bars, bar.startNs = barStart ∧ bar.widthNs = barWidth) ↔
      ∃ view ∈ views, ∃ event ∈ inputs.flatMap TileInput.events,
        view.Shows startNs endNs (activityWidth startNs endNs pixels) selected event ∧
          (∃ place, categoryLane event.category.toUInt8 = some place ∧
            event.gpuId.toNat * lanesPerGpu + place.1 = lane ∧ place.2 = color) ∧
          (numberOfWord (view.insert event).bucketStartNs : ℚ) = barStart ∧
          (numberOfWord (activityWidth startNs endNs pixels) : ℚ) = barWidth) ∧
      (views = migratedViews → drawnBatches topName rows = []) := by
  have fromEvents := served.trans
    (serveActivity_tilesAfter views inputs startNs endNs pixels selected)
  have inTable : (∃ batch ∈ drawnBatches topName rows, batch.lane = lane ∧
        batch.colorId = color ∧ ∃ bar ∈ batch.bars, bar.startNs = barStart ∧
          bar.widthNs = barWidth) ↔
      ∃ row ∈ rows, (row.shown topName).DrawnIn lanesPerGpu lane color ∧
        (numberOfWord row.bucketStartNs : ℚ) = barStart ∧
          (numberOfWord row.bucketWidthNs : ℚ) = barWidth := by
    rw [drawnBatches_eq]
    constructor
    · rintro ⟨batch, isBatch, onLane, inColor, bar, isBar, rfl, rfl⟩
      obtain ⟨shown, isShown, drawnIn, rfl⟩ := (mem_bars_iff lanesPerGpu _ lane color bar).mp
        ⟨batch, isBatch, onLane, inColor, isBar⟩
      obtain ⟨row, isRow, rfl⟩ := List.mem_map.mp isShown
      exact ⟨row, isRow, drawnIn, rfl, rfl⟩
    · rintro ⟨row, isRow, drawnIn, rfl, rfl⟩
      obtain ⟨batch, isBatch, onLane, inColor, isBar⟩ := (mem_bars_iff lanesPerGpu _ lane color
        (row.shown topName).bar).mpr ⟨_, List.mem_map.mpr ⟨row, isRow, rfl⟩, drawnIn, rfl⟩
      exact ⟨batch, isBatch, onLane, inColor, _, isBar, rfl, rfl⟩
  refine ⟨?_, fun isMigrated => ?_⟩
  · rw [inTable]
    constructor
    · rintro ⟨row, isRow, drawnIn, atStart, wide⟩
      obtain ⟨view, isView, event, stored, shows, same⟩ := (mem_serveActivity_iff views _ startNs
        endNs pixels selected row.group).mp ⟨row, fromEvents.mem_iff.mp isRow, rfl⟩
      obtain ⟨sameStart, sameGpu, sameCategory, sameWidth⟩ := (groups_eq_iff row view event).mp same
      refine ⟨view, isView, event, stored, shows, ?_, ?_, ?_⟩
      · rw [sameGpu, sameCategory]
        exact drawnIn
      · rw [sameStart]
        exact atStart
      · rw [← shows.width, sameWidth]
        exact wide
    · rintro ⟨view, isView, event, stored, shows, drawnIn, atStart, wide⟩
      obtain ⟨row, isRow, same⟩ := (mem_serveActivity_iff views _ startNs endNs pixels
        selected _).mpr ⟨view, isView, event, stored, shows, rfl⟩
      obtain ⟨sameStart, sameGpu, sameCategory, sameWidth⟩ :=
        (groups_eq_iff row view event).mp same.symm
      refine ⟨row, fromEvents.mem_iff.mpr isRow, ?_, ?_, ?_⟩
      · show ∃ place, categoryLane row.category.toUInt8 = some place ∧
          row.gpuId.toNat * lanesPerGpu + place.1 = lane ∧ place.2 = color
        rw [← sameGpu, ← sameCategory]
        exact drawnIn
      · rw [← sameStart]
        exact atStart
      · rw [← sameWidth, shows.width]
        exact wide
  · rw [isMigrated, serveActivity_migratedViews] at served
    rw [served.eq_nil]
    rfl

/-- A millisecond on a thousand pixels with one kernel in it. -/
def oneKernel : List (TileInput Nat) := [.insertEvents [kernelRowAt 5020], .merge 0]

theorem bar_drawn_of_oneKernel :
    ∃ batch ∈ drawnBatches (fun _ => 7) (serveActivity 0 1000000 1000 (onTile fun _ _ => true)
        (tilesAfter (microsecondView :: migratedViews) oneKernel)),
      batch.lane = 6 ∧ batch.colorId = 0 ∧
        ∃ bar ∈ batch.bars, bar.startNs = 5000 ∧ bar.widthNs = 1000 := by
  refine (bar_drawn_iff (microsecondView :: migratedViews) oneKernel 0 1000000 1000
    (fun _ _ => true) (fun _ => 7) _ (List.Perm.refl _) 6 0 5000 1000).1.mpr
    ⟨microsecondView, List.mem_cons_self, kernelRowAt 5020, List.mem_singleton_self _,
      ⟨rfl, by decide, by decide, by decide, rfl⟩, ⟨(6, 0), by decide, by decide, rfl⟩, ?_, ?_⟩
  · have start : numberOfWord 5000 = 5000 := by decide
    exact congrArg Nat.cast start
  · have width : numberOfWord 1000 = 1000 := by decide
    exact congrArg Nat.cast width

end PerfWeave
