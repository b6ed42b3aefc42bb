/-
This file models the activity tiles: the view statements of the migrations
(`migrations/`), what the surviving views write when events are inserted, the level-of-detail
picker of `perfweave-server/src/api/lod.rs` and the activity query of
`perfweave-server/src/api/timeline.rs`.

The database keeps the views by name. A view inserts into its table by column name, so an
expression of its `SELECT` list reaches a column only under the alias of that column: without one
it is named by its own text, which is no column of the table. A column that is not reached takes
its default, zero or an empty aggregate. For `tiles_activity` the model keeps one row for each
event and view, and the query groups the rows as its `GROUP BY` does. Views into `tiles_metric` are
kept by name only. The top-16 names of a tile are an approximate aggregate of the database and are
left out.
-/

import PerfWeave.Server.Sink

namespace PerfWeave

variable {Value : Type}

/-! ### Views -/

/-- The two tile tables. -/
inductive TileTable where
  | activity
  | metric
  deriving DecidableEq

/-- The columns of `tiles_activity` that the views compute; all views select the other three,
`node_id`, `gpu_id` and `category`, by their names. -/
inductive TileColumn where
  | bucketStartNs
  | bucketWidthNs
  | count
  | sumDurationNs
  | maxDurationNs
  deriving DecidableEq

/-- A materialized view over `events`: where it writes, how wide the buckets of its `SELECT` list
are, and for which columns that list has an alias. -/
structure TileView where
  name : String
  target : TileTable
  widthNs : UInt64
  aliased : List TileColumn
  deriving DecidableEq

/-- The statements of the migrations that concern such views. -/
inductive ViewStatement where
  | createIfNotExists (view : TileView)
  | dropIfExists (name : String)

/-- The views after a statement. -/
def ViewStatement.apply (views : List TileView) : ViewStatement → List TileView
  | .createIfNotExists view =>
    if views.any fun other => other.name = view.name then views else views ++ [view]
  | .dropIfExists name => views.filter fun view => view.name ≠ name

/-- A view of `tiles_activity` without aliases. -/
def activityView (name : String) (widthNs : UInt64) : TileView := ⟨name, .activity, widthNs, []⟩

/-- A view of `tiles_metric`. -/
def metricView (name : String) (widthNs : UInt64) : TileView := ⟨name, .metric, widthNs, []⟩

/-- The view of the finest width, which has an alias for every column. -/
def microsecondView : TileView where
  name := "tiles_activity_1us_mv"
  target := .activity
  widthNs := 1000
  aliased := [.bucketStartNs, .bucketWidthNs, .count, .sumDurationNs, .maxDurationNs]

/-- The views `0003_tiles` creates. -/
def tilesMigration : List ViewStatement :=
  [.createIfNotExists microsecondView,
    .createIfNotExists ⟨"tiles_activity_8us_mv", .activity, 8000,
      [.bucketStartNs, .bucketWidthNs]⟩,
    .createIfNotExists (activityView "tiles_activity_64us_mv" 64000),
    .createIfNotExists (activityView "tiles_activity_512us_mv" 512000),
    .createIfNotExists (activityView "tiles_activity_4ms_mv" 4096000),
    .createIfNotExists (activityView "tiles_activity_32ms_mv" 32768000),
    .createIfNotExists (activityView "tiles_activity_262ms_mv" 262144000),
    .createIfNotExists (activityView "tiles_activity_2s_mv" 2097152000),
    .createIfNotExists (metricView "tiles_metric_8us_mv" 8000),
    .createIfNotExists (metricView "tiles_metric_4ms_mv" 4096000),
    .createIfNotExists (metricView "tiles_metric_262ms_mv" 262144000),
    .createIfNotExists (metricView "tiles_metric_2s_mv" 2097152000)]

/-- The views `0006_shed_metric_tiles` drops, and the two it asserts again. -/
def shedMetricTilesMigration : List ViewStatement :=
  [.dropIfExists "tiles_metric_8us_mv",
    .dropIfExists "tiles_metric_4ms_mv",
    .dropIfExists "tiles_metric_262ms_mv",
    .dropIfExists "tiles_metric_2s_mv",
    .dropIfExists "tiles_activity_1us_mv",
    .dropIfExists "tiles_activity_8us_mv",
    .dropIfExists "tiles_activity_64us_mv",
    .dropIfExists "tiles_activity_512us_mv",
    .dropIfExists "tiles_activity_4ms_mv",
    .dropIfExists "tiles_activity_262ms_mv",
    .createIfNotExists (activityView "tiles_activity_32ms_mv" 32768000),
    .createIfNotExists (activityView "tiles_activity_2s_mv" 2097152000)]

/-- `MIGRATIONS`, each with its statements about tile views. -/
def migrations : List (String × List ViewStatement) :=
  [("0001_events", []),
    ("0002_strings", []),
    ("0003_tiles", tilesMigration),
    ("0004_spikes", []),
    ("0005_nsys_imports", []),
    ("0006_shed_metric_tiles", shedMetricTilesMigration),
    ("0007_markers", []),
    ("0008_kernel_sol", [])]

/-- `apply`: the views after every statement of every migration, in order. -/
def applyMigrations (views : List TileView) : List TileView :=
  (migrations.flatMap Prod.snd).foldl ViewStatement.apply views

/-- The views of a database that was empty before the migrations. -/
def migratedViews : List TileView := applyMigrations []

/-- The bucket widths in the `SELECT` lists of the views of `tiles_activity`. -/
def viewWidths (views : List TileView) : List UInt64 :=
  (views.filter fun view => view.target = .activity).map TileView.widthNs

/-- The bucket width a view writes. -/
def TileView.writtenWidth (view : TileView) : UInt64 :=
  if .bucketWidthNs ∈ view.aliased then view.widthNs else 0

/-- The widths some view writes into `tiles_activity`. -/
def populatedWidths (views : List TileView) : List UInt64 :=
  (views.filter fun view => view.target = .activity).map TileView.writtenWidth

/-! ### Rows -/

/-- A row of `tiles_activity`, with the values of its partial aggregates. -/
structure ActivityTile where
  bucketStartNs : UInt64
  bucketWidthNs : UInt64
  nodeId : UInt32
  gpuId : UInt8
  category : Int8
  count : Nat
  sumDurationNs : UInt64
  maxDurationNs : UInt64

/-- What the `SELECT` list of a view computes for one event: the start of its bucket is
`intDiv(ts_ns, width) * width`. -/
def ActivityTile.ofRow (widthNs : UInt64) (row : EventRow Value) : ActivityTile where
  bucketStartNs := row.tsNs / widthNs * widthNs
  bucketWidthNs := widthNs
  nodeId := row.nodeId
  gpuId := row.gpuId
  category := row.category
  count := 1
  sumDurationNs := row.durationNs
  maxDurationNs := row.durationNs

/-- What a view inserts for one event: the columns it has an alias for, and the defaults of the
others. -/
def TileView.insert (view : TileView) (row : EventRow Value) : ActivityTile :=
  let tile := ActivityTile.ofRow view.widthNs row
  { bucketStartNs := if .bucketStartNs ∈ view.aliased then tile.bucketStartNs else 0
    bucketWidthNs := if .bucketWidthNs ∈ view.aliased then tile.bucketWidthNs else 0
    nodeId := tile.nodeId
    gpuId := tile.gpuId
    category := tile.category
    count := if .count ∈ view.aliased then tile.count else 0
    sumDurationNs := if .sumDurationNs ∈ view.aliased then tile.sumDurationNs else 0
    maxDurationNs := if .maxDurationNs ∈ view.aliased then tile.maxDurationNs else 0 }

/-- The rows a view inserts for a block of events, before they are grouped: it takes the events
that are not metrics. -/
def viewRows (rows : List (EventRow Value)) (view : TileView) : List ActivityTile :=
  (rows.filter fun row => row.category ≠ categoryToI8 .metric).map view.insert

/-- What the views insert into `tiles_activity` for events. -/
def activityTiles (views : List TileView) (rows : List (EventRow Value)) : List ActivityTile :=
  (views.filter fun view => view.target = .activity).flatMap (viewRows rows)

/-! ### The picker -/

/-- `TILE_WIDTHS_NS`. -/
def tileWidthsNs : List UInt64 :=
  [1000, 8000, 64000, 512000, 4096000, 32768000, 262144000, 2097152000]

/-- `choose_tile`: the smallest width of at least one pixel's share of the range, else the
largest. -/
def chooseTile (rangeNs : UInt64) (pixels : UInt32) : Option UInt64 :=
  if pixels = 0 then
    tileWidthsNs.head?
  else
    let target := rangeNs / pixels.toUInt64
    (tileWidthsNs.find? fun width => target ≤ width).or tileWidthsNs.getLast?

/-! ### The query -/

/-- `ActivityTileRow` without its top name: one group of the query. -/
structure ActivityTileRow where
  bucketStartNs : UInt64
  bucketWidthNs : UInt64
  gpuId : UInt8
  category : Int8
  count : Nat
  sumDurationNs : UInt64
  maxDurationNs : UInt64

/-- The columns the query groups by, in the order it sorts by. -/
def ActivityTile.group (tile : ActivityTile) : UInt64 × UInt8 × Int8 × UInt64 :=
  (tile.bucketStartNs, tile.gpuId, tile.category, tile.bucketWidthNs)

/-- The row of a group: `countMerge`, `sumMerge` and `maxMerge` of its tiles. -/
def ActivityTileRow.ofGroup (tiles : List ActivityTile) (group : UInt64 × UInt8 × Int8 × UInt64) :
    ActivityTileRow :=
  let members := tiles.filter fun tile => tile.group = group
  { bucketStartNs := group.1
    bucketWidthNs := group.2.2.2
    gpuId := group.2.1
    category := group.2.2.1
    count := members.foldl (fun sum tile => sum + tile.count) 0
    sumDurationNs := members.foldl (fun sum tile => sum + tile.sumDurationNs) 0
    maxDurationNs := members.foldl (fun largest tile => max largest tile.maxDurationNs) 0 }

/-- The bucket width an activity query asks for. -/
def activityWidth (startNs endNs : UInt64) (pixels : UInt32) : UInt64 :=
  (chooseTile (endNs - startNs) pixels).getD 4096000

/-- The `WHERE` clause of the query; `selected` stands for its optional filters on GPU and
category. -/
def inActivityWindow (startNs endNs widthNs : UInt64) (selected : ActivityTile → Bool)
    (tile : ActivityTile) : Bool :=
  tile.bucketWidthNs = widthNs && startNs ≤ tile.bucketStartNs && tile.bucketStartNs < endNs &&
    selected tile

/-- `serve_activity` over the contents of `tiles_activity`: one row for each group, up to the
order of the rows. -/
def serveActivity (startNs endNs : UInt64) (pixels : UInt32) (selected : ActivityTile → Bool)
    (tiles : List ActivityTile) : List ActivityTileRow :=
  let found := tiles.filter
    (inActivityWindow startNs endNs (activityWidth startNs endNs pixels) selected)
  (found.map ActivityTile.group).dedup.map (.ofGroup found)

end PerfWeave
