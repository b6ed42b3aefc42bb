/-
This file settles what `spike_context` decides the bottleneck of a spike on. Its second query takes
two averages over the METRIC rows of `events`, of a column `value` that no migration gives the
table: the readings have the column `metric_value`, and since the rework of ingest they are in the
fast ring and not in the table at all. A query with an unknown identifier fails before it runs, and
the resolver with it, which `Server.SpikeResolver` puts together. The averages are those of exact
numbers, and the average of no rows, which is not a number in ClickHouse, is `none`.
-/

import PerfWeave.Server.AckAccounting
import PerfWeave.Server.SpikeContext

namespace PerfWeave

variable {Value : Type}

/-! ### The query -/

/-- Why a query fails. -/
inductive QueryError where
  | unknownIdentifier (name : String)
  deriving DecidableEq

/-- The columns of `events`, as `0001_events.sql` and `0007_markers.sql` leave the table. -/
def eventsColumns : List String :=
  ["ts_ns", "duration_ns", "node_id", "gpu_id", "pid", "tid", "ctx_id", "stream_id", "category",
    "name_id", "correlation_id", "parent_id", "metric_id", "metric_value", "metric_unit",
    "grid_x", "grid_y", "grid_z", "block_x", "block_y", "block_z", "shared_static",
    "shared_dynamic", "registers", "local_mem", "launch_cbid", "memcpy_kind", "memcpy_bytes",
    "memcpy_src", "memcpy_dst", "api_cbid", "api_status", "marker_domain_id", "marker_color",
    "marker_message_id"]

/-- The identifiers that `util_sql` takes from `events`. -/
def utilIdentifiers : List String := ["value", "name_id", "category", "gpu_id", "ts_ns"]

/-- The analysis of a query: every identifier has to be a column. -/
def resolve (columns identifiers : List String) : Except QueryError Unit :=
  match identifiers.find? fun name => name ∉ columns with
  | some name => .error (.unknownIdentifier name)
  | none => .ok ()

/-- The texts of the utilisation of the GPU. -/
def gpuUtilNames : List String := ["gpu.util.percent", "gpu_util"]

/-- The texts of the utilisation of its memory. -/
def memUtilNames : List String := ["gpu.mem.util.percent", "mem_util"]

/-- `SELECT id FROM strings FINAL WHERE text IN names`. -/
def idsNamed (strings : List StringRow) (names : List String) : List UInt64 :=
  (strings.filter fun s => s.text ∈ names).map StringRow.id

section Averages

variable [Field Value] [LinearOrder Value]

omit [LinearOrder Value] in
/-- The average of some values. -/
def average (values : List Value) : Option Value :=
  if values.isEmpty then none else some (values.sum / values.length)

/-- `UtilRow`: the two averages. -/
structure UtilRow (Value : Type) where
  avgGpuUtil : Option Value
  avgMemUtil : Option Value
  deriving DecidableEq

/-- The `WHERE` clause of `util_sql`. -/
def SpikeWindow.selectsMetric (window : SpikeWindow) (e : EventRow Value) : Bool :=
  e.category = categoryToI8 .metric && e.gpuId = window.gpuId && window.winStart ≤ e.tsNs &&
    e.tsNs < window.winEnd

omit [LinearOrder Value] in
/-- The result of `util_sql`, were there a column with the given values. -/
def utilAverages (value : EventRow Value → Value) (window : SpikeWindow)
    (events : List (EventRow Value)) (strings : List StringRow) : UtilRow Value :=
  let rows := events.filter window.selectsMetric
  { avgGpuUtil := average
      ((rows.filter fun e => e.nameId ∈ idsNamed strings gpuUtilNames).map value)
    avgMemUtil := average
      ((rows.filter fun e => e.nameId ∈ idsNamed strings memUtilNames).map value) }

omit [LinearOrder Value] in
/-- `util_sql`. -/
def utilQuery (value : EventRow Value → Value) (window : SpikeWindow)
    (events : List (EventRow Value)) (strings : List StringRow) :
    Except QueryError (UtilRow Value) :=
  (resolve eventsColumns utilIdentifiers).map fun _ => utilAverages value window events strings

/-! ### The bottleneck -/

/-- `Bottleneck`. -/
inductive Bottleneck where
  | computeBound
  | memoryBound
  | unclassified
  deriving DecidableEq

omit [Field Value] in
/-- `>` of two averages; nothing is above or below the average of no rows. -/
def above (first second : Option Value) : Bool :=
  match first, second with
  | some first, some second => first > second
  | _, _ => false

/-- The classification of two averages. -/
def UtilRow.bottleneck (util : UtilRow Value) : Bottleneck :=
  if above util.avgMemUtil (util.avgGpuUtil.map (· * (6 / 5))) &&
      above util.avgMemUtil (some 5) then
    .memoryBound
  else if above util.avgGpuUtil (util.avgMemUtil.map (· * (6 / 5))) &&
      above util.avgGpuUtil (some 20) then
    .computeBound
  else .unclassified

/-- What `spike_context` classifies, and how. -/
def spikeBottleneck (value : EventRow Value → Value) (window : SpikeWindow)
    (events : List (EventRow Value)) (strings : List StringRow) :
    Except QueryError (UtilRow Value × Bottleneck) :=
  (utilQuery value window events strings).map fun util => (util, util.bottleneck)

end Averages

/-! ### The samples a stream ingests -/

/-- The samples of a frame, with the series they belong to. -/
def MetricFrame.samples (skew : SkewTable) (frame : MetricFrame Value) :
    List (SeriesKey × Sample Value) :=
  frame.points.map fun p =>
    (⟨frame.nodeId, frame.gpuId, p.metricId⟩,
      ⟨skew.map frame.nodeId frame.gpuId frame.tsNs, p.value⟩)

/-- The sample of a METRIC event with a reading. -/
def Event.metricSample (skew : SkewTable) (e : Event Value) :
    Option (SeriesKey × Sample Value) :=
  if e.category = Category.metric.asI32 then
    match e.payload with
    | some (.metric m) =>
      some (⟨e.nodeId, e.gpuId, m.metricId⟩, ⟨(e.skewCorrected skew).tsNs, m.value⟩)
    | _ => none
  else none

/-- The samples of a batch, by the skew table that its own offsets have updated. -/
def Batch.samples (skew : SkewTable) (batch : Batch Value) : List (SeriesKey × Sample Value) :=
  batch.metricFrames.flatMap (MetricFrame.samples skew) ++
    batch.events.filterMap (Event.metricSample skew)

/-- The samples that a stream ingests, in order. -/
def ingestedSamples (skew : SkewTable) :
    List (Arrival Value) → List (SeriesKey × Sample Value)
  | [] => []
  | arrival :: rest =>
    let table := absorbOffsets arrival.clock skew arrival.batch.offsets
    arrival.batch.samples table ++ ingestedSamples table rest

/-- A sample goes to its series. -/
def FastRing.take [Zero Value] (ring : FastRing Value) (input : SeriesKey × Sample Value) :
    FastRing Value :=
  ring.push input.1 input.2

theorem foldl_absorbFrame [Zero Value] (skew : SkewTable) (fast : FastRing Value)
    (frames : List (MetricFrame Value)) :
    frames.foldl (absorbFrame skew) fast =
      (frames.flatMap (MetricFrame.samples skew)).foldl FastRing.take fast := by
  have frameByFrame : absorbFrame skew = fun (ring : FastRing Value) frame =>
      (MetricFrame.samples skew frame).foldl FastRing.take ring := by
    funext ring frame
    unfold MetricFrame.samples absorbFrame
    rw [List.foldl_map]
    rfl
  rw [List.foldl_flatMap, frameByFrame]

/-- What an event pushes is its sample. -/
theorem metricPush_eq (skew : SkewTable) (e : Event Value) :
    metricPush skew e = (e.metricSample skew).map fun input => .push input.1 input.2 := by
  unfold metricPush readingPush Event.metricSample
  by_cases metric : e.category = Category.metric.asI32
  · rw [if_pos metric, if_pos metric]
    rcases e.payload with _ | ⟨m⟩ | _ | _ | _ | _ | _ <;> rfl
  · rw [if_neg metric, if_neg metric]
    rfl

theorem run_metricPush [Zero Value] (skew : SkewTable) (fast : FastRing Value)
    (events : List (Event Value)) :
    run FastRing.step fast (events.filterMap (metricPush skew)) =
      (events.filterMap (Event.metricSample skew)).foldl FastRing.take fast := by
  have pushes : events.filterMap (metricPush skew) =
      (events.filterMap (Event.metricSample skew)).map fun input => .push input.1 input.2 := by
    rw [List.map_filterMap]
    exact List.filterMap_congr fun e _ => metricPush_eq skew e
  rw [pushes, run, List.foldl_map]
  rfl

/-- The fast ring after a stream holds its ingested samples, pushed one after the other. -/
theorem IngestStream.fast_run [Zero Value] (state : IngestStream Value)
    (arrivals : List (Arrival Value)) :
    (run step state arrivals).fast =
      (ingestedSamples state.skew arrivals).foldl FastRing.take state.fast := by
  induction arrivals generalizing state with
  | nil => rfl
  | cons arrival rest inductionHypothesis =>
    rw [run_cons, inductionHypothesis, step_skew, arrival.fast_step, foldl_absorbFrame,
      run_metricPush, ingestedSamples, Batch.samples, List.foldl_append, List.foldl_append]

/-! ### What the query could see -/

/-- The stream has handed on no METRIC event and none of an unknown category. -/
def IngestStream.NoMetricRows (state : IngestStream Value) : Prop :=
  ∀ b ∈ state.taken, ∀ e ∈ b.events,
    Category.ofI32 e.category ≠ .metric ∧ Category.ofI32 e.category ≠ .unspecified

/-- No batch whose events have known categories hands on a METRIC event. -/
theorem IngestStream.noMetricRows_step [Zero Value] {state : IngestStream Value}
    {arrival : Arrival Value}
    (known : ∀ e ∈ arrival.batch.events, Category.ofI32 e.category ≠ .unspecified)
    (noMetricRows : state.NoMetricRows) : (state.step arrival).NoMetricRows := by
  intro b member e inBatch
  rcases mem_taken_step member with before | rfl
  · exact noMetricRows b before e inBatch
  · have persisted : e ∈ (arrival.batch.events.filter Event.isPersisted).map
        (Event.skewCorrected (absorbOffsets arrival.clock state.skew arrival.batch.offsets)) := by
      have handedOn := foldl_splitEvent_persisted arrival.clock
        (absorbOffsets arrival.clock state.skew arrival.batch.offsets)
        ⟨arrival.batch.metricFrames.foldl (absorbFrame (absorbOffsets arrival.clock state.skew
          arrival.batch.offsets)) state.fast, [], []⟩ arrival.batch.events
      rw [List.nil_append] at handedOn
      exact handedOn ▸ inBatch
    obtain ⟨source, kept, rfl⟩ := List.mem_map.mp persisted
    have notMetric := of_decide_eq_true (List.mem_filter.mp kept).2
    rw [Event.skewCorrected_category]
    exact ⟨fun metric => notMetric ((ofI32_eq_metric_iff _).mp metric),
      known source (List.mem_filter.mp kept).1⟩

/-- Even on a column that the table has, the averages over what a stream of events with known
categories has handed on are those of no rows, and the spike is not classified. -/
theorem utilAverages_of_run [Field Value] [LinearOrder Value] (value : EventRow Value → Value)
    (window : SpikeWindow) (strings : List StringRow) (skew : SkewTable) (fast : FastRing Value)
    (arrivals : List (Arrival Value))
    (known : ∀ arrival ∈ arrivals, ∀ e ∈ arrival.batch.events,
      Category.ofI32 e.category ≠ .unspecified) :
    let handedOn := (run IngestStream.step (.start skew fast) arrivals).taken.flatMap Batch.events
    let util := utilAverages value window (handedOn.map EventRow.ofEvent) strings
    util = ⟨none, none⟩ ∧ util.bottleneck = .unclassified := by
  have noMetricRows : (run IngestStream.step (.start skew fast) arrivals).NoMetricRows :=
    run_invariant (fun b absent => absurd absent List.not_mem_nil)
      (fun _ _ => IngestStream.noMetricRows_step) arrivals known
  have unseen : (((run IngestStream.step (.start skew fast) arrivals).taken.flatMap
      Batch.events).map EventRow.ofEvent).filter window.selectsMetric = [] := by
    refine List.filter_eq_nil_iff.mpr fun row member selected => ?_
    obtain ⟨e, handedOn, rfl⟩ := List.mem_map.mp member
    obtain ⟨b, taken, inBatch⟩ := List.mem_flatMap.mp handedOn
    have categories := noMetricRows b taken e inBatch
    unfold SpikeWindow.selectsMetric at selected
    simp only [Bool.and_eq_true, decide_eq_true_eq, ofEvent_category,
      categoryToI8_eq_metric_iff] at selected
    exact selected.1.1.1.elim categories.1 categories.2
  simp only
  unfold utilAverages
  rw [unseen]
  exact ⟨rfl, rfl⟩

/-! ### What it sees -/

section Averages

variable [Field Value] [LinearOrder Value]

omit [LinearOrder Value] in
/-- The averages of the samples that were ingested for a GPU in the window. -/
def ingestedUtil (nodeId : UInt32) (window : SpikeWindow) (strings : List StringRow)
    (samples : List (SeriesKey × Sample Value)) : UtilRow Value :=
  let shown := samples.filter fun s => s.1.nodeId = nodeId &&
    s.1.gpuId = window.gpuId.toUInt32 && window.winStart ≤ s.2.tsNs && s.2.tsNs < window.winEnd
  { avgGpuUtil := average
      ((shown.filter fun s => s.1.metricId ∈ idsNamed strings gpuUtilNames).map fun s => s.2.value)
    avgMemUtil := average
      ((shown.filter fun s => s.1.metricId ∈ idsNamed strings memUtilNames).map
        fun s => s.2.value) }

/-- The resolver decides the bottleneck on the averages of the samples that were ingested. -/
def SeesMetrics (value : EventRow Value → Value) (nodeId : UInt32) (window : SpikeWindow)
    (events : List (EventRow Value)) (strings : List StringRow)
    (samples : List (SeriesKey × Sample Value)) : Prop :=
  let util := ingestedUtil nodeId window strings samples
  spikeBottleneck value window events strings = .ok (util, util.bottleneck)

/-- The column `value` does not resolve. -/
theorem resolve_utilIdentifiers :
    resolve eventsColumns utilIdentifiers = .error (.unknownIdentifier "value") := rfl

/-- Whatever was ingested and whatever is stored, no spike is classified by the samples: the query
fails. -/
theorem not_seesMetrics (value : EventRow Value → Value) (nodeId : UInt32)
    (bucketStartNs bucketWidthNs : UInt64) (gpuId : UInt8) (skew : SkewTable)
    (arrivals : List (Arrival Value)) (events : List (EventRow Value)) (strings : List StringRow) :
    ¬ SeesMetrics value nodeId (.ofSpike bucketStartNs bucketWidthNs gpuId) events strings
      (ingestedSamples skew arrivals) := by
  unfold SeesMetrics spikeBottleneck utilQuery
  rw [resolve_utilIdentifiers]
  exact nofun

end Averages

/-- A GPU that is waiting for its memory: ten percent busy, its memory ninety. -/
def memoryBoundFrame : Arrival ℚ where
  batch := {
    events := []
    strings := []
    offsets := []
    metricFrames := [⟨1, 0, 2000000000, [⟨42, 10⟩, ⟨43, 90⟩]⟩] }
  clock := fun _ => 0
  outcome := .accepted

/-- The ingested samples are those of a memory-bound GPU, and no bottleneck is returned. -/
theorem exists_bottleneck_not_returned :
    ¬ ∀ (value : EventRow ℚ → ℚ) (window : SpikeWindow) (strings : List StringRow)
        (arrivals : List (Arrival ℚ)) (events : List (EventRow ℚ)),
      (ingestedUtil 1 window strings (ingestedSamples .new arrivals)).bottleneck = .memoryBound →
        ∃ util, spikeBottleneck value window events strings = .ok (util, .memoryBound) := by
  intro returned
  obtain ⟨util, classified⟩ := returned EventRow.metricValue (.ofSpike 2000000000 1000000000 0)
    [⟨42, "gpu.util.percent"⟩, ⟨43, "gpu.mem.util.percent"⟩] [memoryBoundFrame] []
    (by decide +kernel)
  unfold spikeBottleneck utilQuery at classified
  rw [resolve_utilIdentifiers] at classified
  exact absurd classified nofun

end PerfWeave
