/-
This file settles how a batch is split between the two planes of the collector: metric readings
go to the fast ring, everything else to the table of events. The split reads the category, the
row writes the category and the payload, and the fast ring takes the payload, so the planes are
separate exactly on the batches whose categories and payloads say the same. A reading has two
ways into the fast ring, a frame and an event, and only the first one is skew-corrected.
-/

import PerfWeave.Server.Ingest
import PerfWeave.Server.SinkLog

namespace PerfWeave

variable {Value : Type}

/-! ### What a batch pushes to the fast ring -/

/-- The push of the reading an event carries, to the series it names. -/
def readingPush (skew : SkewTable) (e : Event Value) : Option (FastRingOp Value) :=
  match e.payload with
  | some (.metric m) => some (.push ⟨e.nodeId, e.gpuId, m.metricId⟩
      ⟨(e.skewCorrected skew).tsNs, m.value⟩)
  | _ => none

/-- What step 3 pushes for an event: the reading of a METRIC event that has one. -/
def metricPush (skew : SkewTable) (e : Event Value) : Option (FastRingOp Value) :=
  if e.category = Category.metric.asI32 then readingPush skew e else none

theorem splitEvent_fast [Zero Value] (clock : Nat → UInt64) (skew : SkewTable)
    (split : Split Value) (e : Event Value) :
    (splitEvent clock skew split e).fast =
      run FastRing.step split.fast (metricPush skew e).toList := by
  unfold splitEvent metricPush readingPush
  simp only [Event.skewCorrected_category, Event.skewCorrected_nodeId,
    Event.skewCorrected_gpuId, Event.skewCorrected_payload]
  by_cases metric : e.category = Category.metric.asI32
  · rw [if_pos metric, if_pos metric]
    rcases e.payload with _ | ⟨m⟩ | _ | _ | _ | _ | _ <;> rfl
  · rw [if_neg metric, if_neg metric]
    split <;> rfl

theorem foldl_splitEvent_fast [Zero Value] (clock : Nat → UInt64) (skew : SkewTable)
    (split : Split Value) (events : List (Event Value)) :
    (events.foldl (splitEvent clock skew) split).fast =
      run FastRing.step split.fast (events.filterMap (metricPush skew)) := by
  induction events generalizing split with
  | nil => rfl
  | cons e rest inductionHypothesis =>
    have pushes : (e :: rest).filterMap (metricPush skew) =
        (metricPush skew e).toList ++ rest.filterMap (metricPush skew) := by
      rw [List.filterMap_cons]
      cases metricPush skew e <;> rfl
    rw [List.foldl_cons, inductionHypothesis, splitEvent_fast, pushes, run_append]

/-! ### The two planes -/

/-- The rows the sink appends for a batch handed to it, whatever is pending. -/
def appendedRows [Zero Value] (clock : Nat → UInt64) (message : Nat) (pending : Pending Value)
    (b : Batch Value) : List (EventRow Value) :=
  ((absorb clock message b pending .events).drop (pending .events).length).map Queued.row

/-- The split of one batch: no appended row is a metric row by its category or by its metric
fields, the appended rows are those of the events that are not METRIC, once each and in
order, and every event with a reading pushes it once to the series it names. -/
structure TwoPlaneSplit [Zero Value] (skew : SkewTable) (events : List (Event Value))
    (appended : List (EventRow Value)) (pushes : List (FastRingOp Value)) : Prop where
  noMetricCategory : ∀ row ∈ appended, row.category ≠ categoryToI8 .metric
  noMetricFields : ∀ row ∈ appended,
    row.metricId = 0 ∧ row.metricValue = 0 ∧ row.metricUnit = ""
  rows : appended = (events.filter Event.isPersisted).map fun e =>
    EventRow.ofEvent (e.skewCorrected skew)
  readings : pushes = events.filterMap (readingPush skew)

/-- Category and payload say the same: what carries a reading is METRIC, and every other event
has one of the other known categories. -/
def Event.WellRouted (e : Event Value) : Prop :=
  (∀ m, e.payload = some (.metric m) → e.category = Category.metric.asI32) ∧
    (e.category ≠ Category.metric.asI32 → Category.ofI32 e.category ≠ .unspecified)

theorem map_row_queued [Zero Value] (message : Nat) (items : List (Event Value × Nat)) :
    (items.map fun e => (⟨⟨message, e.2⟩, EventRow.ofEvent e.1⟩ : Queued (EventRow Value))).map
      Queued.row = (items.map Prod.fst).map EventRow.ofEvent := by
  rw [List.map_map, List.map_map]
  rfl

/-- The sink appends the rows of the events that are not METRIC. -/
theorem appendedRows_toSink [Zero Value] (clock sinkClock : Nat → UInt64) (skew : SkewTable)
    (fast : FastRing Value) (batch : Batch Value) (message : Nat) (pending : Pending Value) :
    appendedRows sinkClock message pending (ingestBatch clock skew fast batch).toSink =
      (batch.events.filter Event.isPersisted).map fun e =>
        EventRow.ofEvent (e.skewCorrected (absorbOffsets clock skew batch.offsets)) := by
  have absorbed := receive_eq sinkClock message
    (.batch (ingestBatch clock skew fast batch).toSink) pending .events
  have persisted : (ingestBatch clock skew fast batch).toSink.events =
      (batch.events.filter Event.isPersisted).map
        (Event.skewCorrected (absorbOffsets clock skew batch.offsets)) :=
    foldl_splitEvent_persisted _ _ _ _
  rw [receive] at absorbed
  have keepsAll : ∀ e ∈ (ingestBatch clock skew fast batch).toSink.events.zipIdx,
      decide (e.1.category ≠ Category.metric.asI32) = true := by
    intro e member
    have source := List.fst_mem_of_mem_zipIdx member
    rw [persisted] at source
    obtain ⟨drained, kept, isImage⟩ := List.mem_map.mp source
    rw [← isImage, Event.skewCorrected_category]
    exact (List.mem_filter.mp kept).2
  rw [appendedRows, absorbed, List.drop_left, SinkMsg.rows, List.filter_eq_self.mpr keepsAll]
  refine (map_row_queued message _).trans ?_
  rw [List.zipIdx_map_fst, persisted, List.map_map]
  rfl

/-- Keeping only some items keeps all their images exactly when it drops no item with an
image. -/
theorem filterMap_filter_eq_iff {Item Image : Type} (keep : Item → Bool)
    (image : Item → Option Image) (items : List Item) :
    (items.filter keep).filterMap image = items.filterMap image ↔
      ∀ item ∈ items, (image item).isSome → keep item := by
  induction items with
  | nil => exact iff_of_true rfl (List.forall_mem_nil _)
  | cons item rest inductionHypothesis =>
    rw [List.forall_mem_cons, ← inductionHypothesis]
    by_cases kept : keep item = true
    · rw [List.filter_cons_of_pos kept, and_iff_right fun _ => kept]
      cases found : image item with
      | none => rw [List.filterMap_cons_none found, List.filterMap_cons_none found]
      | some image =>
        rw [List.filterMap_cons_some found, List.filterMap_cons_some found, List.cons.injEq,
          and_iff_right rfl]
    · rw [List.filter_cons_of_neg kept]
      cases found : image item with
      | none =>
        rw [List.filterMap_cons_none found]
        exact (and_iff_right nofun).symm
      | some first =>
        rw [List.filterMap_cons_some found]
        refine iff_of_false (fun same => ?_) fun both => kept (both.1 rfl)
        have sublist : (rest.filter keep).Sublist rest := List.filter_sublist
        have shorter := (sublist.filterMap image).length_le
        rw [same] at shorter
        exact absurd shorter (Nat.not_succ_le_self _)

/-! ### Which batches split -/

theorem ofEvent_category [Zero Value] (e : Event Value) :
    (EventRow.ofEvent e).category = categoryToI8 (.ofI32 e.category) := by
  unfold EventRow.ofEvent
  rcases e.payload with _ | ⟨m⟩ | _ | _ | _ | _ | _ <;> rfl

theorem categoryToI8_eq_metric_iff (category : Category) :
    categoryToI8 category = categoryToI8 .metric ↔
      category = .metric ∨ category = .unspecified := by
  cases category <;> decide

theorem ofI32_eq_metric_iff (number : Int32) :
    Category.ofI32 number = .metric ↔ number = Category.metric.asI32 := by
  unfold Category.ofI32
  split_ifs with metric <;> first | exact iff_of_true rfl metric | exact iff_of_false nofun metric

/-- The row of an event has metric fields only when the event carries a reading. -/
theorem ofEvent_metricFields [Zero Value] {e : Event Value}
    (noReading : ∀ m, e.payload ≠ some (.metric m)) :
    (EventRow.ofEvent e).metricId = 0 ∧ (EventRow.ofEvent e).metricValue = 0 ∧
      (EventRow.ofEvent e).metricUnit = "" := by
  unfold EventRow.ofEvent
  rcases payload : e.payload with _ | ⟨m⟩ | _ | _ | _ | _ | _
  case some.metric => exact absurd payload (noReading m)
  all_goals exact ⟨rfl, rfl, rfl⟩

theorem readingPush_isSome_iff (skew : SkewTable) (e : Event Value) :
    (readingPush skew e).isSome ↔ ∃ m, e.payload = some (.metric m) := by
  unfold readingPush
  rcases e.payload with _ | ⟨m⟩ | _ | _ | _ | _ | _
  case some.metric => exact iff_of_true rfl ⟨m, rfl⟩
  all_goals exact iff_of_false nofun nofun

/-- Every reading is pushed exactly when every event that carries one is METRIC. -/
theorem filterMap_metricPush_eq_iff (skew : SkewTable) (events : List (Event Value)) :
    events.filterMap (metricPush skew) = events.filterMap (readingPush skew) ↔
      ∀ e ∈ events, ∀ m, e.payload = some (.metric m) → e.category = Category.metric.asI32 := by
  have filtered : events.filterMap (metricPush skew) =
      (events.filter fun e => decide (e.category = Category.metric.asI32)).filterMap
        (readingPush skew) := by
    rw [List.filterMap_filter]
    simp only [decide_eq_true_eq]
    rfl
  rw [filtered, filterMap_filter_eq_iff]
  simp only [readingPush_isSome_iff, decide_eq_true_eq, forall_exists_index]

/-- A batch the sink accepts pushes the readings of its METRIC events, and is split between the
planes exactly when each of its events is METRIC if it carries a reading and of another known
category if it is not METRIC. -/
theorem twoPlaneSplit_iff [Zero Value] (clock sinkClock : Nat → UInt64) (skew : SkewTable)
    (fast : FastRing Value) (batch : Batch Value) (message : Nat) (pending : Pending Value) :
    let table := absorbOffsets clock skew batch.offsets
    let pushes := batch.events.filterMap (metricPush table)
    (ingestBatch clock skew fast batch).fast =
        run FastRing.step (batch.metricFrames.foldl (absorbFrame table) fast) pushes ∧
      (TwoPlaneSplit table batch.events
          (appendedRows sinkClock message pending (ingestBatch clock skew fast batch).toSink)
          pushes ↔
        ∀ e ∈ batch.events, e.WellRouted) := by
  refine ⟨foldl_splitEvent_fast _ _ _ _, ?_⟩
  rw [appendedRows_toSink]
  generalize absorbOffsets clock skew batch.offsets = table
  have rowOf : ∀ row ∈ (batch.events.filter Event.isPersisted).map fun e =>
      EventRow.ofEvent (e.skewCorrected table), ∃ e ∈ batch.events,
        e.category ≠ Category.metric.asI32 ∧ row = EventRow.ofEvent (e.skewCorrected table) := by
    intro row member
    obtain ⟨e, kept, rfl⟩ := List.mem_map.mp member
    exact ⟨e, (List.mem_filter.mp kept).1, of_decide_eq_true (List.mem_filter.mp kept).2, rfl⟩
  constructor
  · intro split e member
    refine ⟨(filterMap_metricPush_eq_iff table batch.events).mp split.readings e member, ?_⟩
    intro notMetric unknown
    refine split.noMetricCategory (EventRow.ofEvent (e.skewCorrected table)) ?_ ?_
    · exact List.mem_map_of_mem (List.mem_filter.mpr ⟨member, decide_eq_true notMetric⟩)
    · rw [ofEvent_category, categoryToI8_eq_metric_iff, Event.skewCorrected_category]
      exact .inr unknown
  · intro routed
    refine ⟨?_, ?_, rfl, ?_⟩
    · intro row member
      obtain ⟨e, inBatch, notMetric, rfl⟩ := rowOf row member
      rw [ofEvent_category, ne_eq, categoryToI8_eq_metric_iff, Event.skewCorrected_category,
        ofI32_eq_metric_iff, not_or]
      exact ⟨notMetric, (routed e inBatch).2 notMetric⟩
    · intro row member
      obtain ⟨e, inBatch, notMetric, rfl⟩ := rowOf row member
      refine ofEvent_metricFields fun m payload => ?_
      rw [Event.skewCorrected_payload] at payload
      exact notMetric ((routed e inBatch).1 m payload)
    · exact (filterMap_metricPush_eq_iff table batch.events).mpr fun e member =>
        (routed e member).1

/-- A reading of one GPU in an event of the given category. -/
def readingEvent (category : Int32) : Event Nat where
  tsNs := 5000
  durationNs := 0
  nodeId := 1
  gpuId := 0
  pid := 0
  tid := 0
  ctxId := 0
  streamId := 0
  category := category
  nameId := 0
  correlationId := 0
  parentId := 0
  payload := some (.metric ⟨42, 87, "%"⟩)

/-- A batch of one event. -/
def eventBatch (e : Event Nat) : Batch Nat where
  events := [e]
  strings := []
  offsets := []
  metricFrames := []

/-- A reading without a category is not pushed and becomes a METRIC row. -/
theorem uncategorised_reading_not_split :
    ¬ ∀ batch : Batch Nat, TwoPlaneSplit (absorbOffsets (fun _ => 0) .new batch.offsets)
      batch.events (appendedRows (fun _ => 0) 0 (fun _ => [])
        (ingestBatch (fun _ => 0) .new .new batch).toSink)
      (batch.events.filterMap
        (metricPush (absorbOffsets (fun _ => 0) .new batch.offsets))) := by
  intro split
  have row := (split (eventBatch (readingEvent Category.unspecified.asI32))).noMetricCategory
    (EventRow.ofEvent (readingEvent Category.unspecified.asI32)) List.mem_cons_self
  exact absurd row (by decide)

/-! ### The two ways into the fast ring -/

/-- A batch of one frame with one point. -/
def pointBatch (nodeId gpuId : UInt32) (tsNs : UInt64) (point : MetricPoint Value) :
    Batch Value where
  events := []
  strings := []
  offsets := []
  metricFrames := [⟨nodeId, gpuId, tsNs, [point]⟩]

/-- A batch of one METRIC event with the reading of a point; the fields a reading has no use
for are the event's. -/
def metricBatch (nodeId gpuId : UInt32) (tsNs : UInt64) (point : MetricPoint Value)
    (unit : String) (e : Event Value) : Batch Value where
  events := [{ e with
    tsNs, nodeId, gpuId
    category := Category.metric.asI32
    payload := some (.metric ⟨point.metricId, point.value, unit⟩) }]
  strings := []
  offsets := []
  metricFrames := []

/-- Different samples leave different rings. -/
theorem FastRing.push_injective [Zero Value] (ring : FastRing Value) (key : SeriesKey) :
    Function.Injective (ring.push key) := by
  intro first second same
  have series := congrArg (fun next : FastRing Value => next.writer key) same
  simp only [push_writer_self, Option.some.injEq] at series
  have fast := congrArg SeriesRing.fast series
  rw [SeriesRing.push_fast, SeriesRing.push_fast] at fast
  exact RingBuffer.push_injective _ fast

/-- A reading that comes as a point of a frame is stamped with the mapped timestamp. -/
theorem ingest_pointBatch_fast [Zero Value] (clock : Nat → UInt64) (skew : SkewTable)
    (fast : FastRing Value) (nodeId gpuId : UInt32) (tsNs : UInt64) (point : MetricPoint Value) :
    (ingestBatch clock skew fast (pointBatch nodeId gpuId tsNs point)).fast =
      fast.push ⟨nodeId, gpuId, point.metricId⟩ ⟨skew.map nodeId gpuId tsNs, point.value⟩ := rfl

/-- A reading that comes as an event keeps its timestamp. -/
theorem ingest_metricBatch_fast [Zero Value] (clock : Nat → UInt64) (skew : SkewTable)
    (fast : FastRing Value) (nodeId gpuId : UInt32) (tsNs : UInt64) (point : MetricPoint Value)
    (unit : String) (e : Event Value) :
    (ingestBatch clock skew fast (metricBatch nodeId gpuId tsNs point unit e)).fast =
      fast.push ⟨nodeId, gpuId, point.metricId⟩ ⟨tsNs, point.value⟩ := rfl

/-- No fit is on record for a node and GPU, or the one that is leaves the timestamp alone. -/
def SkewTable.LeavesAlone (table : SkewTable) (nodeId gpuId : UInt32) (tsNs : UInt64) : Prop :=
  ∀ record, table.inner (nodeId, gpuId) = some record → record.Fixes tsNs

theorem SkewTable.map_eq_self_iff (table : SkewTable) (nodeId gpuId : UInt32) (tsNs : UInt64) :
    table.map nodeId gpuId tsNs = tsNs ↔ table.LeavesAlone nodeId gpuId tsNs := by
  unfold map LeavesAlone
  cases held : table.inner (nodeId, gpuId) with
  | none => exact iff_of_true rfl fun record absent => absurd absent (by simp)
  | some record =>
    rw [record.map_eq_self_iff]
    exact ⟨fun fixes other same => Option.some.inj same ▸ fixes, fun fixes => fixes record rfl⟩

/-- A host-clock reading leaves the fast ring in the same state as a point of a frame and as a
METRIC event, with a sample stamped with its own timestamp, exactly when the skew table leaves
that timestamp alone. -/
theorem metricPaths_agree_iff [Zero Value] (clock : Nat → UInt64) (skew : SkewTable)
    (fast : FastRing Value) (nodeId gpuId : UInt32) (tsNs : UInt64) (point : MetricPoint Value)
    (unit : String) (e : Event Value) :
    ((ingestBatch clock skew fast (pointBatch nodeId gpuId tsNs point)).fast =
          fast.push ⟨nodeId, gpuId, point.metricId⟩ ⟨tsNs, point.value⟩ ∧
        (ingestBatch clock skew fast (metricBatch nodeId gpuId tsNs point unit e)).fast =
          fast.push ⟨nodeId, gpuId, point.metricId⟩ ⟨tsNs, point.value⟩) ↔
      skew.LeavesAlone nodeId gpuId tsNs := by
  rw [ingest_pointBatch_fast, ingest_metricBatch_fast, ← SkewTable.map_eq_self_iff]
  simp only [and_true]
  rw [(fast.push_injective _).eq_iff, Sample.mk.injEq, and_iff_left rfl]

/-- A frame of a GPU whose clock is a microsecond behind is stamped a microsecond late. -/
theorem metricPaths_disagree :
    ¬ ∀ (skew : SkewTable) (fast : FastRing Nat),
      (ingestBatch (fun _ => 0) skew fast (pointBatch 1 0 5000 ⟨42, 87⟩)).fast =
        (ingestBatch (fun _ => 0) skew fast
          (metricBatch 1 0 5000 ⟨42, 87⟩ "%" (readingEvent 1))).fast := by
  intro agree
  have fitted := agree (SkewTable.new.upsert 0 ⟨1, 0, 1000, 1, 1, 0⟩) .new
  rw [ingest_pointBatch_fast, ingest_metricBatch_fast] at fitted
  have stamps := congrArg Sample.tsNs (FastRing.push_injective _ _ fitted)
  exact absurd stamps (by decide)

end PerfWeave
