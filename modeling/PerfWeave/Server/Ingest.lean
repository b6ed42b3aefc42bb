/-
This file models the ingest stream of `perfweave-server/src/ingest/grpc.rs`: what the collector
does with one batch. Its clock offsets go into the skew table first, its metric frames and
metric events into the fast ring, and its other events, with kernel, API call and copy
timestamps mapped by the table, to the sink and the live kernel stream.
-/

import PerfWeave.Server.FastRing
import PerfWeave.Server.SkewTable

namespace PerfWeave

variable {Value : Type}

/-- `LiveKernelEvent`: one kernel on the live stream. -/
structure LiveKernelEvent where
  tsNs : UInt64
  durationNs : UInt64
  nodeId : UInt32
  gpuId : UInt32
  correlationId : UInt64
  nameId : UInt64
  serverNowNs : UInt64
  deriving DecidableEq

/-- The live form of an event at the host time `now`. -/
def LiveKernelEvent.ofEvent (now : UInt64) (e : Event Value) : LiveKernelEvent where
  tsNs := e.tsNs
  durationNs := e.durationNs
  nodeId := e.nodeId
  gpuId := e.gpuId
  correlationId := e.correlationId
  nameId := e.nameId
  serverNowNs := now

/-- Step 1: absorb the offsets. `clock` gives the host time at each. -/
def absorbOffsets (clock : Nat → UInt64) (skew : SkewTable) (offsets : List ClockOffsetMessage) :
    SkewTable :=
  offsets.zipIdx.foldl (fun table offset => table.upsert (clock offset.2) offset.1) skew

/-- Step 2 for one frame: push every point at the mapped timestamp of the frame. -/
def absorbFrame [Zero Value] (skew : SkewTable) (fast : FastRing Value)
    (frame : MetricFrame Value) : FastRing Value :=
  let ts := skew.map frame.nodeId frame.gpuId frame.tsNs
  frame.points.foldl (fun ring p =>
    ring.push ⟨frame.nodeId, frame.gpuId, p.metricId⟩ ⟨ts, p.value⟩) fast

/-- The skew correction of step 3. -/
def Event.skewCorrected (skew : SkewTable) (e : Event Value) : Event Value :=
  if e.category = Category.kernel.asI32 ∨ e.category = Category.apiCall.asI32 ∨
      e.category = Category.memcpy.asI32 then
    { e with tsNs := skew.map e.nodeId e.gpuId e.tsNs }
  else
    e

/-- What step 3 builds up: the fast ring, the live kernels and the events for the sink. -/
structure Split (Value : Type) where
  fast : FastRing Value
  live : List LiveKernelEvent
  persisted : List (Event Value)

/-- Step 3 for one event. `clock` gives the host time at each live kernel. -/
def splitEvent [Zero Value] (clock : Nat → UInt64) (skew : SkewTable) (split : Split Value)
    (event : Event Value) : Split Value :=
  let e := event.skewCorrected skew
  if e.category = Category.metric.asI32 then
    match e.payload with
    | some (.metric m) =>
      { split with fast := split.fast.push ⟨e.nodeId, e.gpuId, m.metricId⟩ ⟨e.tsNs, m.value⟩ }
    | _ => split
  else if e.category = Category.kernel.asI32 then
    { split with
      live := split.live ++ [.ofEvent (clock split.live.length) e]
      persisted := split.persisted ++ [e] }
  else
    { split with persisted := split.persisted ++ [e] }

/-- What a batch does to the shared state, and what it hands on. -/
structure Ingested (Value : Type) where
  skew : SkewTable
  fast : FastRing Value
  live : List LiveKernelEvent
  toSink : Batch Value

/-- The three steps over one batch. -/
def ingestBatch [Zero Value] (clock : Nat → UInt64) (skew : SkewTable) (fast : FastRing Value)
    (batch : Batch Value) : Ingested Value :=
  let skew := absorbOffsets clock skew batch.offsets
  let fast := batch.metricFrames.foldl (absorbFrame skew) fast
  let split := batch.events.foldl (splitEvent clock skew) ⟨fast, [], []⟩
  { skew := skew
    fast := split.fast
    live := split.live
    toSink := {
      events := split.persisted
      strings := batch.strings
      offsets := batch.offsets
      metricFrames := [] } }

/-! ### What a batch hands on -/

namespace Event

@[simp]
theorem skewCorrected_category (skew : SkewTable) (e : Event Value) :
    (e.skewCorrected skew).category = e.category := by
  unfold skewCorrected
  split <;> rfl

@[simp]
theorem skewCorrected_nodeId (skew : SkewTable) (e : Event Value) :
    (e.skewCorrected skew).nodeId = e.nodeId := by
  unfold skewCorrected
  split <;> rfl

@[simp]
theorem skewCorrected_gpuId (skew : SkewTable) (e : Event Value) :
    (e.skewCorrected skew).gpuId = e.gpuId := by
  unfold skewCorrected
  split <;> rfl

@[simp]
theorem skewCorrected_payload (skew : SkewTable) (e : Event Value) :
    (e.skewCorrected skew).payload = e.payload := by
  unfold skewCorrected
  split <;> rfl

/-- Whether an event leaves the collector for the sink. -/
def isPersisted (e : Event Value) : Bool := e.category ≠ Category.metric.asI32

/-- Whether an event leaves the collector for the live kernel stream. -/
def isKernel (e : Event Value) : Bool := e.category = Category.kernel.asI32

end Event

/-- The sink receives every event but the metric ones, in order, corrected. -/
theorem foldl_splitEvent_persisted [Zero Value] (clock : Nat → UInt64) (skew : SkewTable)
    (split : Split Value) (events : List (Event Value)) :
    (events.foldl (splitEvent clock skew) split).persisted =
      split.persisted ++ (events.filter Event.isPersisted).map (Event.skewCorrected skew) := by
  induction events generalizing split with
  | nil => exact (List.append_nil _).symm
  | cons e rest inductionHypothesis =>
    rw [List.foldl_cons, inductionHypothesis]
    unfold splitEvent
    simp only [Event.skewCorrected_category]
    by_cases metric : e.category = Category.metric.asI32
    · rw [if_pos metric, List.filter_cons_of_neg (by simpa [Event.isPersisted] using metric)]
      split <;> rfl
    · rw [if_neg metric, List.filter_cons_of_pos (by simpa [Event.isPersisted] using metric)]
      split <;> exact List.append_assoc _ _ _

/-- The live stream receives every kernel, in order, corrected. -/
theorem foldl_splitEvent_live [Zero Value] (clock : Nat → UInt64) (skew : SkewTable)
    (split : Split Value) (events : List (Event Value)) :
    (events.foldl (splitEvent clock skew) split).live =
      split.live ++ ((events.filter Event.isKernel).zipIdx split.live.length).map fun e =>
        LiveKernelEvent.ofEvent (clock e.2) (e.1.skewCorrected skew) := by
  induction events generalizing split with
  | nil => exact (List.append_nil _).symm
  | cons e rest inductionHypothesis =>
    rw [List.foldl_cons, inductionHypothesis]
    unfold splitEvent
    simp only [Event.skewCorrected_category]
    by_cases kernel : e.category = Category.kernel.asI32
    · have notMetric : ¬ e.category = Category.metric.asI32 := by
        rw [kernel]
        decide
      rw [if_neg notMetric, if_pos kernel,
        List.filter_cons_of_pos (by simpa [Event.isKernel] using kernel), List.zipIdx_cons,
        List.length_append]
      exact List.append_assoc _ _ _
    · rw [if_neg kernel, List.filter_cons_of_neg (by simpa [Event.isKernel] using kernel)]
      split
      · split <;> rfl
      · rfl

/-! ### What a batch writes -/

/-- Every event and frame of a batch carries a node id, and so does every clock offset. -/
structure Batch.Carries (nodeId : UInt32) (batch : Batch Value) : Prop where
  events : ∀ e ∈ batch.events, e.nodeId = nodeId
  frames : ∀ f ∈ batch.metricFrames, f.nodeId = nodeId
  offsets : ∀ o ∈ batch.offsets, o.nodeId = nodeId

/-- A frame writes series of its own node only. -/
theorem absorbFrame_writer_of_ne [Zero Value] (skew : SkewTable) (fast : FastRing Value)
    (frame : MetricFrame Value) {key : SeriesKey} (differs : key.nodeId ≠ frame.nodeId) :
    (absorbFrame skew fast frame).writer key = fast.writer key := by
  unfold absorbFrame
  simp only
  induction frame.points generalizing fast with
  | nil => rfl
  | cons p rest inductionHypothesis =>
    rw [List.foldl_cons, inductionHypothesis]
    exact FastRing.push_writer_of_ne fast (fun same => differs (congrArg SeriesKey.nodeId same)) _

/-- A frame reaches the series of each of its points. -/
theorem absorbFrame_writer_isSome [Zero Value] (skew : SkewTable) (fast : FastRing Value)
    (frame : MetricFrame Value) {p : MetricPoint Value} (member : p ∈ frame.points) :
    ((absorbFrame skew fast frame).writer ⟨frame.nodeId, frame.gpuId, p.metricId⟩).isSome := by
  have keeps : ∀ (ring : FastRing Value) key other sample, (ring.writer other).isSome →
      ((ring.push key sample).writer other).isSome := by
    intro ring key other sample present
    by_cases same : other = key
    · rw [same, FastRing.push_writer_self]
      rfl
    · rwa [FastRing.push_writer_of_ne ring same]
  unfold absorbFrame
  simp only
  generalize frame.points = points at member ⊢
  induction points using List.reverseRecOn with
  | nil => exact absurd member List.not_mem_nil
  | append_singleton points last inductionHypothesis =>
    rw [List.foldl_append, List.foldl_cons, List.foldl_nil]
    rcases List.mem_append.mp member with before | now
    · exact keeps _ _ _ _ (inductionHypothesis before)
    · rw [List.mem_singleton.mp now, FastRing.push_writer_self]
      rfl

/-- An event writes a series of its own node at most. -/
theorem splitEvent_writer_of_ne [Zero Value] (clock : Nat → UInt64) (skew : SkewTable)
    (split : Split Value) (e : Event Value) {key : SeriesKey} (differs : key.nodeId ≠ e.nodeId) :
    (splitEvent clock skew split e).fast.writer key = split.fast.writer key := by
  have differsCorrected : key.nodeId ≠ (e.skewCorrected skew).nodeId := by
    rwa [Event.skewCorrected_nodeId]
  unfold splitEvent
  simp only
  split
  · split
    · exact FastRing.push_writer_of_ne _
        (fun same => differsCorrected (congrArg SeriesKey.nodeId same)) _
    · rfl
  · split <;> rfl

/-- A fold of steps that each leave a series alone leaves it alone. -/
theorem foldl_writer_of_forall {Item State : Type} {step : State → Item → State}
    (series : State → Option (SeriesRing Value)) (items : List Item)
    (leaves : ∀ item ∈ items, ∀ state, series (step state item) = series state) (state : State) :
    series (items.foldl step state) = series state := by
  induction items generalizing state with
  | nil => rfl
  | cons item rest inductionHypothesis =>
    rw [List.foldl_cons, inductionHypothesis fun other member =>
      leaves other (List.mem_cons_of_mem item member)]
    exact leaves item List.mem_cons_self state

/-- A batch that carries one node id writes series of that node only. -/
theorem ingestBatch_writer_of_ne [Zero Value] (clock : Nat → UInt64) (skew : SkewTable)
    (fast : FastRing Value) {batch : Batch Value} {nodeId : UInt32} (carries : batch.Carries nodeId)
    {key : SeriesKey} (differs : key.nodeId ≠ nodeId) :
    (ingestBatch clock skew fast batch).fast.writer key = fast.writer key := by
  refine (foldl_writer_of_forall (fun split : Split Value => split.fast.writer key)
    batch.events (fun e member split => ?_) _).trans
      (foldl_writer_of_forall (fun ring : FastRing Value => ring.writer key)
        batch.metricFrames (fun frame member ring => ?_) fast)
  · exact splitEvent_writer_of_ne clock _ split e (carries.events e member ▸ differs)
  · exact absorbFrame_writer_of_ne _ ring frame (carries.frames frame member ▸ differs)

end PerfWeave
