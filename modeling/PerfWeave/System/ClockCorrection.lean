/-
This file follows a GPU timestamp from the agent's ring to the collector's sink. The session
maps it with the current fit and attaches the fit to the batch; the collector stores the fit
under the agent's node and GPU 0 and maps the timestamp again. The stored timestamp is the
once-mapped one exactly when the record the collector applies, if any, fixes it.
-/

import PerfWeave.Agent.Session
import PerfWeave.Server.Ingest

namespace PerfWeave

variable {Value : Type} {capacity : Nat}

/-! ### The two corrections -/

/-- The categories both sides correct. -/
def Event.isGpuTimed (e : Event Value) : Prop :=
  e.category = Category.kernel.asI32 ∨ e.category = Category.apiCall.asI32 ∨
    e.category = Category.memcpy.asI32

/-- The record the collector applies to a node and GPU after a batch of the agent `own` with
the given fit: the fit itself for GPU 0 of the agent, unless the fit is not sent, and what the
table held before for any other key. -/
def appliedRecord (now : UInt64) (fit : ClockOffset) (own : UInt32) (skew : SkewTable)
    (nodeId gpuId : UInt32) : Option SkewEntry :=
  if nodeId = own ∧ gpuId = 0 then
    match fit.latestProto own with
    | some message => some (.ofMessage now message)
    | none => skew.inner (nodeId, gpuId)
  else
    skew.inner (nodeId, gpuId)

theorem latestProto_key {fit : ClockOffset} {own : UInt32} {message : ClockOffsetMessage}
    (sent : fit.latestProto own = some message) : (message.nodeId, message.gpuId) = (own, 0) := by
  unfold ClockOffset.latestProto at sent
  split at sent
  · exact absurd sent (by simp)
  · rw [← Option.some.inj sent]

/-- After the offsets of such a batch the table holds the applied records. -/
theorem absorbOffsets_latestProto (clock : Nat → UInt64) (fit : ClockOffset) (own : UInt32)
    (skew : SkewTable) (nodeId gpuId : UInt32) :
    (absorbOffsets clock skew (fit.latestProto own).toList).inner (nodeId, gpuId) =
      appliedRecord (clock 0) fit own skew nodeId gpuId := by
  unfold appliedRecord
  cases sent : fit.latestProto own with
  | none => exact (ite_self _).symm
  | some message =>
    show Function.update skew.inner (message.nodeId, message.gpuId) _ (nodeId, gpuId) = _
    rw [latestProto_key sent]
    by_cases key : nodeId = own ∧ gpuId = 0
    · rw [if_pos key, key.1, key.2, Function.update_self]
    · rw [if_neg key, Function.update_of_ne (fun same => key (Prod.mk.inj same))]

/-- An event of a corrected category keeps its key and category on the way. -/
theorem Event.corrected_of_isGpuTimed {e : Event Value} (gpuTimed : e.isGpuTimed)
    (fit : ClockOffset) : e.corrected fit = { e with tsNs := fit.map e.tsNs } :=
  if_pos gpuTimed

/-- The record applied to an event, if any, fixes its once-mapped timestamp. -/
def AppliedRecordFixes (now : UInt64) (fit : ClockOffset) (own : UInt32) (skew : SkewTable)
    (e : Event Value) : Prop :=
  ∀ record, appliedRecord now fit own skew e.nodeId e.gpuId = some record →
    record.Fixes (fit.map e.tsNs)

/-- A timestamp corrected on both sides is the once-mapped one exactly when the applied record
fixes it. -/
theorem skewCorrected_corrected_tsNs_iff (clock : Nat → UInt64) (fit : ClockOffset)
    (own : UInt32) (skew : SkewTable) {e : Event Value} (gpuTimed : e.isGpuTimed) :
    ((e.corrected fit).skewCorrected
        (absorbOffsets clock skew (fit.latestProto own).toList)).tsNs = fit.map e.tsNs ↔
      AppliedRecordFixes (clock 0) fit own skew e := by
  have twice : ((e.corrected fit).skewCorrected
      (absorbOffsets clock skew (fit.latestProto own).toList)).tsNs =
        (absorbOffsets clock skew (fit.latestProto own).toList).map e.nodeId e.gpuId
          (fit.map e.tsNs) := by
    rw [Event.corrected_of_isGpuTimed gpuTimed]
    exact congrArg Event.tsNs (if_pos gpuTimed)
  rw [twice, SkewTable.map, absorbOffsets_latestProto]
  unfold AppliedRecordFixes
  cases applied : appliedRecord (clock 0) fit own skew e.nodeId e.gpuId with
  | none => exact ⟨fun _ _ none => absurd none (by simp), fun _ => rfl⟩
  | some record =>
    refine (record.map_eq_self_iff (fit.map e.tsNs)).trans ⟨fun fixes other same => ?_, ?_⟩
    · exact Option.some.inj same ▸ fixes
    · exact fun fixes => fixes record rfl

/-! ### From the ring to the sink -/

theorem filter_map_corrected (fit : ClockOffset) {keep : Event Value → Bool}
    (byCategory : ∀ e, keep (e.corrected fit) = keep e) (events : List (Event Value)) :
    (events.map (Event.corrected fit)).filter keep =
      (events.filter keep).map (Event.corrected fit) := by
  rw [List.filter_map]
  exact congrArg (List.map _) (List.filter_congr fun e _ => byCategory e)

/-- The events a batch of the session hands to the sink. -/
theorem ingestBatch_buildBatch_toSink [Zero Value] (hash : String → UInt64)
    (cfg : UploaderConfig) (fit : ClockOffset) (interner : Interner)
    (events : List (Event Value)) (metricFrames : List (MetricFrame Value))
    (clock : Nat → UInt64) (skew : SkewTable) (fast : FastRing Value) :
    (ingestBatch clock skew fast
        (buildBatch hash cfg fit interner events metricFrames).1).toSink.events =
      (events.filter Event.isPersisted).map fun e => (e.corrected fit).skewCorrected
        (absorbOffsets clock skew (fit.latestProto cfg.nodeId).toList) := by
  have kept : ∀ e : Event Value, (e.corrected fit).isPersisted = e.isPersisted := fun e => by
    rw [Event.isPersisted, Event.corrected_category, Event.isPersisted]
  refine (foldl_splitEvent_persisted _ _ _ _).trans ?_
  rw [List.nil_append, buildBatch, filter_map_corrected fit kept, List.map_map]
  rfl

/-- The kernels a batch of the session hands to the live stream. -/
theorem ingestBatch_buildBatch_live [Zero Value] (hash : String → UInt64)
    (cfg : UploaderConfig) (fit : ClockOffset) (interner : Interner)
    (events : List (Event Value)) (metricFrames : List (MetricFrame Value))
    (clock : Nat → UInt64) (skew : SkewTable) (fast : FastRing Value) :
    (ingestBatch clock skew fast
        (buildBatch hash cfg fit interner events metricFrames).1).live =
      ((events.filter Event.isKernel).zipIdx).map fun e =>
        LiveKernelEvent.ofEvent (clock e.2) ((e.1.corrected fit).skewCorrected
          (absorbOffsets clock skew (fit.latestProto cfg.nodeId).toList)) := by
  have kept : ∀ e : Event Value, (e.corrected fit).isKernel = e.isKernel := fun e => by
    rw [Event.isKernel, Event.corrected_category, Event.isKernel]
  refine (foldl_splitEvent_live _ _ _ _).trans ?_
  rw [List.nil_append, buildBatch, filter_map_corrected fit kept, List.zipIdx_map, List.map_map]
  rfl

/-- Every GPU-timed event a flush sends reaches the sink, and every kernel the live stream,
with its raw timestamp mapped once exactly when the record the collector applies to it, if
any, fixes the mapped timestamp. -/
theorem corrected_exactly_once_iff [Zero Value] (hash : String → UInt64) (cfg : UploaderConfig)
    (state : Session Value capacity) (batch : Batch Value)
    (sends : (state.flush hash cfg).sent = state.sent ++ [batch])
    (clock : Nat → UInt64) (skew : SkewTable) (fast : FastRing Value) :
    List.Forall₂ (fun drained stored => drained.isGpuTimed →
        (stored.tsNs = state.offsets.map drained.tsNs ↔
          AppliedRecordFixes (clock 0) state.offsets cfg.nodeId skew drained))
      ((state.ring.drainUpTo cfg.maxBatchEvents).1.filter Event.isPersisted)
      (ingestBatch clock skew fast batch).toSink.events ∧
    List.Forall₂ (fun drained live => live.tsNs = state.offsets.map drained.tsNs ↔
        AppliedRecordFixes (clock 0) state.offsets cfg.nodeId skew drained)
      ((state.ring.drainUpTo cfg.maxBatchEvents).1.filter Event.isKernel)
      (ingestBatch clock skew fast batch).live := by
  have built : batch = (buildBatch hash cfg state.offsets state.interner
      (state.ring.drainUpTo cfg.maxBatchEvents).1
      (state.ring.drainUpTo cfg.maxBatchEvents).2.drainFrames.1).1 := by
    rcases Session.flush_sent hash cfg state with none | one
    · rw [none] at sends
      exact absurd (congrArg List.length sends) (by simp)
    · rw [sends] at one
      exact List.singleton_inj.mp (List.append_cancel_left one)
  rw [built, ingestBatch_buildBatch_toSink, ingestBatch_buildBatch_live]
  constructor
  · rw [List.forall₂_map_right_iff, List.forall₂_same]
    exact fun e _ gpuTimed => skewCorrected_corrected_tsNs_iff clock _ _ _ gpuTimed
  · generalize (state.ring.drainUpTo cfg.maxBatchEvents).1 = events
    conv_lhs => rw [← List.zipIdx_map_fst 0 (events.filter Event.isKernel)]
    rw [List.forall₂_map_left_iff, List.forall₂_map_right_iff, List.forall₂_same]
    intro e member
    have kernel : e.1.category = Category.kernel.asI32 :=
      of_decide_eq_true (List.mem_filter.mp (List.fst_mem_of_mem_zipIdx member)).2
    exact skewCorrected_corrected_tsNs_iff clock _ _ _ (.inl kernel)

/-! ### A plain offset -/

/-- A fit that adds a microsecond. -/
def microsecondFit : ClockOffset :=
  { ClockOffset.identity with offsetNs := 1000 }

/-- An agent with the default node id. -/
def defaultUploader : UploaderConfig where
  hostname := "gpu-a"
  nodeId := 0
  numGpus := 2
  maxBatchEvents := 20000
  agentRpcAddr := ""

/-- A kernel of one GPU at the raw time 5000. -/
def rawKernel (gpuId : UInt32) : Event Nat where
  tsNs := 5000
  durationNs := 50
  nodeId := 0
  gpuId := gpuId
  pid := 7
  tid := 7
  ctxId := 1
  streamId := 3
  category := Category.kernel.asI32
  nameId := 11
  correlationId := 5
  parentId := 0
  payload := none

/-- A session that holds the fit and has one kernel to send. -/
def kernelWaiting (gpuId : UInt32) : Session Nat 4 :=
  sessionRun (fun _ => 1) defaultUploader .new microsecondFit [.push (rawKernel gpuId)]

/-- On GPU 1 no record applies to the kernel, and it is stored at 6000. -/
theorem corrected_exactly_once_gpu_one :
    (ingestBatch (fun _ => 0) .new .new
        (buildBatch (fun _ => 1) defaultUploader microsecondFit .new [rawKernel 1] []).1).live.map
      LiveKernelEvent.tsNs = [6000] := by
  have both := corrected_exactly_once_iff (fun _ => 1) defaultUploader (kernelWaiting 1)
    (buildBatch (fun _ => 1) defaultUploader microsecondFit .new [rawKernel 1] []).1 rfl
    (fun _ => 0) .new .new
  have noRecord : AppliedRecordFixes 0 microsecondFit 0 .new (rawKernel 1) :=
    fun record applied => absurd applied (by simp [appliedRecord, rawKernel, SkewTable.new])
  have once := ((List.forall₂_cons.mp both.2).1).mpr noRecord
  exact congrArg (fun ts => [ts]) once

/-- On GPU 0 the collector maps the kernel a second time, to 7000. -/
theorem gpu_zero_corrected_twice :
    ¬ ∀ (state : Session Nat 4) (batch : Batch Nat),
      (state.flush (fun _ => 1) defaultUploader).sent = state.sent ++ [batch] →
        List.Forall₂ (fun drained stored => drained.isGpuTimed →
            stored.tsNs = state.offsets.map drained.tsNs)
          ((state.ring.drainUpTo defaultUploader.maxBatchEvents).1.filter Event.isPersisted)
          (ingestBatch (fun _ => 0) .new .new batch).toSink.events := by
  intro once
  have kernel := once (kernelWaiting 0)
    (buildBatch (fun _ => 1) defaultUploader microsecondFit .new [rawKernel 0] []).1 rfl
  have stored := (List.forall₂_cons.mp kernel).1 (.inl rfl)
  exact absurd stored (by decide)

end PerfWeave
