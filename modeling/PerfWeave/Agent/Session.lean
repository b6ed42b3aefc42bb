/-
This file models the uploader of `perfweave-agent/src/grpc_client.rs` with the `OffsetHandle` of
`perfweave-agent/src/clock_sync.rs`: a session that drains the ring on every flush tick, maps
the GPU timestamps with the current clock fit, announces the units of its metric events and
sends one batch with the fit attached.

The samplers push into the ring and the clock task replaces the fit at any time, so both are
inputs of the session beside its own ticks. The batches it sends are recorded in order.
-/

import PerfWeave.Library.Run
import PerfWeave.Common.Clock
import PerfWeave.Common.Intern
import PerfWeave.Agent.EventRing

namespace PerfWeave

variable {Value : Type} {capacity : Nat}

/-! ### The clock fit on the wire -/

/-- `OffsetHandle::latest_proto`: the current fit for GPU 0, its fields cast to words; none
for a fit without a correction. -/
def ClockOffset.latestProto (current : ClockOffset) (nodeId : UInt32) :
    Option ClockOffsetMessage :=
  if current.offsetNs = 0 ∧ current.slopeNum = current.slopeDen ∧ current.residualMaxNs = 0 then
    none
  else
    some {
      nodeId := nodeId
      gpuId := 0
      offsetNs := truncateU64 current.offsetNs
      slopeNum := truncateU64 current.slopeNum
      slopeDen := truncateU64 current.slopeDen
      residualMaxNs := current.residualMaxNs }

/-! ### Building a batch -/

/-- The part of `UploaderConfig` the session uses. -/
structure UploaderConfig where
  hostname : String
  nodeId : UInt32
  numGpus : UInt32
  maxBatchEvents : Nat
  agentRpcAddr : String

/-- `PRODUCT_VERSION`. -/
def productVersion : String := "0.1.0"

/-- The hello a session registers with. -/
def UploaderConfig.hello (cfg : UploaderConfig) : AgentHello where
  nodeId := cfg.nodeId
  hostname := cfg.hostname
  agentVersion := productVersion
  numGpus := cfg.numGpus
  agentRpcAddr := cfg.agentRpcAddr

/-- The timestamp correction of a flush: kernels, API calls and copies are on GPU time. -/
def Event.corrected (off : ClockOffset) (e : Event Value) : Event Value :=
  if e.category = Category.kernel.asI32 ∨ e.category = Category.apiCall.asI32 ∨
      e.category = Category.memcpy.asI32 then
    { e with tsNs := off.map e.tsNs }
  else
    e

namespace Event

variable (off : ClockOffset) (e : Event Value)

@[simp]
theorem corrected_category : (e.corrected off).category = e.category := by
  unfold corrected
  split <;> rfl

@[simp]
theorem corrected_nodeId : (e.corrected off).nodeId = e.nodeId := by
  unfold corrected
  split <;> rfl

@[simp]
theorem corrected_nameId : (e.corrected off).nameId = e.nameId := by
  unfold corrected
  split <;> rfl

@[simp]
theorem corrected_payload : (e.corrected off).payload = e.payload := by
  unfold corrected
  split <;> rfl

end Event

/-- One turn of the announcing loop: the unit of a metric event, when it has one. -/
def announce (hash : String → UInt64) (announced : List StringIntern × Interner)
    (e : Event Value) : List StringIntern × Interner :=
  match e.payload with
  | some (.metric m) =>
    if m.unit.isEmpty then
      announced
    else
      let ((_, rec), interner) := announced.2.record hash m.unit
      (announced.1 ++ rec.toList, interner)
  | _ => announced

/-- The batch of a flush, from the drained events and frames, and the interner after it. -/
def buildBatch (hash : String → UInt64) (cfg : UploaderConfig) (off : ClockOffset)
    (interner : Interner) (events : List (Event Value))
    (metricFrames : List (MetricFrame Value)) : Batch Value × Interner :=
  let corrected := events.map (Event.corrected off)
  let (strings, interner) := corrected.foldl (announce hash) ([], interner)
  ({ events := corrected
     strings := strings
     offsets := (off.latestProto cfg.nodeId).toList
     metricFrames := metricFrames },
   interner)

/-! ### The session -/

/-- A session: the ring it drains, the current fit, the ids it has announced and the batches
it has sent, oldest first. -/
structure Session (Value : Type) (capacity : Nat) where
  ring : EventRing Value capacity
  offsets : ClockOffset
  interner : Interner
  sent : List (Batch Value)

/-- What can happen during a session: a sampler pushes, the clock task sets a fit, one of the
session's own ticks fires. -/
inductive SessionInput (Value : Type) where
  | push (e : Event Value)
  | pushFrame (f : MetricFrame Value)
  | setOffset (c : ClockOffset)
  | flushTick
  | droppedTick

namespace Session

/-- A session that has just registered: nothing announced on the connection, nothing sent. -/
def start (ring : EventRing Value capacity) (offsets : ClockOffset) : Session Value capacity where
  ring := ring
  offsets := offsets
  interner := .new
  sent := []

/-- The flush of `run_session`. -/
def flush (hash : String → UInt64) (cfg : UploaderConfig) (state : Session Value capacity) :
    Session Value capacity :=
  let (events, eventsTaken) := state.ring.drainUpTo cfg.maxBatchEvents
  let (metricFrames, ring) := eventsTaken.drainFrames
  if events.isEmpty && metricFrames.isEmpty then
    { state with ring }
  else
    let (batch, interner) :=
      buildBatch hash cfg state.offsets state.interner events metricFrames
    { state with ring, interner, sent := state.sent ++ [batch] }

/-- One event of a session. -/
def step (hash : String → UInt64) (cfg : UploaderConfig) (state : Session Value capacity) :
    SessionInput Value → Session Value capacity
  | .push e => { state with ring := state.ring.push e }
  | .pushFrame f => { state with ring := state.ring.pushFrame f }
  | .setOffset c => { state with offsets := c }
  | .flushTick => state.flush hash cfg
  | .droppedTick => { state with ring := state.ring.takeDropped.2.takeDroppedFrames.2 }

end Session

/-- A flush sends nothing, or the batch built from what it drained. -/
theorem Session.flush_sent (hash : String → UInt64) (cfg : UploaderConfig)
    (state : Session Value capacity) :
    (state.flush hash cfg).sent = state.sent ∨
      (state.flush hash cfg).sent = state.sent ++
        [(buildBatch hash cfg state.offsets state.interner
          (state.ring.drainUpTo cfg.maxBatchEvents).1
          (state.ring.drainUpTo cfg.maxBatchEvents).2.drainFrames.1).1] := by
  simp only [flush]
  split
  · exact .inl rfl
  · exact .inr rfl

/-- A session after its inputs. -/
def sessionRun (hash : String → UInt64) (cfg : UploaderConfig) (ring : EventRing Value capacity)
    (offsets : ClockOffset) (inputs : List (SessionInput Value)) : Session Value capacity :=
  run (Session.step hash cfg) (.start ring offsets) inputs

end PerfWeave
