/-
This file models `perfweave-server/src/store/sink.rs`: the task that turns messages into table
rows, buffers them and writes the buffers to the database. The five `Vec`s are one buffer per
table. A flush inserts the non-empty buffers in a fixed order, stops at the first insert that
fails, and clears the buffers only after the last one.

Every queued row carries its origin, the number of the message it came from and the item
within it. The origin is a ghost: nothing branches on it, and it is what lets the results say
which row an insert stored. The database is the log of the successful inserts.
-/

import PerfWeave.Library.Run
import PerfWeave.Proto

namespace PerfWeave

variable {Value : Type}

/-! ### Rows -/

/-- `EventRow`: one row of `events`, in the order of the table's columns. -/
structure EventRow (Value : Type) where
  tsNs : UInt64
  durationNs : UInt64
  nodeId : UInt32
  gpuId : UInt8
  pid : UInt32
  tid : UInt32
  ctxId : UInt32
  streamId : UInt32
  category : Int8
  nameId : UInt64
  correlationId : UInt64
  parentId : UInt64
  metricId : UInt64
  metricValue : Value
  metricUnit : String
  gridX : UInt32
  gridY : UInt32
  gridZ : UInt32
  blockX : UInt32
  blockY : UInt32
  blockZ : UInt32
  sharedStatic : UInt32
  sharedDynamic : UInt32
  registers : UInt32
  localMem : UInt32
  launchCbid : UInt32
  memcpyKind : Int8
  memcpyBytes : UInt64
  memcpySrc : UInt32
  memcpyDst : UInt32
  apiCbid : UInt32
  apiStatus : UInt32
  markerDomainId : UInt64
  markerColor : UInt32
  markerMessageId : UInt64

/-- `category_to_i8`: the `Enum8` number of a category. -/
def categoryToI8 : Category → Int8
  | .unspecified => 1
  | .metric => 1
  | .apiCall => 2
  | .kernel => 3
  | .memcpy => 4
  | .memset => 5
  | .sync => 6
  | .overhead => 7
  | .marker => 8
  | .sol => 3

/-- `memcpy_kind_to_i8`: the `Enum8` number of a copy direction. -/
def memcpyKindToI8 : MemcpyKind → Int8
  | .unknown => 0
  | .h2d => 1
  | .d2h => 2
  | .d2d => 3
  | .h2h => 4
  | .p2p => 5

/-- The row of an event with every payload column at its default. -/
def EventRow.withoutPayload [Zero Value] (e : Event Value) : EventRow Value where
  tsNs := e.tsNs
  durationNs := e.durationNs
  nodeId := e.nodeId
  gpuId := e.gpuId.toUInt8
  pid := e.pid
  tid := e.tid
  ctxId := e.ctxId
  streamId := e.streamId
  category := categoryToI8 (.ofI32 e.category)
  nameId := e.nameId
  correlationId := e.correlationId
  parentId := e.parentId
  metricId := 0
  metricValue := 0
  metricUnit := ""
  gridX := 0
  gridY := 0
  gridZ := 0
  blockX := 0
  blockY := 0
  blockZ := 0
  sharedStatic := 0
  sharedDynamic := 0
  registers := 0
  localMem := 0
  launchCbid := 0
  memcpyKind := 0
  memcpyBytes := 0
  memcpySrc := 0
  memcpyDst := 0
  apiCbid := 0
  apiStatus := 0
  markerDomainId := 0
  markerColor := 0
  markerMessageId := 0

/-- `EventRow::from`: the row of an event. -/
def EventRow.ofEvent [Zero Value] (e : Event Value) : EventRow Value :=
  let row := EventRow.withoutPayload e
  match e.payload with
  | some (.metric m) =>
    { row with metricId := m.metricId, metricValue := m.value, metricUnit := m.unit }
  | some (.kernel k) =>
    { row with
      gridX := k.gridX, gridY := k.gridY, gridZ := k.gridZ
      blockX := k.blockX, blockY := k.blockY, blockZ := k.blockZ
      sharedStatic := k.staticSharedMemBytes
      sharedDynamic := k.dynamicSharedMemBytes
      registers := k.registersPerThread
      localMem := k.localMemPerThread
      launchCbid := k.launchCbid }
  | some (.memcpy m) =>
    { row with
      memcpyKind := memcpyKindToI8 (.ofI32 m.kind)
      memcpyBytes := m.bytes
      memcpySrc := m.srcDevice
      memcpyDst := m.dstDevice }
  | some (.api a) => { row with apiCbid := a.cbid, apiStatus := a.status }
  | some (.marker m) =>
    { row with
      markerDomainId := m.domainId, markerColor := m.colorArgb
      markerMessageId := m.messageId }
  | some (.sol _) => row
  | none => row

/-- `StringRow`: one row of `strings`. -/
structure StringRow where
  id : UInt64
  text : String

/-- `OffsetRow`: one row of `clock_offsets`. -/
structure OffsetRow where
  fittedAtNs : UInt64
  nodeId : UInt32
  gpuId : UInt8
  offsetNs : Int64
  slopeNum : Int64
  slopeDen : Int64
  residualMaxNs : UInt64

/-- The row of a clock offset absorbed at the host time `now`. -/
def OffsetRow.ofMessage (now : UInt64) (o : ClockOffsetMessage) : OffsetRow where
  fittedAtNs := now
  nodeId := o.nodeId
  gpuId := o.gpuId.toUInt8
  offsetNs := o.offsetNs.toInt64
  slopeNum := o.slopeNum.toInt64
  slopeDen := o.slopeDen.toInt64
  residualMaxNs := o.residualMaxNs

/-- `KernelSolRow`: one row of `kernel_sol`. -/
structure KernelSolRow (Value : Type) where
  tsNs : UInt64
  nodeId : UInt32
  gpuId : UInt8
  correlationId : UInt64
  smActivePct : Value
  achievedOccupancyPct : Value
  dramBwPct : Value
  l1BwPct : Value
  l2BwPct : Value
  instThroughputPct : Value
  theoreticalOccupancyPct : Value
  arithmeticIntensity : Value
  achievedGflops : Value
  bound : Int8
  confidence : Int8
  source : Int8
  stallReasons : List UInt32
  stallCounts : List UInt32

/-- The number of an open enumeration whose members are `0` to `largest`: an unknown number
reads as `0`. -/
def denseEnum (largest number : Int32) : Int8 :=
  if 0 ≤ number ∧ number ≤ largest then number.toInt8 else 0

/-- `KernelSolRow::from_proto` at the host time `now`. -/
def KernelSolRow.fromProto (now : UInt64) (nodeId : UInt32) (s : KernelSol Value) :
    KernelSolRow Value where
  tsNs := now
  nodeId := nodeId
  gpuId := 0
  correlationId := s.correlationId
  smActivePct := s.smActivePct
  achievedOccupancyPct := s.achievedOccupancyPct
  dramBwPct := s.dramBwPct
  l1BwPct := s.l1BwPct
  l2BwPct := s.l2BwPct
  instThroughputPct := s.instThroughputPct
  theoreticalOccupancyPct := s.theoreticalOccupancyPct
  arithmeticIntensity := s.arithmeticIntensity
  achievedGflops := s.achievedGflops
  bound := denseEnum 4 s.bound
  confidence := denseEnum 2 s.confidence
  source := denseEnum 2 s.source
  stallReasons := s.stalls.map StallCount.reasonId
  stallCounts := s.stalls.map StallCount.count

/-- `SpikeRow`: one row of `spikes`. -/
structure SpikeRow (Value : Type) where
  bucketStartNs : UInt64
  bucketWidthNs : UInt64
  nodeId : UInt32
  gpuId : UInt8
  metricId : UInt64
  value : Value
  median : Value
  mad : Value
  zMad : Value

/-! ### Tables and buffers -/

/-- The tables the sink writes. -/
inductive Table where
  | strings
  | events
  | clockOffsets
  | kernelSol
  | spikes
  deriving DecidableEq

/-- The rows of a table. -/
def TableRow (Value : Type) : Table → Type
  | .strings => StringRow
  | .events => EventRow Value
  | .clockOffsets => OffsetRow
  | .kernelSol => KernelSolRow Value
  | .spikes => SpikeRow Value

/-- Where a queued row comes from: the number of its message and the item within it. -/
structure Origin where
  message : Nat
  item : Nat
  deriving DecidableEq

/-- A queued row with its origin. -/
structure Queued (Row : Type) where
  origin : Origin
  row : Row

/-- The pending rows of every table, oldest first. -/
abbrev Pending (Value : Type) := (table : Table) → List (Queued (TableRow Value table))

/-- A successful insert: the table and the rows it stored. -/
structure Insert (Value : Type) where
  table : Table
  rows : List (Queued (TableRow Value table))

/-- `SinkMsg`: what the sink receives on its channel. -/
inductive SinkMsg (Value : Type) where
  | batch (b : Batch Value)
  | kernelSol (nodeId : UInt32) (sol : KernelSol Value)
  | spike (row : SpikeRow Value)

/-- `absorb`: append a batch's non-metric events, its strings and its offsets. `clock` gives
the host time at each offset. -/
def absorb [Zero Value] (clock : Nat → UInt64) (message : Nat) (b : Batch Value)
    (pending : Pending Value) : Pending Value
  | .events => b.events.zipIdx.foldl (fun rows e =>
      if e.1.category = Category.metric.asI32 then rows
      else rows ++ [⟨⟨message, e.2⟩, EventRow.ofEvent e.1⟩]) (pending .events)
  | .strings => b.strings.zipIdx.foldl (fun rows s =>
      rows ++ [⟨⟨message, s.2⟩, (⟨s.1.id, s.1.text⟩ : StringRow)⟩]) (pending .strings)
  | .clockOffsets => b.offsets.zipIdx.foldl (fun rows o =>
      rows ++ [⟨⟨message, o.2⟩, OffsetRow.ofMessage (clock o.2) o.1⟩]) (pending .clockOffsets)
  | .kernelSol => pending .kernelSol
  | .spikes => pending .spikes

/-- The buffers after a message. -/
def receive [Zero Value] (clock : Nat → UInt64) (message : Nat) (msg : SinkMsg Value)
    (pending : Pending Value) : Pending Value :=
  match msg with
  | .batch b => absorb clock message b pending
  | .kernelSol nodeId sol =>
    Function.update pending .kernelSol
      (pending .kernelSol ++ [⟨⟨message, 0⟩, KernelSolRow.fromProto (clock 0) nodeId sol⟩])
  | .spike row => Function.update pending .spikes (pending .spikes ++ [⟨⟨message, 0⟩, row⟩])

/-! ### Flushing -/

/-- The order of the inserts of a flush. -/
def insertOrder : List Table := [.strings, .events, .clockOffsets, .kernelSol, .spikes]

/-- The inserts of a flush over the given tables: an empty buffer is skipped, and the first
insert that fails ends the flush. Returns the database log and whether the flush got through. -/
def insertAll (succeeds : Table → Bool) (pending : Pending Value) :
    List Table → List (Insert Value) → List (Insert Value) × Bool
  | [], log => (log, true)
  | table :: rest, log =>
    if (pending table).isEmpty then insertAll succeeds pending rest log
    else if succeeds table then insertAll succeeds pending rest (log ++ [⟨table, pending table⟩])
    else (log, false)

/-- The sink task between two inputs: its buffers, the inserts that succeeded so far and the
number of messages it has received. -/
structure SinkState (Value : Type) where
  pending : Pending Value
  log : List (Insert Value)
  received : Nat

namespace SinkState

/-- The task as it starts: empty buffers, an empty database. -/
def fresh : SinkState Value where
  pending := fun _ => []
  log := []
  received := 0

/-- The task inside a flush, after the inserts of some of its tables. -/
def inserting (succeeds : Table → Bool) (tables : List Table) (state : SinkState Value) :
    SinkState Value :=
  { state with log := (insertAll succeeds state.pending tables state.log).1 }

/-- `flush`: insert every table in order and clear the buffers if nothing failed. -/
def flush (succeeds : Table → Bool) (state : SinkState Value) : SinkState Value :=
  let done := insertAll succeeds state.pending insertOrder state.log
  if done.2 then { state with pending := fun _ => [], log := done.1 }
  else { state with log := done.1 }

end SinkState

/-! ### The task -/

/-- The part of `SinkConfig` the loop reads. -/
structure SinkConfig where
  maxBatchRows : Nat

/-- One turn of the select loop: a message with the host times its rows read, or a tick of the
ticker. Each carries the outcome of every insert of the flush it may start. -/
inductive SinkInput (Value : Type) where
  | recv (msg : SinkMsg Value) (clock : Nat → UInt64) (succeeds : Table → Bool)
  | tick (succeeds : Table → Bool)

namespace SinkInput

/-- The outcomes of the inserts of the flush an input may start. -/
def succeeds : SinkInput Value → Table → Bool
  | .recv _ _ outcomes => outcomes
  | .tick outcomes => outcomes

end SinkInput

namespace SinkState

/-- The buffers after the message of an input, before any flush. -/
def arrive [Zero Value] (state : SinkState Value) : SinkInput Value → SinkState Value
  | .recv msg clock _ =>
    { state with
      pending := receive clock state.received msg state.pending
      received := state.received + 1 }
  | .tick _ => state

/-- Whether an input starts a flush: a message when the event buffer is full, a tick when any
buffer holds a row. -/
def wantsFlush (cfg : SinkConfig) (state : SinkState Value) : SinkInput Value → Bool
  | .recv _ _ _ => cfg.maxBatchRows ≤ (state.pending .events).length
  | .tick _ => !(state.pending .events).isEmpty || !(state.pending .strings).isEmpty ||
      !(state.pending .clockOffsets).isEmpty || !(state.pending .kernelSol).isEmpty ||
      !(state.pending .spikes).isEmpty

/-- One turn of the loop of `run`. -/
def step [Zero Value] (cfg : SinkConfig) (state : SinkState Value) (input : SinkInput Value) :
    SinkState Value :=
  let arrived := state.arrive input
  if arrived.wantsFlush cfg input then arrived.flush input.succeeds else arrived

end SinkState

/-- The task after the given inputs. -/
def sinkRun [Zero Value] (cfg : SinkConfig) (inputs : List (SinkInput Value)) :
    SinkState Value :=
  run (SinkState.step cfg) SinkState.fresh inputs

/-- The task after its channel has closed: the loop ends with one last flush. -/
def sinkClosed [Zero Value] (cfg : SinkConfig) (inputs : List (SinkInput Value))
    (final : Table → Bool) : SinkState Value :=
  (sinkRun cfg inputs).flush final

end PerfWeave
