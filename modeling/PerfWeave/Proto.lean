/-
This file transcribes the wire messages of `proto/perfweave.proto`. Integer fields are the
words of their protobuf type; an enumeration field is the open `int32` the wire carries,
with the enumeration beside it and the decoder that maps an unknown number to the default
member. Floating-point fields range over a type `Value` that the theorems leave arbitrary:
nothing the transport does to a reading depends on its arithmetic.
-/

import Mathlib

namespace PerfWeave

/-! ### Categories -/

/-- `Category`: what an event is about. -/
inductive Category where
  | unspecified
  | metric
  | apiCall
  | kernel
  | memcpy
  | memset
  | sync
  | overhead
  | marker
  | sol
  deriving DecidableEq

/-- `category as i32`: the number the wire carries. -/
def Category.asI32 : Category → Int32
  | .unspecified => 0
  | .metric => 1
  | .apiCall => 2
  | .kernel => 3
  | .memcpy => 4
  | .memset => 5
  | .sync => 6
  | .overhead => 7
  | .marker => 8
  | .sol => 9

/-- The decoder of an open category field: unknown numbers read as `unspecified`. -/
def Category.ofI32 (number : Int32) : Category :=
  if number = 1 then .metric
  else if number = 2 then .apiCall
  else if number = 3 then .kernel
  else if number = 4 then .memcpy
  else if number = 5 then .memset
  else if number = 6 then .sync
  else if number = 7 then .overhead
  else if number = 8 then .marker
  else if number = 9 then .sol
  else .unspecified

/-! ### Event payloads -/

variable {Value : Type}

/-- `MetricSample`: one metric reading with its unit. -/
structure MetricSample (Value : Type) where
  metricId : UInt64
  value : Value
  unit : String

/-- `KernelDetail`: the launch configuration of a kernel. -/
structure KernelDetail where
  gridX : UInt32
  gridY : UInt32
  gridZ : UInt32
  blockX : UInt32
  blockY : UInt32
  blockZ : UInt32
  staticSharedMemBytes : UInt32
  dynamicSharedMemBytes : UInt32
  registersPerThread : UInt32
  localMemPerThread : UInt32
  launchCbid : UInt32

/-- `MemcpyDetail.Kind`: the direction of a copy. -/
inductive MemcpyKind where
  | unknown
  | h2d
  | d2h
  | d2d
  | h2h
  | p2p
  deriving DecidableEq

/-- `kind as i32` of a copy direction. -/
def MemcpyKind.asI32 : MemcpyKind → Int32
  | .unknown => 0
  | .h2d => 1
  | .d2h => 2
  | .d2d => 3
  | .h2h => 4
  | .p2p => 5

/-- The decoder of an open copy-direction field: unknown numbers read as `unknown`. -/
def MemcpyKind.ofI32 (number : Int32) : MemcpyKind :=
  if number = 1 then .h2d
  else if number = 2 then .d2h
  else if number = 3 then .d2d
  else if number = 4 then .h2h
  else if number = 5 then .p2p
  else .unknown

/-- `MemcpyDetail`: direction, size and devices of a copy. -/
structure MemcpyDetail where
  kind : Int32
  bytes : UInt64
  srcDevice : UInt32
  dstDevice : UInt32

/-- `ApiCallDetail`: the callback id of a driver or runtime call and its status. -/
structure ApiCallDetail where
  cbid : UInt32
  status : UInt32

/-- `MarkerDetail`: an NVTX range or mark. -/
structure MarkerDetail where
  domainId : UInt64
  colorArgb : UInt32
  messageId : UInt64

/-- `StallCount`: how often a stall reason was sampled. -/
structure StallCount where
  reasonId : UInt32
  count : UInt32

/-- `KernelSol`: the speed-of-light report of one kernel launch. -/
structure KernelSol (Value : Type) where
  correlationId : UInt64
  smActivePct : Value
  achievedOccupancyPct : Value
  dramBwPct : Value
  l1BwPct : Value
  l2BwPct : Value
  instThroughputPct : Value
  theoreticalOccupancyPct : Value
  arithmeticIntensity : Value
  achievedGflops : Value
  bound : Int32
  confidence : Int32
  source : Int32
  stalls : List StallCount

/-- `event::Payload`: the members of the `payload` oneof. -/
inductive Payload (Value : Type) where
  | metric (sample : MetricSample Value)
  | kernel (detail : KernelDetail)
  | memcpy (detail : MemcpyDetail)
  | api (detail : ApiCallDetail)
  | marker (detail : MarkerDetail)
  | sol (report : KernelSol Value)

/-- `Event`: the canonical GPU event. -/
structure Event (Value : Type) where
  tsNs : UInt64
  durationNs : UInt64
  nodeId : UInt32
  gpuId : UInt32
  pid : UInt32
  tid : UInt32
  ctxId : UInt32
  streamId : UInt32
  category : Int32
  nameId : UInt64
  correlationId : UInt64
  parentId : UInt64
  payload : Option (Payload Value)

/-! ### Batches -/

/-- `MetricPoint`: one metric of a frame. -/
structure MetricPoint (Value : Type) where
  metricId : UInt64
  value : Value

/-- `MetricFrame`: every metric of one GPU at one time. -/
structure MetricFrame (Value : Type) where
  nodeId : UInt32
  gpuId : UInt32
  tsNs : UInt64
  points : List (MetricPoint Value)

/-- `StringIntern`: the text behind an interned id. -/
structure StringIntern where
  id : UInt64
  text : String
  deriving DecidableEq

/-- `v1::ClockOffset`: a clock fit as the wire carries it, every field an unsigned word. -/
structure ClockOffsetMessage where
  nodeId : UInt32
  gpuId : UInt32
  offsetNs : UInt64
  slopeNum : UInt64
  slopeDen : UInt64
  residualMaxNs : UInt64
  deriving DecidableEq

/-- `Batch`: one message of the ingest stream. -/
structure Batch (Value : Type) where
  events : List (Event Value)
  strings : List StringIntern
  offsets : List ClockOffsetMessage
  metricFrames : List (MetricFrame Value)

/-- `Ack`: the running totals the collector reports after each batch. -/
structure Ack where
  accepted : UInt64
  dropped : UInt64
  deriving DecidableEq

/-- `AgentHello`: how an agent introduces itself. -/
structure AgentHello where
  nodeId : UInt32
  hostname : String
  agentVersion : String
  numGpus : UInt32
  agentRpcAddr : String

/-- `RegisterAck`: the collector's answer to a hello. -/
structure RegisterAck where
  assignedNodeId : UInt32
  serverEpochNs : UInt64

end PerfWeave
