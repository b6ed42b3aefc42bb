/-
This file models the list of kernels in `spike_context` of `perfweave-server/src/api/graphql.rs`:
the last query of the resolver, which joins the kernels of a spike's window with the speed-of-light
reports, and what it makes of the rows. What is proved of it is about this query on its own; the
resolver as a whole is in `Server.SpikeResolver`. The tables are lists in the order the query reads
them; `strings` is the table as `FINAL` shows it. Columns that no row matches hold the default of
their type, as ClickHouse leaves them with `join_use_nulls = 0`. All the `argMax` columns of the
query have one measure, so they take their values from one row.
-/

import PerfWeave.Library.MachineInt
import PerfWeave.Library.Relational
import PerfWeave.Server.Sink

namespace PerfWeave

variable {Value : Type}

/-! ### The window -/

/-- `PAD`: 500 ms on each side. -/
def windowPad : UInt64 := 500000000

/-- `saturating_add` of 64-bit words. -/
def saturatingAdd (first second : UInt64) : UInt64 :=
  UInt64.ofNat (min (first.toNat + second.toNat) (2 ^ 64 - 1))

/-- `[win_start, win_end)` and the GPU a spike is drilled into on. -/
structure SpikeWindow where
  gpuId : UInt8
  winStart : UInt64
  winEnd : UInt64

/-- The window of a spike. -/
def SpikeWindow.ofSpike (bucketStartNs bucketWidthNs : UInt64) (gpuId : UInt8) : SpikeWindow where
  gpuId := gpuId
  winStart := saturatingSub bucketStartNs windowPad
  winEnd := saturatingAdd (saturatingAdd bucketStartNs bucketWidthNs) windowPad

/-- The `WHERE` clause of the query over the kernels of a window. -/
def SpikeWindow.selects (window : SpikeWindow) (e : EventRow Value) : Bool :=
  e.category = categoryToI8 .kernel && e.gpuId = window.gpuId && window.winStart ≤ e.tsNs &&
    e.tsNs < window.winEnd

/-! ### The rows of the answer -/

/-- `toString` of an `Enum8` whose members are numbered from zero. -/
def enumText (members : List String) (number : Int8) : String :=
  members.getD number.toNatClampNeg ""

/-- The members of the `bound` column. -/
def boundMembers : List String := ["UNKNOWN", "MEMORY", "COMPUTE", "LATENCY", "BALANCED"]

/-- The members of the `confidence` column. -/
def confidenceMembers : List String := ["UNKNOWN", "LOW", "HIGH"]

/-- The members of the `source` column. -/
def sourceMembers : List String := ["UNKNOWN", "HOST_SAMPLING", "REPLAY"]

/-- `KernelSolRow` of the API: the numbers shown for a kernel. -/
structure Api.KernelSolRow (Value : Type) where
  smActivePct : Value
  achievedOccupancyPct : Value
  dramBwPct : Value
  l1BwPct : Value
  l2BwPct : Value
  instThroughputPct : Value
  arithmeticIntensity : Value
  achievedGflops : Value
  bound : String
  confidence : String
  source : String
  deriving DecidableEq

/-- The numbers of a row of `kernel_sol`. -/
def Api.KernelSolRow.ofRow (k : PerfWeave.KernelSolRow Value) : Api.KernelSolRow Value where
  smActivePct := k.smActivePct
  achievedOccupancyPct := k.achievedOccupancyPct
  dramBwPct := k.dramBwPct
  l1BwPct := k.l1BwPct
  l2BwPct := k.l2BwPct
  instThroughputPct := k.instThroughputPct
  arithmeticIntensity := k.arithmeticIntensity
  achievedGflops := k.achievedGflops
  bound := enumText boundMembers k.bound
  confidence := enumText confidenceMembers k.confidence
  source := enumText sourceMembers k.source

/-- The columns the query groups by. -/
structure KernelGroup where
  correlationId : UInt64
  nameId : UInt64
  name : String
  tsNs : UInt64
  durationNs : UInt64
  gpuId : UInt8
  deriving DecidableEq

/-- `KernelInWindow`. -/
structure KernelInWindow (Value : Type) extends KernelGroup where
  sol : Option (Api.KernelSolRow Value)
  deriving DecidableEq

/-! ### The query -/

/-- The row of `strings` for a name that has none. -/
def StringRow.unmatched : StringRow := ⟨0, ""⟩

/-- The row of `kernel_sol` for a kernel that has none. -/
def KernelSolRow.unmatched [Zero Value] : KernelSolRow Value where
  tsNs := 0
  nodeId := 0
  gpuId := 0
  correlationId := 0
  smActivePct := 0
  achievedOccupancyPct := 0
  dramBwPct := 0
  l1BwPct := 0
  l2BwPct := 0
  instThroughputPct := 0
  theoreticalOccupancyPct := 0
  arithmeticIntensity := 0
  achievedGflops := 0
  bound := 0
  confidence := 0
  source := 0
  stallReasons := []
  stallCounts := []

/-- `LEFT JOIN strings AS s FINAL ON s.id = e.name_id`. -/
def joinStrings (events : List (EventRow Value)) (strings : List StringRow) :
    List (EventRow Value × StringRow) :=
  leftJoin (fun e s => s.id = e.nameId) .unmatched events strings

/-- `LEFT JOIN kernel_sol AS k ON k.correlation_id = e.correlation_id`. -/
def joinKernelSol [Zero Value] (named : List (EventRow Value × StringRow))
    (kernelSol : List (KernelSolRow Value)) :
    List ((EventRow Value × StringRow) × KernelSolRow Value) :=
  leftJoin (fun e k => k.correlationId = e.1.correlationId) .unmatched named kernelSol

/-- The group of a kernel with its name. -/
def KernelGroup.ofRow (named : EventRow Value × StringRow) : KernelGroup where
  correlationId := named.1.correlationId
  nameId := named.1.nameId
  name := named.2.text
  tsNs := named.1.tsNs
  durationNs := named.1.durationNs
  gpuId := named.1.gpuId

/-- `ORDER BY e.duration_ns DESC LIMIT 32` over the groups. -/
def longestFirst (groups : List KernelGroup) : List KernelGroup :=
  (groups.mergeSort fun first second => second.durationNs ≤ first.durationNs).take 32

/-- What the resolver makes of a group: the rows of `kernel_sol` it was joined with are counted,
and if there are any the numbers are those of the first row with the highest confidence. -/
def kernelInWindow (group : KernelGroup) (joined : List (KernelSolRow Value)) :
    KernelInWindow Value where
  toKernelGroup := group
  sol := if joined.length > 0 then
      (argMax (fun k => k.confidence.toInt) joined).map Api.KernelSolRow.ofRow
    else none

/-- `kernels_in_window` of `spike_context`. -/
def kernelsInWindow [Zero Value] (window : SpikeWindow) (events : List (EventRow Value))
    (strings : List StringRow) (kernelSol : List (KernelSolRow Value)) :
    List (KernelInWindow Value) :=
  let joined := (joinKernelSol (joinStrings events strings) kernelSol).filter fun row =>
    window.selects row.1.1
  let groupOf := fun row : (EventRow Value × StringRow) × KernelSolRow Value =>
    KernelGroup.ofRow row.1
  (longestFirst (groupKeys groupOf joined)).map fun k =>
    kernelInWindow k ((group groupOf joined k).map Prod.snd)

/-- The groups that a window shows: its 32 longest kernels. -/
def kernelsListed (window : SpikeWindow) (events : List (EventRow Value))
    (strings : List StringRow) : List KernelGroup :=
  longestFirst (groupKeys KernelGroup.ofRow ((joinStrings events strings).filter fun row =>
    window.selects row.1))

end PerfWeave
