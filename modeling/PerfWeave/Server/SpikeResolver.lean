/-
This file puts `spike_context` of `perfweave-server/src/api/graphql.rs` together from its queries:
the name of the metric, the utilisation, the three kernels with the longest total time and the
kernels of the window. The second of them fails on a column that does not exist, and the resolver
with it: whatever is stored, it returns no context. Results about the kernels of the window are
about the last query on its own.
-/

import PerfWeave.Common.DoubleFit
import PerfWeave.Server.Bottleneck

namespace PerfWeave

variable {Value : Type}

/-- The tables the resolver reads. -/
structure SpikeTables (Value : Type) where
  events : List (EventRow Value)
  strings : List StringRow
  kernelSol : List (KernelSolRow Value)

/-- `TopKernelsInWindow`. -/
structure TopKernelsInWindow where
  nameId : UInt64
  name : String
  totalDurationNs : UInt64
  launches : UInt64
  meanDurationNs : UInt64

/-- `SpikeContext`. -/
structure SpikeContext (Value : Type) where
  bucketStartNs : UInt64
  bucketWidthNs : UInt64
  gpuId : UInt8
  metricId : UInt64
  metricName : String
  bottleneck : Bottleneck
  avgMemUtil : Option Value
  avgGpuUtil : Option Value
  topKernels : List TopKernelsInWindow
  kernelsInWindow : List (KernelInWindow Value)

/-- The text of the metric, or its number. -/
def metricName (strings : List StringRow) (metricId : UInt64) : String :=
  ((strings.find? fun s => s.id = metricId).map StringRow.text).getD
    ("metric#" ++ toString metricId.toNat)

/-- The row of a name: the mean is a double, cut to an integer. -/
def TopKernelsInWindow.ofGroup (rows : List (EventRow Value × StringRow)) (nameId : UInt64) :
    TopKernelsInWindow :=
  let total := rows.foldl (fun sum row => sum + row.1.durationNs) 0
  { nameId
    name := (rows.head?.map fun row => row.2.text).getD ""
    totalDurationNs := total
    launches := UInt64.ofNat rows.length
    meanDurationNs := saturateU64 ⌊double (double total.toNat / double rows.length)⌋ }

/-- `kernels_sql`: the kernels of a window by name, the three with the longest total time. -/
def topKernels (window : SpikeWindow) (events : List (EventRow Value))
    (strings : List StringRow) : List TopKernelsInWindow :=
  let rows := (joinStrings events strings).filter fun row => window.selects row.1
  let nameIdOf := fun row : EventRow Value × StringRow => row.1.nameId
  let groups := (groupKeys nameIdOf rows).map fun nameId =>
    TopKernelsInWindow.ofGroup (group nameIdOf rows nameId) nameId
  (groups.mergeSort fun first second => second.totalDurationNs ≤ first.totalDurationNs).take 3

/-- `spike_context`. A query that fails ends it. `value` stands for the column that `util_sql`
averages. -/
def spikeContext [Field Value] [LinearOrder Value] (value : EventRow Value → Value)
    (tables : SpikeTables Value) (bucketStartNs bucketWidthNs : UInt64) (gpuId : UInt8)
    (metricId : UInt64) : Except QueryError (SpikeContext Value) := do
  let window := SpikeWindow.ofSpike bucketStartNs bucketWidthNs gpuId
  let (util, bottleneck) ← spikeBottleneck value window tables.events tables.strings
  return {
    bucketStartNs, bucketWidthNs, gpuId, metricId, bottleneck
    metricName := metricName tables.strings metricId
    avgMemUtil := util.avgMemUtil
    avgGpuUtil := util.avgGpuUtil
    topKernels := topKernels window tables.events tables.strings
    kernelsInWindow := kernelsInWindow window tables.events tables.strings tables.kernelSol }

/-- Whatever is stored, the resolver fails. -/
theorem spikeContext_eq_error [Field Value] [LinearOrder Value] (value : EventRow Value → Value)
    (tables : SpikeTables Value) (bucketStartNs bucketWidthNs : UInt64) (gpuId : UInt8)
    (metricId : UInt64) :
    spikeContext value tables bucketStartNs bucketWidthNs gpuId metricId =
      .error (.unknownIdentifier "value") := by
  unfold spikeContext spikeBottleneck utilQuery
  rw [resolve_utilIdentifiers]
  rfl

end PerfWeave
