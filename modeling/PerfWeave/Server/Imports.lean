/-
This file models `perfweave-server/src/api/imports.rs`: the import of a profiler report in three
steps with an await after each, the export of the report to a file of the server process, the
statement that inserts the file's kernels into `events`, and the query whose answer the import
returns. Any number of imports of one process run at the same time, so a run is an interleaving
of their steps. An exporter that succeeds replaces the file; the hash that names kernels is the
database's.
-/

import PerfWeave.Server.Sink

namespace PerfWeave

variable {Value : Type}

/-! ### What is imported -/

/-- A row of the export's table `CUPTI_ACTIVITY_KIND_KERNEL`: the columns that are read. -/
structure NsysKernel where
  start : Int64
  stop : Int64
  deviceId : Int64
  contextId : Int64
  streamId : Int64
  correlationId : Int64
  gridX : Int64
  gridY : Int64
  gridZ : Int64
  blockX : Int64
  blockY : Int64
  blockZ : Int64
  staticSharedMemory : Int64
  dynamicSharedMemory : Int64
  localMemoryPerThread : Int64
  shortName : Int64

/-- A row of the export's table `StringIds`. -/
structure NsysString where
  id : Int64
  value : Option String

/-- An exported file. -/
structure NsysExport where
  kernels : List NsysKernel
  stringIds : List NsysString

/-- The values that the left join finds for a kernel's name: the empty text when there is
none. -/
def NsysExport.names (file : NsysExport) (k : NsysKernel) : List String :=
  match file.stringIds.filter fun names => names.id = k.shortName with
  | [] => [""]
  | found => found.map fun names => names.value.getD ""

/-- The row that the statement selects for a kernel and one of its names. -/
def NsysKernel.row [Zero Value] (xxHash64 : String → UInt64) (nodeId : UInt32) (k : NsysKernel)
    (name : String) : EventRow Value where
  tsNs := k.start.toUInt64
  durationNs := (k.stop - k.start).toUInt64
  nodeId := nodeId
  gpuId := k.deviceId.toUInt64.toUInt8
  pid := 0
  tid := 0
  ctxId := k.contextId.toUInt64.toUInt32
  streamId := k.streamId.toUInt64.toUInt32
  category := 3
  nameId := xxHash64 name
  correlationId := k.correlationId.toUInt64
  parentId := 0
  metricId := 0
  metricValue := 0
  metricUnit := ""
  gridX := k.gridX.toUInt64.toUInt32
  gridY := k.gridY.toUInt64.toUInt32
  gridZ := k.gridZ.toUInt64.toUInt32
  blockX := k.blockX.toUInt64.toUInt32
  blockY := k.blockY.toUInt64.toUInt32
  blockZ := k.blockZ.toUInt64.toUInt32
  sharedStatic := k.staticSharedMemory.toUInt64.toUInt32
  sharedDynamic := k.dynamicSharedMemory.toUInt64.toUInt32
  registers := 0
  localMem := k.localMemoryPerThread.toUInt64.toUInt32
  launchCbid := 0
  memcpyKind := 0
  memcpyBytes := 0
  memcpySrc := 0
  memcpyDst := 0
  apiCbid := 0
  apiStatus := 0
  markerDomainId := 0
  markerColor := 0
  markerMessageId := 0

/-- The rows that the statement selects from a file. -/
def NsysExport.rows [Zero Value] (xxHash64 : String → UInt64) (nodeId : UInt32)
    (file : NsysExport) : List (EventRow Value) :=
  file.kernels.flatMap fun k => (file.names k).map fun name => k.row xxHash64 nodeId name

theorem NsysExport.nodeId_of_mem_rows [Zero Value] {xxHash64 : String → UInt64} {nodeId : UInt32}
    {file : NsysExport} {row : EventRow Value} (member : row ∈ file.rows xxHash64 nodeId) :
    row.nodeId = nodeId := by
  obtain ⟨k, _, named⟩ := List.mem_flatMap.mp member
  obtain ⟨name, _, rfl⟩ := List.mem_map.mp named
  rfl

/-! ### The table by node -/

/-- The rows of a node. -/
def onNode (nodeId : UInt32) (rows : List (EventRow Value)) : List (EventRow Value) :=
  rows.filter fun row => row.nodeId = nodeId

theorem onNode_append (nodeId : UInt32) (first second : List (EventRow Value)) :
    onNode nodeId (first ++ second) = onNode nodeId first ++ onNode nodeId second :=
  List.filter_append _ _

theorem onNode_rows [Zero Value] (xxHash64 : String → UInt64) (nodeId other : UInt32)
    (file : NsysExport) :
    onNode other (file.rows xxHash64 nodeId : List (EventRow Value)) =
      if nodeId = other then file.rows xxHash64 nodeId else [] := by
  unfold onNode
  split
  · rename_i same
    exact List.filter_eq_self.mpr fun row member =>
      decide_eq_true ((NsysExport.nodeId_of_mem_rows member).trans same)
  · rename_i differs
    exact List.filter_eq_nil_iff.mpr fun row member => by
      rwa [NsysExport.nodeId_of_mem_rows member, decide_eq_true_eq]

/-- `ImportResult`. -/
structure ImportResult where
  eventCount : Nat
  tsMinNs : UInt64
  tsMaxNs : UInt64

/-- The count and the extreme timestamps of some rows; the timestamps of none are 0. -/
def ImportResult.describe (rows : List (EventRow Value)) : ImportResult where
  eventCount := rows.length
  tsMinNs := .ofNat ((rows.map fun row => row.tsNs.toNat).min?.getD 0)
  tsMaxNs := .ofNat ((rows.map fun row => row.tsNs.toNat).max?.getD 0)

theorem min?_eq_of_perm {first second : List Nat} (same : first.Perm second) :
    first.min? = second.min? := by
  cases least : second.min? with
  | none =>
    rw [List.min?_eq_none_iff] at least
    rw [List.min?_eq_none_iff, ← List.perm_nil, ← least]
    exact same
  | some value =>
    rw [List.min?_eq_some_iff] at least ⊢
    exact ⟨same.mem_iff.mpr least.1, fun other member => least.2 other (same.mem_iff.mp member)⟩

theorem max?_eq_of_perm {first second : List Nat} (same : first.Perm second) :
    first.max? = second.max? := by
  cases greatest : second.max? with
  | none =>
    rw [List.max?_eq_none_iff] at greatest
    rw [List.max?_eq_none_iff, ← List.perm_nil, ← greatest]
    exact same
  | some value =>
    rw [List.max?_eq_some_iff] at greatest ⊢
    exact ⟨same.mem_iff.mpr greatest.1,
      fun other member => greatest.2 other (same.mem_iff.mp member)⟩

/-- The order of rows does not matter to what describes them. -/
theorem ImportResult.describe_eq_of_perm {first second : List (EventRow Value)}
    (same : first.Perm second) : describe first = describe second := by
  unfold describe
  rw [same.length_eq, min?_eq_of_perm (same.map _), max?_eq_of_perm (same.map _)]

/-- `window_stats`. -/
def windowStats (events : List (EventRow Value)) (nodeId : UInt32) : ImportResult :=
  .describe (onNode nodeId events)

/-! ### Imports side by side -/

/-- The process that the imports run in. -/
structure ServerProcess where
  tempDir : String
  pid : UInt32

/-- `tempdir_in_current`. -/
def ServerProcess.tempdirInCurrent (server : ServerProcess) : String :=
  s!"{server.tempDir}/perfweave-import-{server.pid}"

/-- Where an import has its report exported to. -/
def ServerProcess.sqlitePath (server : ServerProcess) : String :=
  s!"{server.tempdirInCurrent}/trace.sqlite"

/-- A call of `import_nsys`: what the exporter writes for its file, and its node. -/
structure ImportCall where
  report : NsysExport
  nodeId : UInt32

/-- The steps of an import between its awaits. -/
inductive ImportAction where
  | nsysExport
  | ingest
  | windowStats
  deriving DecidableEq

/-- A step of one of the calls. -/
structure ImportStep (Call : Type) where
  call : Call
  action : ImportAction
  deriving DecidableEq

/-- The file system, the table `events` and what the calls have returned. -/
structure ImportWorld (Call Value : Type) where
  files : String → Option NsysExport
  events : List (EventRow Value)
  results : Call → Option ImportResult

/-- The collector that the calls run in: its process, the database's hash and the calls. -/
structure ImportServer (Call : Type) where
  process : ServerProcess
  xxHash64 : String → UInt64
  calls : Call → ImportCall

variable {Call : Type} [DecidableEq Call] [Zero Value]

/-- The rows of a call's own file. -/
def ImportServer.rowsOf (server : ImportServer Call) (c : Call) : List (EventRow Value) :=
  (server.calls c).report.rows server.xxHash64 (server.calls c).nodeId

/-- One step of `import_nsys`; none when the file that it reads is missing. -/
def ImportWorld.step (server : ImportServer Call) (world : ImportWorld Call Value)
    (next : ImportStep Call) : Option (ImportWorld Call Value) :=
  let call := server.calls next.call
  let sqlitePath := server.process.sqlitePath
  match next.action with
  | .nsysExport =>
    some { world with files := Function.update world.files sqlitePath (some call.report) }
  | .ingest =>
    (world.files sqlitePath).map fun file =>
      { world with events := world.events ++ file.rows server.xxHash64 call.nodeId }
  | .windowStats =>
    some { world with
      results := Function.update world.results next.call
        (some (windowStats world.events call.nodeId)) }

end PerfWeave
