/-
This file models what the agent's samplers push: the selection of `main.rs`, the metric frames
of the synthetic, NVML and Tegra samplers, the synthetic bursts, and the CUPTI receiver, which
forwards the events of whatever batch it decodes and nothing else of it. A reading of a device
is a value the sampler was able to obtain, in the unit its metric is named for.
-/

import PerfWeave.Agent.Handover

namespace PerfWeave

variable {Value : Type}

/-! ### Configuration -/

/-- The part of `AgentConfig` that decides who samples and how the agent introduces itself. -/
structure AgentConfig where
  synthetic : Bool
  syntheticBurst : Bool
  syntheticGpus : UInt32
  nodeId : UInt32
  hostname : Option String
  ringCapacity : Nat
  rpcListen : String

/-- The command-line defaults. -/
def AgentConfig.default : AgentConfig where
  synthetic := false
  syntheticBurst := false
  syntheticGpus := 1
  nodeId := 0
  hostname := none
  ringCapacity := 1048576
  rpcListen := "127.0.0.1:7780"

/-- What the agent finds on its host and which features it was built with. -/
structure Host where
  isLinux : Bool
  isUnix : Bool
  isTegra : Bool
  nvmlFeature : Bool
  dcgmFeature : Bool
  nvmlDeviceCount : Option UInt32
  hostnameBestEffort : Option String

/-- The samplers, each with the fields its `run` reads. -/
inductive Sampler where
  | synthetic (numGpus nodeId : UInt32) (burst : Bool)
  | tegra (nodeId : UInt32)
  | nvml (nodeId : UInt32)
  | dcgm (nodeId : UInt32)
  | cupti
  deriving DecidableEq

namespace AgentConfig

/-- `build_real_samplers`: on a Tegra the sysfs sampler alone. -/
def buildRealSamplers (cfg : AgentConfig) (host : Host) : List Sampler :=
  if host.isLinux && host.isTegra then
    [.tegra cfg.nodeId]
  else
    (if host.nvmlFeature then [.nvml cfg.nodeId] else []) ++
      (if host.dcgmFeature then [.dcgm cfg.nodeId] else []) ++
        (if host.isUnix then [.cupti] else [])

/-- The samplers `main` spawns. -/
def samplers (cfg : AgentConfig) (host : Host) : List Sampler :=
  if cfg.synthetic then [.synthetic cfg.syntheticGpus cfg.nodeId cfg.syntheticBurst]
  else cfg.buildRealSamplers host

/-- `detect_gpu_count`. -/
def detectGpuCount (host : Host) : UInt32 :=
  if host.nvmlFeature then host.nvmlDeviceCount.getD 0 else 0

/-- The `UploaderConfig` of `main`. -/
def uploader (cfg : AgentConfig) (host : Host) : UploaderConfig where
  hostname := cfg.hostname.getD (host.hostnameBestEffort.getD "unknown")
  nodeId := cfg.nodeId
  numGpus := if cfg.synthetic then cfg.syntheticGpus else detectGpuCount host
  maxBatchEvents := 20000
  agentRpcAddr := if cfg.rpcListen.isEmpty then "" else "http://" ++ cfg.rpcListen

end AgentConfig

/-! ### Metric frames -/

/-- The points of some named readings, those that could be obtained, in order. -/
def metricPoints (hash : String → UInt64) (readings : List (String × Option Value)) :
    List (MetricPoint Value) :=
  readings.filterMap fun reading => reading.2.map fun value => ⟨hash reading.1, value⟩

/-- What one pass over a device through NVML returned. -/
structure NvmlReadings (Value : Type) where
  utilizationRates : Option (Value × Value)
  memoryInfo : Option (Value × Value)
  powerUsage : Option Value
  enforcedPowerLimit : Option Value
  smClock : Option Value
  memoryClock : Option Value
  temperature : Option Value
  fanSpeed : Option Value
  throttleReasons : Option Value

/-- `build_frame` of the NVML sampler. -/
def nvmlFrame (hash : String → UInt64) (nodeId gpuId : UInt32) (now : UInt64)
    (dev : NvmlReadings Value) : MetricFrame Value where
  nodeId := nodeId
  gpuId := gpuId
  tsNs := now
  points := metricPoints hash [
    ("gpu.util.percent", dev.utilizationRates.map Prod.fst),
    ("gpu.mem.util.percent", dev.utilizationRates.map Prod.snd),
    ("gpu.mem.used.bytes", dev.memoryInfo.map Prod.fst),
    ("gpu.mem.free.bytes", dev.memoryInfo.map Prod.snd),
    ("gpu.power.watts", dev.powerUsage),
    ("gpu.power.limit.watts", dev.enforcedPowerLimit),
    ("gpu.sm.clock.hz", dev.smClock),
    ("gpu.mem.clock.hz", dev.memoryClock),
    ("gpu.temp.celsius", dev.temperature),
    ("gpu.fan.percent", dev.fanSpeed),
    ("gpu.throttle.reasons.bitmask", dev.throttleReasons)]

/-- What one pass over the sysfs paths of a Tegra returned. -/
structure TegraReadings (Value : Type) where
  gpuLoad : Option Value
  gpuClock : Option Value
  gpuTemp : Option Value
  meminfo : Option (Value × Value)
  powerTotal : Option Value

/-- `build_frame` of the Tegra sampler. -/
def tegraFrame (hash : String → UInt64) (nodeId : UInt32) (now : UInt64)
    (readings : TegraReadings Value) : MetricFrame Value where
  nodeId := nodeId
  gpuId := 0
  tsNs := now
  points := metricPoints hash [
    ("gpu.util.percent", readings.gpuLoad),
    ("gpu.sm.clock.hz", readings.gpuClock),
    ("gpu.temp.celsius", readings.gpuTemp),
    ("gpu.mem.used.bytes", readings.meminfo.map Prod.fst),
    ("gpu.mem.free.bytes", readings.meminfo.map Prod.snd),
    ("soc.power.watts", readings.powerTotal)]

/-- `METRIC_NAMES` of the synthetic sampler. -/
def syntheticMetricNames : List String :=
  ["gpu.util.percent", "gpu.mem.util.percent", "gpu.mem.used.bytes", "gpu.power.watts",
    "gpu.sm.clock.hz", "gpu.mem.bandwidth.bytes_per_sec"]

/-- The frame of a synthetic GPU at one tick; `value` stands for the random readings. -/
def syntheticFrame (hash : String → UInt64) (nodeId gpuId : UInt32) (now : UInt64)
    (value : String → Value) : MetricFrame Value where
  nodeId := nodeId
  gpuId := gpuId
  tsNs := now
  points := syntheticMetricNames.map fun name => ⟨hash name, value name⟩

/-! ### Synthetic bursts -/

/-- `KERNEL_NAMES`. -/
def syntheticKernelNames : List String :=
  ["void cutlass::Kernel<cutlass::gemm::kernel::Gemm>(...)",
    "void at::native::vectorized_elementwise_kernel<...>(int, ...)",
    "void at::native::reduce_kernel<512, 1, ...>()",
    "void flash_attention::mha_fwd_kernel<...>()",
    "void cub::DeviceReduceKernel<...>()",
    "void nccl::ncclAllReduceRing<...>()",
    "void cudnn::conv::Conv2dKernel<...>()"]

/-- `API_NAMES`. -/
def syntheticApiNames : List String :=
  ["cuLaunchKernel", "cudaMemcpyAsync", "cudaMalloc", "cudaFree", "cudaStreamSynchronize",
    "cudaEventRecord", "cudaMemsetAsync"]

/-- The random draws behind one launch of a burst. -/
structure LaunchDraws where
  kernel : Fin syntheticKernelNames.length
  api : Fin syntheticApiNames.length
  apiDelay : UInt64
  apiDuration : UInt64
  kernelDelay : UInt64
  kernelDuration : UInt64
  apiStream : UInt32
  kernelStream : UInt32
  cbid : UInt32
  gridX : UInt32
  dynamicSharedMemBytes : UInt32
  registersPerThread : UInt32

/-- The random draws behind one copy of a burst. -/
structure CopyDraws where
  delay : UInt64
  duration : UInt64
  bytes : UInt64

/-- The event all members of a burst share: process, node, GPU and no parent. -/
def syntheticEvent (nodeId gpuId : UInt32) (tsNs durationNs : UInt64) (streamId : UInt32)
    (category : Category) (nameId correlationId : UInt64) (payload : Payload Value) :
    Event Value where
  tsNs := tsNs
  durationNs := durationNs
  nodeId := nodeId
  gpuId := gpuId
  pid := 12345
  tid := 1
  ctxId := 1
  streamId := streamId
  category := category.asI32
  nameId := nameId
  correlationId := correlationId
  parentId := 0
  payload := some payload

/-- The API call of a launch. -/
def syntheticApiCall (hash : String → UInt64) (nodeId gpuId : UInt32) (now corr : UInt64)
    (draws : LaunchDraws) : Event Value :=
  syntheticEvent nodeId gpuId (now + draws.apiDelay) draws.apiDuration draws.apiStream .apiCall
    (hash (syntheticApiNames.get draws.api)) corr (.api ⟨draws.cbid, 0⟩)

/-- The kernel of a launch. -/
def syntheticKernel (hash : String → UInt64) (nodeId gpuId : UInt32) (now corr : UInt64)
    (draws : LaunchDraws) : Event Value :=
  syntheticEvent nodeId gpuId (now + draws.apiDelay + draws.apiDuration + draws.kernelDelay)
    draws.kernelDuration draws.kernelStream .kernel
    (hash (syntheticKernelNames.get draws.kernel)) corr
    (.kernel {
      gridX := draws.gridX, gridY := 1, gridZ := 1
      blockX := 128, blockY := 1, blockZ := 1
      staticSharedMemBytes := 0
      dynamicSharedMemBytes := draws.dynamicSharedMemBytes
      registersPerThread := draws.registersPerThread
      localMemPerThread := 0
      launchCbid := 211 })

/-- The copy of a burst. -/
def syntheticCopy (hash : String → UInt64) (nodeId gpuId : UInt32) (now : UInt64)
    (draws : CopyDraws) : Event Value :=
  syntheticEvent nodeId gpuId (now + draws.delay) draws.duration 0 .memcpy
    (hash "cudaMemcpyH2D") 0 (.memcpy ⟨MemcpyKind.h2d.asI32, draws.bytes, 0, gpuId⟩)

/-- What the synthetic sampler pushes for one GPU at one tick, `corr` being its next
correlation id: the frame, and with `burst` the launches and perhaps a copy. -/
def syntheticTick (hash : String → UInt64) (nodeId gpuId : UInt32) (burst : Bool)
    (now corr : UInt64) (value : String → Value) (launches : List LaunchDraws)
    (copy : Option CopyDraws) : List (SessionInput Value) :=
  .pushFrame (syntheticFrame hash nodeId gpuId now value) ::
    if burst then
      (launches.zipIdx.flatMap fun launch =>
        [.push (syntheticApiCall hash nodeId gpuId now (corr + UInt64.ofNat launch.2) launch.1),
          .push (syntheticKernel hash nodeId gpuId now (corr + UInt64.ofNat launch.2) launch.1)]) ++
        (copy.map fun draws => .push (syntheticCopy hash nodeId gpuId now draws)).toList
    else
      []

/-! ### What each sampler pushes -/

/-- The pushes a sampler can make. The DCGM sampler makes none, and the CUPTI receiver pushes
the events of any batch that reaches its socket. -/
inductive Sampler.Emits (hash : String → UInt64) : Sampler → SessionInput Value → Prop where
  | synthetic {numGpus nodeId gpuId : UInt32} {burst : Bool} {now corr : UInt64}
      {value : String → Value} {launches : List LaunchDraws} {copy : Option CopyDraws}
      {input : SessionInput Value} (withinGpus : gpuId < numGpus)
      (member : input ∈ syntheticTick hash nodeId gpuId burst now corr value launches copy) :
      Emits hash (.synthetic numGpus nodeId burst) input
  | tegra {nodeId : UInt32} (now : UInt64) (readings : TegraReadings Value) :
      Emits hash (.tegra nodeId) (.pushFrame (tegraFrame hash nodeId now readings))
  | nvml {nodeId : UInt32} (gpuId : UInt32) (now : UInt64) (dev : NvmlReadings Value) :
      Emits hash (.nvml nodeId) (.pushFrame (nvmlFrame hash nodeId gpuId now dev))
  | cupti {batch : Batch Value} {e : Event Value} (member : e ∈ batch.events) :
      Emits hash .cupti (.push e)

/-- An input that is a push is a push of one of the samplers. -/
def SessionInput.EmittedBy (hash : String → UInt64) (samplers : List Sampler)
    (input : SessionInput Value) : Prop :=
  match input with
  | .push e => ∃ sampler ∈ samplers, sampler.Emits hash (.push e)
  | .pushFrame f => ∃ sampler ∈ samplers, sampler.Emits hash (.pushFrame f)
  | .setOffset _ => True
  | .flushTick => True
  | .droppedTick => True

/-- A push of the CUPTI receiver as the injector feeds it: `parse_record` writes node id 0
into every event. -/
def SessionInput.Injected : SessionInput Value → Prop
  | .push e => e.nodeId = 0
  | _ => False

/-! ### What the samplers stamp -/

/-- The node id a sampler puts on what it pushes; the CUPTI receiver puts none. -/
def Sampler.stamp : Sampler → Option UInt32
  | .synthetic _ nodeId _ => some nodeId
  | .tegra nodeId => some nodeId
  | .nvml nodeId => some nodeId
  | .dcgm nodeId => some nodeId
  | .cupti => none

/-- An event that carries a node id and no metric. -/
def Event.StampedActivity (nodeId : UInt32) (e : Event Value) : Prop :=
  e.nodeId = nodeId ∧ ∀ m, e.payload ≠ some (.metric m)

/-- A sampler stamps every frame and event it pushes, and its events are no metrics. -/
theorem Sampler.Emits.stamped {hash : String → UInt64} {sampler : Sampler}
    {input : SessionInput Value} (emits : sampler.Emits hash input) {nodeId : UInt32}
    (stamp : sampler.stamp = some nodeId) :
    input.All (Event.StampedActivity nodeId) (fun f => f.nodeId = nodeId) := by
  cases emits with
  | synthetic _ member =>
    cases stamp
    rcases List.mem_cons.mp member with rfl | burst
    · rfl
    · split at burst
      · rcases List.mem_append.mp burst with launch | copy
        · obtain ⟨draws, _, pair⟩ := List.mem_flatMap.mp launch
          rcases List.mem_pair.mp pair with rfl | rfl
          · exact ⟨rfl, fun _ => nofun⟩
          · exact ⟨rfl, fun _ => nofun⟩
        · obtain ⟨draws, _, rfl⟩ := Option.map_eq_some_iff.mp (Option.mem_toList.mp copy)
          exact ⟨rfl, fun _ => nofun⟩
      · exact absurd burst List.not_mem_nil
  | tegra =>
    cases stamp
    rfl
  | nvml =>
    cases stamp
    rfl
  | cupti => cases stamp

namespace AgentConfig

/-- The samplers that stamp what they push. -/
def stampingSamplers (cfg : AgentConfig) (host : Host) : List Sampler :=
  (cfg.samplers host).filter fun sampler => sampler ≠ .cupti

/-- Every sampler of an agent but the CUPTI receiver stamps the configured id. -/
theorem stamp_of_mem_stampingSamplers {cfg : AgentConfig} {host : Host} {sampler : Sampler}
    (member : sampler ∈ cfg.stampingSamplers host) : sampler.stamp = some cfg.nodeId := by
  obtain ⟨spawned, other⟩ := List.mem_filter.mp member
  have alternative : ∀ (present : Bool) (one : Sampler),
      sampler ∈ (if present then [one] else []) → sampler = one := by
    intro present one spawned
    cases present with
    | true => exact List.mem_singleton.mp spawned
    | false => exact absurd spawned List.not_mem_nil
  unfold samplers at spawned
  split at spawned
  · rw [List.mem_singleton.mp spawned]
    rfl
  · unfold buildRealSamplers at spawned
    split at spawned
    · rw [List.mem_singleton.mp spawned]
      rfl
    · rcases List.mem_append.mp spawned with metrics | receiver
      · rcases List.mem_append.mp metrics with nvml | dcgm
        · rw [alternative _ _ nvml]
          rfl
        · rw [alternative _ _ dcgm]
          rfl
      · exact absurd (alternative _ _ receiver) (of_decide_eq_true other)

end AgentConfig

/-- What the stamping samplers of an agent push carries the configured id and no metric. -/
theorem SessionInput.EmittedBy.stamped {hash : String → UInt64} {cfg : AgentConfig}
    {host : Host} {input : SessionInput Value}
    (emitted : input.EmittedBy hash (cfg.stampingSamplers host)) :
    input.All (Event.StampedActivity cfg.nodeId) (fun f => f.nodeId = cfg.nodeId) := by
  cases input with
  | push e =>
    obtain ⟨sampler, member, emits⟩ := emitted
    exact emits.stamped (AgentConfig.stamp_of_mem_stampingSamplers member)
  | pushFrame f =>
    obtain ⟨sampler, member, emits⟩ := emitted
    exact emits.stamped (AgentConfig.stamp_of_mem_stampingSamplers member)
  | setOffset c => trivial
  | flushTick => trivial
  | droppedTick => trivial

/-! ### A synthetic agent -/

/-- An agent started with `--synthetic` alone. -/
def AgentConfig.syntheticDefault : AgentConfig := { AgentConfig.default with synthetic := true }

/-- A host without a GPU. -/
def plainHost : Host where
  isLinux := true
  isUnix := true
  isTegra := false
  nvmlFeature := false
  dcgmFeature := false
  nvmlDeviceCount := none
  hostnameBestEffort := some "gpu-a"

/-- A hash for runs on fixed inputs that tells the metric names apart. -/
def polynomialHash (text : String) : UInt64 :=
  text.toList.foldl (fun sum character => sum * 31 + UInt64.ofNat character.toNat) 7

/-- A synthetic agent pushes the frame of its one GPU and flushes. -/
def syntheticFrameInputs (hash : String → UInt64) (nodeId : UInt32) : List (SessionInput Nat) :=
  syntheticTick hash nodeId 0 false 1000 1 (fun _ => 57) [] none ++ [.flushTick]

/-- What it pushes comes from its sampler. -/
theorem syntheticFrameInputs_emitted (hash : String → UInt64) (nodeId : UInt32) :
    ∀ input ∈ syntheticFrameInputs hash nodeId, input.EmittedBy hash
      ({ AgentConfig.syntheticDefault with nodeId := nodeId }.stampingSamplers plainHost) := by
  intro input member
  rcases List.mem_pair.mp member with rfl | rfl
  · have inTick : SessionInput.pushFrame (syntheticFrame hash nodeId 0 1000 fun _ => 57) ∈
        syntheticTick hash nodeId 0 false 1000 1 (fun _ => 57) [] none := List.mem_cons_self
    exact ⟨_, List.mem_singleton_self _, .synthetic (show (0 : UInt32) < 1 by decide) inTick⟩
  · trivial

end PerfWeave
