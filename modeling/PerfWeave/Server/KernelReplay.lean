/-
This file models profiling on demand: the agent's `rpc_server.rs`, which replays kernels and streams
what it measured, and on the server `replay.rs` and the mutation of `api/graphql.rs`, which ask for
it, store it and hand it on. What an agent streams arrives in order, up to where the stream ends or
breaks. So the caller gets the reports of the first of the kernels it asked for; and once they are
stored, the query for the kernels of a window has a report of high confidence for each. The resolver
around that query fails before it comes to it.
-/

import PerfWeave.Inject.HostSampler
import PerfWeave.Library.SignificantBits
import PerfWeave.Server.Register
import PerfWeave.System.SolAttribution

namespace PerfWeave

variable {Value : Type}

/-! ### The agent -/

/-- `ProfileRequest`. -/
structure ProfileRequest where
  gpuId : UInt32
  windowStartNs : UInt64
  windowEndNs : UInt64
  correlationIds : List UInt64
  nameIds : List UInt64
  timeoutMs : UInt32

/-- The bounds of the reports: memory, compute, latency and balanced in turn. -/
def replayBound (i : Nat) : Bound :=
  match i % 4 with
  | 0 => .memory
  | 1 => .compute
  | 2 => .latency
  | _ => .balanced

/-- The report that `synthetic_replay` makes up for the `i`th kernel. Its single-precision numbers
are all whole, or short. -/
def replaySol (hash : String → UInt64) (i : Nat) (corr : UInt64) : KernelSol ℚ where
  correlationId := corr
  smActivePct := 35 + (roundSignificant 24 (roundSignificant 24 i * 5) % 60 : ℕ)
  achievedOccupancyPct := 40
  dramBwPct := 70 - (roundSignificant 24 (roundSignificant 24 i * 3) % 40 : ℕ)
  l1BwPct := 25
  l2BwPct := 50
  instThroughputPct := 60
  theoreticalOccupancyPct := 60
  arithmeticIntensity := 425 / 100
  achievedGflops := 1200
  bound := (replayBound i).asI32
  confidence := 2
  source := 2
  stalls := [⟨(hash "MemoryThrottle").toUInt32, 1000⟩, ⟨(hash "Barrier").toUInt32, 250⟩]

/-- `synthetic_replay`: a report for every kernel that is asked for, in order. -/
def syntheticReplay (hash : String → UInt64) (req : ProfileRequest) : List (KernelSol ℚ) :=
  (if req.correlationIds.isEmpty then req.nameIds else req.correlationIds).mapIdx
    (replaySol hash)

/-- What `profile_kernels` of the agent streams: reports, or an error. -/
def AgentRpcServer.profileKernels (hash : String → UInt64) (synthetic : Bool)
    (req : ProfileRequest) : List (Except String (KernelSol ℚ)) :=
  if synthetic then (syntheticReplay hash req).map .ok
  else
    [.error ("CUPTI_PROFILER_REPLAY_KERNEL not compiled in; " ++
      "rebuild agent with --features cupti-replay")]

/-! ### The server -/

/-- `profile_kernels` of `replay.rs`, with what the agent at an address streams. -/
def profileKernels (registry : AgentRegistry)
    (connect : String → ProfileRequest → Except String (List (Except String (KernelSol Value))))
    (nodeId : UInt32) (req : ProfileRequest) :
    Except String (List (Except String (KernelSol Value))) :=
  match registry.get nodeId with
  | none => .error s!"node {nodeId} not registered"
  | some entry =>
    match entry.rpcAddr with
    | none => .error (s!"agent on node {nodeId} did not advertise an RPC address; " ++
        "build with --features cupti-replay")
    | some addr => connect addr req

/-- The names of the members of `Bound`. -/
def boundNames : List String := ["Unknown", "Memory", "Compute", "Latency", "Balanced"]

/-- The names of the members of `Confidence`. -/
def confidenceNames : List String := ["ConfUnknown", "Low", "High"]

/-- The names of the members of `Source`. -/
def sourceNames : List String := ["SrcUnknown", "HostSampling", "Replay"]

/-- `kernel_sol_to_row`. -/
def kernelSolToRow (s : KernelSol Value) : Api.KernelSolRow Value where
  smActivePct := s.smActivePct
  achievedOccupancyPct := s.achievedOccupancyPct
  dramBwPct := s.dramBwPct
  l1BwPct := s.l1BwPct
  l2BwPct := s.l2BwPct
  instThroughputPct := s.instThroughputPct
  arithmeticIntensity := s.arithmeticIntensity
  achievedGflops := s.achievedGflops
  bound := enumText boundNames (denseEnum 4 s.bound)
  confidence := enumText confidenceNames (denseEnum 2 s.confidence)
  source := enumText sourceNames (denseEnum 2 s.source)

/-- `ProfileKernelsAck`. -/
structure ProfileKernelsAck (Value : Type) where
  nodeId : UInt32
  requested : UInt32
  completed : UInt32
  results : List (Api.KernelSolRow Value)

/-- The reports of a stream up to its end or its first error. -/
def drainReplay : List (Except String (KernelSol Value)) → List (KernelSol Value)
  | .ok sol :: rest => sol :: drainReplay rest
  | _ => []

/-- The mutation `profile_kernels`: its answer, and the reports it pushes to the sink. -/
def Mutation.profileKernels (registry : AgentRegistry)
    (connect : String → ProfileRequest → Except String (List (Except String (KernelSol Value))))
    (nodeId gpuId : UInt32) (windowStartNs windowEndNs : UInt64) (correlationIds : List UInt64)
    (timeoutMs : Option UInt32) :
    Except String (ProfileKernelsAck Value × List (UInt32 × KernelSol Value)) :=
  let req : ProfileRequest :=
    ⟨gpuId, windowStartNs, windowEndNs, correlationIds, [], timeoutMs.getD 5000⟩
  match PerfWeave.profileKernels registry connect nodeId req with
  | .error e => .error s!"profile_kernels: {e}"
  | .ok stream =>
    let sols := drainReplay stream
    .ok (⟨nodeId, UInt32.ofNat correlationIds.length, UInt32.ofNat sols.length,
      sols.map kernelSolToRow⟩, sols.map fun sol => (nodeId, sol))

/-! ### What comes back -/

/-- What arrives of a stream: all of it, or what came before it broke, and an error. -/
def Arrives (sent received : List (Except String (KernelSol Value))) : Prop :=
  received = sent ∨ ∃ count status, received = sent.take count ++ [.error status]

theorem drainReplay_ok_append (sols : List (KernelSol Value))
    (rest : List (Except String (KernelSol Value))) :
    drainReplay (sols.map .ok ++ rest) = sols ++ drainReplay rest := by
  induction sols with
  | nil => rfl
  | cons sol sols inductionHypothesis => exact congrArg (sol :: ·) inductionHypothesis

/-- Of what an agent streams, the first reports come back. -/
theorem drainReplay_of_arrives {hash : String → UInt64} {synthetic : Bool} {req : ProfileRequest}
    {received : List (Except String (KernelSol ℚ))}
    (arrives : Arrives (AgentRpcServer.profileKernels hash synthetic req) received) :
    ∃ count, drainReplay received = (syntheticReplay hash req).take count := by
  cases synthetic with
  | true =>
    rcases arrives with rfl | ⟨count, status, rfl⟩
    · have all := drainReplay_ok_append (syntheticReplay hash req) []
      rw [List.append_nil] at all
      refine ⟨(syntheticReplay hash req).length, all.trans ?_⟩
      rw [List.take_length]
      exact List.append_nil _
    · refine ⟨count, ?_⟩
      show drainReplay (((syntheticReplay hash req).map .ok).take count ++ _) = _
      rw [← List.map_take, drainReplay_ok_append]
      exact List.append_nil _
  | false =>
    refine ⟨0, ?_⟩
    rcases arrives with rfl | ⟨count, status, rfl⟩
    · rfl
    · cases count <;> rfl

/-- Every agent is reached as its `rpc_server.rs` streams, as far as it gets. -/
def Connects (hash : String → UInt64)
    (connect : String → ProfileRequest → Except String (List (Except String (KernelSol ℚ)))) :
    Prop :=
  ∀ addr req received, connect addr req = .ok received →
    ∃ synthetic, Arrives (AgentRpcServer.profileKernels hash synthetic req) received

/-- What the mutation answers and pushes: the reports of the first of the kernels it is asked for,
in their order. -/
theorem Mutation.profileKernels_eq {hash : String → UInt64}
    {connect : String → ProfileRequest → Except String (List (Except String (KernelSol ℚ)))}
    (connects : Connects hash connect) {registry : AgentRegistry} {nodeId gpuId : UInt32}
    {windowStartNs windowEndNs : UInt64} {correlationIds : List UInt64} {timeoutMs : Option UInt32}
    {ack : ProfileKernelsAck ℚ} {pushed : List (UInt32 × KernelSol ℚ)}
    (answered : Mutation.profileKernels registry connect nodeId gpuId windowStartNs windowEndNs
      correlationIds timeoutMs = .ok (ack, pushed)) :
    ∃ sols, sols = (correlationIds.mapIdx (replaySol hash)).take sols.length ∧
      ack = ⟨nodeId, UInt32.ofNat correlationIds.length, UInt32.ofNat sols.length,
        sols.map kernelSolToRow⟩ ∧
      pushed = sols.map fun sol => (nodeId, sol) := by
  unfold Mutation.profileKernels at answered
  simp only at answered
  split at answered
  · exact absurd answered (by simp)
  · rename_i stream streamed
    obtain ⟨rfl, rfl⟩ := Prod.mk.inj (Except.ok.inj answered)
    refine ⟨drainReplay stream, ?_, rfl, rfl⟩
    unfold PerfWeave.profileKernels at streamed
    split at streamed
    · exact absurd streamed (by simp)
    · split at streamed
      · exact absurd streamed (by simp)
      · obtain ⟨synthetic, arrives⟩ := connects _ _ _ streamed
        obtain ⟨count, drained⟩ := drainReplay_of_arrives arrives
        have asked : syntheticReplay hash
            ⟨gpuId, windowStartNs, windowEndNs, correlationIds, [], timeoutMs.getD 5000⟩ =
              correlationIds.mapIdx (replaySol hash) := by
          unfold syntheticReplay
          cases correlationIds <;> rfl
        rw [drained, asked, List.length_take, List.take_eq_take_iff]
        omega

/-- No confidence is above the high one. -/
theorem denseEnum_two_le (number : Int32) : (denseEnum 2 number).toInt ≤ (2 : Int8).toInt := by
  unfold denseEnum
  split
  · rename_i known
    have atLeast : 0 ≤ number.toInt := Int32.le_iff_toInt_le.mp known.1
    have atMost : number.toInt ≤ 2 := Int32.le_iff_toInt_le.mp known.2
    rw [Int32.toInt_toInt8, Int.bmod_eq_of_le (by omega) (by omega)]
    exact atMost
  · decide

/-- A kernel that some report of high confidence was made for is answered with such a one. -/
theorem SolReport.numbers_preferred_high {reports : List (SolReport Value)}
    {report : SolReport Value} (member : report ∈ reports) (isHigh : report.sol.confidence = 2) :
    ∃ best, SolReport.preferred reports report.sol.correlationId = some best ∧
      best.numbers.confidence = "HIGH" := by
  have high : report.row.confidence = 2 := by
    show denseEnum 2 report.sol.confidence = 2
    rw [isHigh]
    decide
  have asked : report ∈ reports.filter fun other =>
      other.sol.correlationId = report.sol.correlationId :=
    List.mem_filter.mpr ⟨member, decide_eq_true rfl⟩
  cases preferred : SolReport.preferred reports report.sol.correlationId with
  | none =>
    rw [argMax_eq_none_iff.mp preferred] at asked
    exact absurd asked List.not_mem_nil
  | some best =>
    have atLeast : report.row.confidence.toInt ≤ best.row.confidence.toInt :=
      @List.le_of_mem_argmax _ _ _ (fun other : SolReport Value => other.row.confidence.toInt)
        _ _ _ asked preferred
    rw [high] at atLeast
    have isTwo : best.row.confidence = 2 :=
      Int8.toInt_inj.mp (le_antisymm (denseEnum_two_le best.sol.confidence) atLeast)
    refine ⟨best, rfl, ?_⟩
    show enumText confidenceMembers best.row.confidence = _
    rw [isTwo]
    decide

/-- Once the reports of a replay are stored, whatever else is, the query for the kernels of a window
has numbers of high confidence for each kernel whose replay got back. -/
theorem replayed_shown_high {hash : String → UInt64}
    {connect : String → ProfileRequest → Except String (List (Except String (KernelSol ℚ)))}
    (connects : Connects hash connect) (registry : AgentRegistry) (nodeId gpuId : UInt32)
    (windowStartNs windowEndNs : UInt64) (correlationIds : List UInt64)
    (timeoutMs : Option UInt32) (ack : ProfileKernelsAck ℚ) (pushed : List (UInt32 × KernelSol ℚ))
    (answered : Mutation.profileKernels registry connect nodeId gpuId windowStartNs windowEndNs
      correlationIds timeoutMs = .ok (ack, pushed))
    (reports : List (SolReport ℚ))
    (stored : ∀ push ∈ pushed, ∃ report ∈ reports, (report.nodeId, report.sol) = push)
    (window : SpikeWindow) (events : List (EventRow ℚ)) (strings : List StringRow) :
    ∀ entry ∈ kernelsInWindow window events strings (reports.map SolReport.row),
      entry.correlationId ∈ correlationIds.take ack.completed.toNat →
        ∃ sol, entry.sol = some sol ∧ sol.confidence = "HIGH" := by
  obtain ⟨sols, isSols, rfl, rfl⟩ := Mutation.profileKernels_eq connects answered
  intro entry member isReplayed
  -- the report of the replay is one of those stored
  obtain ⟨i, inTake, isId⟩ := List.mem_iff_getElem.mp isReplayed
  have within : i < sols.length := by
    have atMost : (UInt32.ofNat sols.length).toNat ≤ sols.length := by
      rw [UInt32.toNat_ofNat']
      exact Nat.mod_le _ _
    have below := inTake.trans_le (List.length_take_le _ _)
    exact below.trans_le atMost
  have isSol : sols[i] = replaySol hash i entry.correlationId := by
    have here : sols[i]? = ((correlationIds.mapIdx (replaySol hash)).take sols.length)[i]? :=
      congrArg (·[i]?) isSols
    rw [List.getElem?_eq_getElem within, List.getElem?_take_of_lt within, List.getElem?_mapIdx,
      List.getElem?_eq_getElem (by simp at inTake; omega)] at here
    rw [List.getElem_take] at isId
    rw [Option.some.inj here, isId]
  obtain ⟨report, isReport, isPush⟩ := stored (nodeId, sols[i])
    (List.mem_map_of_mem (List.getElem_mem within))
  have same : report.sol = replaySol hash i entry.correlationId :=
    (Prod.mk.inj isPush).2.trans isSol
  obtain ⟨best, preferred, high⟩ := SolReport.numbers_preferred_high isReport (by rw [same]; rfl)
  rw [kernelsInWindow_eq] at member
  obtain ⟨kernel, listed, rfl⟩ := List.mem_map.mp member
  refine ⟨best.numbers, (sol_of_listed listed reports).trans ?_, high⟩
  have ofKernel : report.sol.correlationId = kernel.correlationId := congrArg _ same
  rw [← ofKernel, preferred]
  rfl

/-- An agent that replays, under node 1. -/
def replayRegistry : AgentRegistry :=
  AgentRegistry.new.register 1 ⟨1, "gpu-box", "0.1.0", 1, "http://127.0.0.1:7701"⟩

/-- A connection that loses nothing. -/
def connectReplay (_ : String) (req : ProfileRequest) :
    Except String (List (Except String (KernelSol ℚ))) :=
  .ok (AgentRpcServer.profileKernels (fun _ => 0) true req)

/-- A kernel of node 1 on GPU 0. -/
def replayedLaunch : Event ℚ :=
  ⟨1000000000, 5000, 1, 0, 0, 0, 0, 0, Category.kernel.asI32, 0, 7, 0, none⟩

/-- The report of its replay, as stored. -/
def replayedReport : SolReport ℚ := ⟨1, 0, 0, replaySol (fun _ => 0) 0 7⟩

theorem kernelsInWindow_replayed :
    kernelsInWindow (.ofSpike 1000000000 1000000000 0) [.ofEvent replayedLaunch] []
        ([replayedReport].map SolReport.row) =
      [kernelInWindow ⟨7, 0, "", 1000000000, 5000, 0⟩ [replayedReport.row]] := by
  have listed : kernelsListed (.ofSpike 1000000000 1000000000 0) [.ofEvent replayedLaunch] [] =
      [⟨7, 0, "", 1000000000, 5000, 0⟩] := by
    have keys : groupKeys KernelGroup.ofRow
        ((joinStrings [EventRow.ofEvent replayedLaunch] []).filter fun row =>
          (SpikeWindow.ofSpike 1000000000 1000000000 0).selects row.1) =
        [⟨7, 0, "", 1000000000, 5000, 0⟩] := by decide
    rw [kernelsListed, keys, longestFirst, List.mergeSort_singleton]
    rfl
  rw [kernelsInWindow_eq, listed]
  rfl

theorem replayed_shown_high_oneKernel :
    ∃ sol, (kernelInWindow ⟨7, 0, "", 1000000000, 5000, 0⟩ [replayedReport.row]).sol = some sol ∧
      sol.confidence = "HIGH" :=
  @replayed_shown_high (fun _ => 0) connectReplay
    (fun _ _ _ same => ⟨true, .inl (Except.ok.inj same).symm⟩) replayRegistry 1 0
    500000000 1500000000 [7] none _ _ rfl [replayedReport]
    (List.forall_mem_singleton.mpr ⟨_, List.mem_singleton_self _, rfl⟩) _ _ _ _
    (kernelsInWindow_replayed ▸ List.mem_singleton_self _) (List.mem_singleton_self _)

end PerfWeave
