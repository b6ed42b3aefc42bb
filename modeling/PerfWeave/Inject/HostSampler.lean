/-
This file models the host sampler of `perfweave-cupti-inject/src/pm.rs`: every sample is added to
the bucket of the GPU and the kernel it is attributed to, and a drain makes a card of each bucket
with enough samples. The arithmetic is that of exact numbers; the order of a drain is the one the
hash map happens to have.
-/

import PerfWeave.Library.Run
import PerfWeave.Proto

namespace PerfWeave

variable {Value : Type}

/-! ### Samples -/

/-- `MIN_SAMPLES_FOR_CARD`. -/
def minSamplesForCard : UInt32 := 5

/-- `PmSample`: one reading, in percent of the peak. -/
structure PmSample (Value : Type) where
  smActivePct : Value
  occupancyPct : Value
  dramBwPct : Value
  instTpPct : Value

/-- `Attribution`: the samples of one kernel, summed. -/
structure Attribution (Value : Type) where
  count : UInt32
  sumSmActive : Value
  sumOcc : Value
  sumDram : Value
  sumInst : Value

variable [Field Value]

/-- `Attribution::default`. -/
def Attribution.empty : Attribution Value := ⟨0, 0, 0, 0, 0⟩

/-- `Attribution::add`. -/
def Attribution.add (bucket : Attribution Value) (s : PmSample Value) : Attribution Value where
  count := bucket.count + 1
  sumSmActive := bucket.sumSmActive + s.smActivePct
  sumOcc := bucket.sumOcc + s.occupancyPct
  sumDram := bucket.sumDram + s.dramBwPct
  sumInst := bucket.sumInst + s.instTpPct

/-! ### Cards -/

/-- `Bound`: what limits a kernel. -/
inductive Bound where
  | boundUnknown
  | memory
  | compute
  | latency
  | balanced
  deriving DecidableEq

/-- `bound as i32`. -/
def Bound.asI32 : Bound → Int32
  | .boundUnknown => 0
  | .memory => 1
  | .compute => 2
  | .latency => 3
  | .balanced => 4

variable [LinearOrder Value]

/-- `classify_bound`, with its margin of ten percent. -/
def classifyBound (smActivePct dramBwPct instTpPct : Value) : Bound :=
  if smActivePct < 30 ∧ dramBwPct < 30 ∧ instTpPct < 30 then .latency
  else
    let computeScore := max smActivePct instTpPct
    if dramBwPct > computeScore + 10 then .memory
    else if computeScore > dramBwPct + 10 then .compute
    else .balanced

/-- `Attribution::finalize`: the averages, when there are enough samples. Confidence and source
are `LOW` and `HOST_SAMPLING`. -/
def Attribution.finalize (bucket : Attribution Value) (correlationId : UInt64) :
    Option (KernelSol Value) :=
  if bucket.count < minSamplesForCard then none
  else
    let n : Value := bucket.count.toNat
    let smActive := bucket.sumSmActive / n
    let occ := bucket.sumOcc / n
    let dram := bucket.sumDram / n
    let inst := bucket.sumInst / n
    some {
      correlationId := correlationId
      smActivePct := smActive
      achievedOccupancyPct := occ
      dramBwPct := dram
      l1BwPct := 0
      l2BwPct := 0
      instThroughputPct := inst
      theoreticalOccupancyPct := 0
      arithmeticIntensity := 0
      achievedGflops := 0
      bound := (classifyBound smActive dram inst).asI32
      confidence := 1
      source := 1
      stalls := [] }

/-! ### The sampler -/

/-- `HostSampler`: a bucket for each GPU and correlation id. -/
structure HostSampler (Value : Type) where
  buckets : UInt32 × UInt64 → Option (Attribution Value)

namespace HostSampler

omit [LinearOrder Value] in
/-- `HostSampler::new`. -/
def new : HostSampler Value := ⟨fun _ => none⟩

omit [LinearOrder Value] in
/-- `HostSampler::sample`. -/
def sample (sampler : HostSampler Value) (input : (UInt32 × UInt64) × PmSample Value) :
    HostSampler Value where
  buckets := Function.update sampler.buckets input.1
    (some (((sampler.buckets input.1).getD .empty).add input.2))

/-- `HostSampler::drain_cards` over the buckets in the given order: the cards and the emptied
sampler. -/
def drainCards (sampler : HostSampler Value) (order : List (UInt32 × UInt64)) :
    List (KernelSol Value) × HostSampler Value :=
  (order.filterMap fun key => (sampler.buckets key).bind fun bucket => bucket.finalize key.2, new)

end HostSampler

end PerfWeave
