/-
This file models `perfweave-server/src/spike_detect.rs`: per series a running mean and
variance, a robust second opinion on the slow tail, and at most one spike every ten seconds.
The arithmetic is left open; a division or a root outside its domain has no result, and then
neither has the tick. The sample count of a series is a natural number: it goes up once a
second, so a 64-bit word holds it in every run.
-/

import PerfWeave.Server.FastRing
import PerfWeave.Server.Sink
import PerfWeave.Library.MachineInt
import PerfWeave.Library.PartialArithmetic

namespace PerfWeave

open PartialArithmetic

variable {Value : Type}

/-- `Welford`: the running count, mean and sum of squared deviations of a series. -/
structure Welford (Value : Type) where
  n : Nat
  mean : Value
  m2 : Value

/-- `SpikeEvent`: a spike as subscribers see it. -/
structure SpikeEvent (Value : Type) where
  bucketStartNs : UInt64
  bucketWidthNs : UInt64
  nodeId : UInt32
  gpuId : UInt32
  metricId : UInt64
  value : Value
  median : Value
  mad : Value
  zMad : Value

namespace SpikeEvent

/-- The series a spike belongs to. -/
def key (ev : SpikeEvent Value) : SeriesKey := ⟨ev.nodeId, ev.gpuId, ev.metricId⟩

/-- The row of a spike for the sink: the GPU is cut to a byte. -/
def row (ev : SpikeEvent Value) : SpikeRow Value where
  bucketStartNs := ev.bucketStartNs
  bucketWidthNs := ev.bucketWidthNs
  nodeId := ev.nodeId
  gpuId := ev.gpuId.toUInt8
  metricId := ev.metricId
  value := ev.value
  median := ev.median
  mad := ev.mad
  zMad := ev.zMad

end SpikeEvent

/-- The two maps of the detector. -/
structure SpikeDetector (Value : Type) where
  welford : SeriesKey → Option (Welford Value)
  lastFiredTs : SeriesKey → Option UInt64

/-- The maps a detector starts with. -/
def SpikeDetector.new : SpikeDetector Value := ⟨fun _ => none, fun _ => none⟩

/-- The shortest time between two spikes of a series. -/
def spikePeriodNs : UInt64 := 10000000000

/-- `Welford::default`. -/
def Welford.default [Zero Value] : Welford Value := ⟨0, 0, 0⟩

/-- `WELFORD_Z_THRESHOLD`. -/
def welfordZThreshold [OfScientific Value] : Value := 3.0

/-- `MAD_Z_THRESHOLD`. -/
def madZThreshold [OfScientific Value] : Value := 3.5

/-- What happens to a collector's ring and detector: a push, a publish at the host time `now`,
or a tick that iterates the snapshot in the given order. -/
inductive SpikeInput (Value : Type) where
  | push (key : SeriesKey) (s : Sample Value)
  | publish (now : UInt64)
  | tick (order : List SeriesKey)

/-- The ring, the detector on it, the rows handed to the sink and the spikes broadcast. -/
structure SpikeWatch (Value : Type) where
  ring : FastRing Value
  detector : SpikeDetector Value
  rows : List (SpikeRow Value)
  spikes : List (SpikeEvent Value)

/-- An empty ring and a detector that has seen nothing. -/
def SpikeWatch.start : SpikeWatch Value := ⟨.new, .new, [], []⟩

/-- The last sample of the fast tail, with the tails it is in. -/
def SeriesSnapshot.latest (snap : SeriesSnapshot Value) :
    Option (Sample Value × SeriesSnapshot Value) :=
  snap.fast.getLast?.map fun latest => (latest, snap)

/-- The latest reading that a snapshot has of a series. -/
def FastRingSnapshot.latest (snapshot : FastRingSnapshot Value) (k : SeriesKey) :
    Option (Sample Value × SeriesSnapshot Value) :=
  (snapshot.series k).bind SeriesSnapshot.latest

/-- The series a tick works on: those of the snapshot that have a latest reading, in the order
in which the snapshot's map iterates its keys. -/
def SpikeDetector.work (snapshot : FastRingSnapshot Value) (order : List SeriesKey) :
    List (SeriesKey × Value × SeriesSnapshot Value) :=
  order.filterMap fun k =>
    (snapshot.latest k).map fun reading => (k, reading.1.value, reading.2)

theorem SpikeDetector.work_cons_of_none {snapshot : FastRingSnapshot Value} {k : SeriesKey}
    (unread : snapshot.latest k = none) (rest : List SeriesKey) :
    work snapshot (k :: rest) = work snapshot rest :=
  List.filterMap_cons_none (by rw [unread, Option.map_none])

theorem SpikeDetector.work_cons_of_some {snapshot : FastRingSnapshot Value} {k : SeriesKey}
    {reading : Sample Value × SeriesSnapshot Value} (reads : snapshot.latest k = some reading)
    (rest : List SeriesKey) :
    work snapshot (k :: rest) = (k, reading.1.value, reading.2) :: work snapshot rest :=
  List.filterMap_cons_some (by rw [reads, Option.map_some])

/-! ### Detection -/

variable [Zero Value] [Add Value] [Sub Value] [Mul Value] [NatCast Value] [OfScientific Value]
  [LT Value] [DecidableLT Value] [LE Value] [DecidableLE Value] [PartialArithmetic Value]

namespace Welford

/-- `Welford::update`. -/
def update (w : Welford Value) (x : Value) : Option (Welford Value) := do
  let n := w.n + 1
  let delta := x - w.mean
  let mean := w.mean + (← quotient delta n)
  let delta2 := x - mean
  return ⟨n, mean, w.m2 + delta * delta2⟩

/-- `Welford::sigma`. -/
def sigma (w : Welford Value) : Option Value :=
  if w.n < 2 then some 0 else (quotient w.m2 ((w.n - 1 : Nat) : Value)).bind squareRoot

/-- The distance of a reading from the mean in standard deviations, zero when these are. -/
def zScore (w : Welford Value) (x : Value) : Option Value := do
  let sigma ← w.sigma
  if 0 < sigma then quotient (abs (x - w.mean)) sigma else return 0

end Welford

/-- `sort_by` with `partial_cmp`, readings that do not compare being equal. -/
def sortValues (values : List Value) : List Value := values.mergeSort fun a b => ¬ b < a

/-- `median_and_mad`: the upper median of the slow tail and the scaled upper median of the
distances from it. -/
def medianAndMad (snap : SeriesSnapshot Value) : Value × Value :=
  if snap.slow.isEmpty then
    (0, 0)
  else
    let values := sortValues (snap.slow.map Sample.value)
    let median := values.getD (values.length / 2) 0
    let dev := sortValues (values.map fun v => abs (v - median))
    let mad := dev.getD (dev.length / 2) 0
    (median, mad * 1.4826)

/-- The gates between the running statistics of a series, with its latest reading learned, and
a spike: the outer option is the arithmetic's, the inner one says whether a spike fires. -/
def spikeAt (k : SeriesKey) (x : Value) (snap : SeriesSnapshot Value) (w : Welford Value)
    (prev : Option UInt64) : Option (Option (SpikeEvent Value)) := do
  let z ← w.zScore x
  if z ≤ welfordZThreshold ∨ w.n < 16 then
    return none
  let (median, mad) := medianAndMad snap
  if mad ≤ 0 then
    return none
  let zMad ← quotient (abs (x - median)) mad
  if zMad < madZThreshold then
    return none
  let latestTs := (snap.fast.getLast?.map Sample.tsNs).getD 0
  if prev.any fun prev => saturatingSub latestTs prev < spikePeriodNs then
    return none
  return some {
    bucketStartNs := latestTs
    bucketWidthNs := 1000000000
    nodeId := k.nodeId
    gpuId := k.gpuId
    metricId := k.metricId
    value := x
    median
    mad
    zMad }

namespace SpikeDetector

/-- One turn of the loop of `tick_once`: learn the latest reading of a series and remember the
spike it fires. -/
def judge (d : SpikeDetector Value) (k : SeriesKey) (x : Value) (snap : SeriesSnapshot Value) :
    Option (SpikeDetector Value × Option (SpikeEvent Value)) := do
  let w ← ((d.welford k).getD .default).update x
  let learned := { d with welford := Function.update d.welford k (some w) }
  match ← spikeAt k x snap w (d.lastFiredTs k) with
  | none => return (learned, none)
  | some ev =>
    let lastFiredTs := Function.update d.lastFiredTs k (some ev.bucketStartNs)
    return ({ learned with lastFiredTs }, some ev)

/-- The loop of `tick_once`, with the spikes it fires in order. -/
def visit (d : SpikeDetector Value) :
    List (SeriesKey × Value × SeriesSnapshot Value) →
      Option (SpikeDetector Value × List (SpikeEvent Value))
  | [] => some (d, [])
  | (k, x, snap) :: rest => do
    let (judged, fired) ← d.judge k x snap
    let (after, later) ← judged.visit rest
    return (after, fired.toList ++ later)

/-- `SpikeDetector::tick_once`: all series are gathered before the first one is judged, so a
tick sees one snapshot. -/
def tickOnce (d : SpikeDetector Value) (snapshot : FastRingSnapshot Value)
    (order : List SeriesKey) : Option (SpikeDetector Value × List (SpikeEvent Value)) :=
  d.visit (work snapshot order)

end SpikeDetector

namespace SpikeWatch

/-- One input; none when the arithmetic of a tick leaves its domain. -/
def step (state : SpikeWatch Value) : SpikeInput Value → Option (SpikeWatch Value)
  | .push key s => some { state with ring := state.ring.push key s }
  | .publish now => some { state with ring := state.ring.publish now }
  | .tick order => do
    let (detector, emitted) ← state.detector.tickOnce state.ring.snapshot order
    return { state with
      detector
      rows := state.rows ++ emitted.map SpikeEvent.row
      spikes := state.spikes ++ emitted }

end SpikeWatch

end PerfWeave
