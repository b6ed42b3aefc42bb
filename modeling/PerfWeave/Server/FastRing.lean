/-
This file models `perfweave-server/src/fast_ring.rs`: per series a short ring that takes every
sample and a long one that takes at most one sample every 950 ms, and an immutable snapshot
of all series that readers see until the next publish. Timestamps are 64-bit words and their
addition wraps, as in a release build.
-/

import PerfWeave.Library.Run
import PerfWeave.Library.RingBuffer

namespace PerfWeave

variable {Value : Type}

/-- `SLOW_CAPACITY`: 120 s at 1 Hz. -/
def slowCapacity : Nat := 120 * 1

/-- `FAST_CAPACITY`: 10 s at 10 Hz. -/
def fastCapacity : Nat := 10 * 10

/-- `SeriesKey`: one metric of one GPU of one node. -/
structure SeriesKey where
  nodeId : UInt32
  gpuId : UInt32
  metricId : UInt64
  deriving DecidableEq

/-- `Sample`: a reading and its timestamp. -/
structure Sample (Value : Type) where
  tsNs : UInt64
  value : Value
  deriving DecidableEq

/-- `SeriesSnapshot`: the two tails of a series, oldest first. -/
structure SeriesSnapshot (Value : Type) where
  slow : List (Sample Value)
  fast : List (Sample Value)
  deriving DecidableEq

/-- `SeriesRing`: the two rings of a series, each with its own head and length, and the
timestamp of the last sample the slow ring took. -/
structure SeriesRing (Value : Type) where
  slow : RingBuffer (Sample Value) slowCapacity
  fast : RingBuffer (Sample Value) fastCapacity
  lastSlowNs : UInt64

namespace SeriesRing

/-- `SeriesRing::new`. -/
def new [Zero Value] : SeriesRing Value where
  slow := .empty slowCapacity (by decide) ⟨0, 0⟩
  fast := .empty fastCapacity (by decide) ⟨0, 0⟩
  lastSlowNs := 0

/-- `SeriesRing::push`: record the sample in the fast ring, and in the slow ring when it is at
least 950 ms later than the last one recorded there. -/
def push (ring : SeriesRing Value) (s : Sample Value) : SeriesRing Value :=
  let fast := ring.fast.push s
  if s.tsNs ≥ ring.lastSlowNs + 950000000 then
    { slow := ring.slow.push s, fast, lastSlowNs := s.tsNs }
  else
    { ring with fast }

theorem push_slow (ring : SeriesRing Value) (s : Sample Value) :
    (ring.push s).slow =
      if s.tsNs ≥ ring.lastSlowNs + 950000000 then ring.slow.push s else ring.slow := by
  rw [push]
  exact apply_ite SeriesRing.slow _ _ _

theorem push_fast (ring : SeriesRing Value) (s : Sample Value) :
    (ring.push s).fast = ring.fast.push s := by
  rw [push]
  exact (apply_ite SeriesRing.fast _ _ _).trans (ite_self _)

theorem push_lastSlowNs (ring : SeriesRing Value) (s : Sample Value) :
    (ring.push s).lastSlowNs =
      if s.tsNs ≥ ring.lastSlowNs + 950000000 then s.tsNs else ring.lastSlowNs := by
  rw [push]
  exact apply_ite SeriesRing.lastSlowNs _ _ _

/-- `SeriesRing::snapshot`. -/
def snapshot (ring : SeriesRing Value) : SeriesSnapshot Value where
  slow := ring.slow.read
  fast := ring.fast.read

end SeriesRing

/-- `FastRingSnapshot`: what readers see of every series. -/
structure FastRingSnapshot (Value : Type) where
  series : SeriesKey → Option (SeriesSnapshot Value)
  publishedAtNs : UInt64

/-- `FastRing`: the writer's rings and the snapshot published last. -/
structure FastRing (Value : Type) where
  writer : SeriesKey → Option (SeriesRing Value)
  snapshot : FastRingSnapshot Value

namespace FastRing

/-- `FastRing::new`: no series, and the default snapshot. -/
def new : FastRing Value where
  writer := fun _ => none
  snapshot := ⟨fun _ => none, 0⟩

/-- `FastRing::push`: append a sample to a series, which starts empty. -/
def push [Zero Value] (ring : FastRing Value) (key : SeriesKey) (s : Sample Value) :
    FastRing Value :=
  { ring with
    writer := Function.update ring.writer key
      (some (((ring.writer key).getD SeriesRing.new).push s)) }

/-- `FastRing::publish` at the host time `now`. -/
def publish (ring : FastRing Value) (now : UInt64) : FastRing Value :=
  { ring with snapshot := ⟨fun key => (ring.writer key).map SeriesRing.snapshot, now⟩ }

@[simp]
theorem push_snapshot [Zero Value] (ring : FastRing Value) (key : SeriesKey) (s : Sample Value) :
    (ring.push key s).snapshot = ring.snapshot := rfl

theorem push_writer_self [Zero Value] (ring : FastRing Value) (key : SeriesKey)
    (s : Sample Value) :
    (ring.push key s).writer key = some (((ring.writer key).getD SeriesRing.new).push s) :=
  Function.update_self key _ ring.writer

/-- A push touches its own series only. -/
theorem push_writer_of_ne [Zero Value] (ring : FastRing Value) {key other : SeriesKey}
    (differs : other ≠ key) (s : Sample Value) :
    (ring.push key s).writer other = ring.writer other :=
  Function.update_of_ne differs _ ring.writer

/-- The writer has the series that something was pushed to. -/
theorem isSome_push_writer [Zero Value] (ring : FastRing Value) (key other : SeriesKey)
    (s : Sample Value) :
    ((ring.push key s).writer other).isSome ↔ other = key ∨ (ring.writer other).isSome := by
  by_cases same : other = key
  · rw [same, push_writer_self]
    exact iff_of_true rfl (.inl rfl)
  · rw [push_writer_of_ne ring same]
    exact (or_iff_right same).symm

/-- A publish shows the series that the writer has. -/
theorem isSome_publish_series (ring : FastRing Value) (now : UInt64) (key : SeriesKey) :
    ((ring.publish now).snapshot.series key).isSome ↔ (ring.writer key).isSome := by
  rw [publish, Option.isSome_map]

end FastRing

/-- An operation on the ring: a push by ingest or a publish by the publisher task. -/
inductive FastRingOp (Value : Type) where
  | push (key : SeriesKey) (s : Sample Value)
  | publish (now : UInt64)

/-- One operation on the ring. -/
def FastRing.step [Zero Value] (ring : FastRing Value) : FastRingOp Value → FastRing Value
  | .push key s => ring.push key s
  | .publish now => ring.publish now

end PerfWeave
