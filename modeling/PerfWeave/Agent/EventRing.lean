/-
This file models `perfweave-agent/src/ring.rs`: the two bounded lanes between the samplers and
the uploader. A push that finds its lane full is dropped and counted; a drain takes the oldest
items of a lane.
-/

import PerfWeave.Library.BoundedQueue
import PerfWeave.Proto

namespace PerfWeave

variable {Value : Type} {capacity : Nat}

/-- `EventRing`: the event lane, the frame lane with its own bound, and the drop counters. -/
structure EventRing (Value : Type) (capacity : Nat) where
  events : BoundedQueue (Event Value) capacity
  frames : BoundedQueue (MetricFrame Value) (capacity / 32 + 256)
  dropped : UInt64
  droppedFrames : UInt64

namespace EventRing

/-- `EventRing::new`. -/
def new : EventRing Value capacity where
  events := .empty
  frames := .empty
  dropped := 0
  droppedFrames := 0

/-- `EventRing::push`: queue an event, or count it when the lane is full. -/
def push (ring : EventRing Value capacity) (e : Event Value) : EventRing Value capacity :=
  match ring.events.trySend e with
  | some events => { ring with events }
  | none => { ring with dropped := ring.dropped + 1 }

/-- `EventRing::push_frame`: queue a frame, or count it when the lane is full. -/
def pushFrame (ring : EventRing Value capacity) (f : MetricFrame Value) :
    EventRing Value capacity :=
  match ring.frames.trySend f with
  | some frames => { ring with frames }
  | none => { ring with droppedFrames := ring.droppedFrames + 1 }

/-- `EventRing::drain_up_to`. -/
def drainUpTo (ring : EventRing Value capacity) (max : Nat) :
    List (Event Value) × EventRing Value capacity :=
  let (out, events) := ring.events.drain max
  (out, { ring with events })

/-- `EventRing::drain_frames`: take every queued frame. -/
def drainFrames (ring : EventRing Value capacity) :
    List (MetricFrame Value) × EventRing Value capacity :=
  let (out, frames) := ring.frames.drain ring.frames.items.length
  (out, { ring with frames })

/-- `EventRing::wait_for_one`, when its receive completes: the oldest event is received and let
go. On an empty lane the receive is still waiting. -/
def waitForOne (ring : EventRing Value capacity) : EventRing Value capacity :=
  match ring.events.tryRecv with
  | some (_, events) => { ring with events }
  | none => ring

/-- `EventRing::take_dropped`. -/
def takeDropped (ring : EventRing Value capacity) : UInt64 × EventRing Value capacity :=
  (ring.dropped, { ring with dropped := 0 })

/-- `EventRing::take_dropped_frames`. -/
def takeDroppedFrames (ring : EventRing Value capacity) : UInt64 × EventRing Value capacity :=
  (ring.droppedFrames, { ring with droppedFrames := 0 })

end EventRing

end PerfWeave
