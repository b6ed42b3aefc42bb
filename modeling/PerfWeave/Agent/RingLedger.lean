/-
This file keeps a ledger for each lane of the agent's ring, over any interleaving of its
operations. Pushes, drains and takes keep the books of both lanes in balance as long as no
counter wraps; the waiting receive does not, since it lets go of the event it waited for.
-/

import PerfWeave.Library.Run
import PerfWeave.Library.QueueLedger
import PerfWeave.Agent.EventRing

namespace PerfWeave

variable {Value : Type} {capacity : Nat}

/-- A ring with the ledgers of its two lanes. -/
structure RingLedger (Value : Type) (capacity : Nat) where
  ring : EventRing Value capacity
  events : QueueLedger (Event Value)
  frames : QueueLedger (MetricFrame Value)

/-- An operation on the ring. A drain that others interrupt is a row of shorter ones: drains of
one event, or turns of the loop of `drain_frames`. -/
inductive RingOp (Value : Type) where
  | push (e : Event Value)
  | pushFrame (f : MetricFrame Value)
  | drainUpTo (max : Nat)
  | drainFrames
  | drainFramesTurn
  | waitForOne
  | takeDropped
  | takeDroppedFrames

namespace RingLedger

/-- A new ring. -/
def new : RingLedger Value capacity := ⟨.new, .new, .new⟩

/-- One operation, entered in the ledger of its lane. -/
def step (state : RingLedger Value capacity) : RingOp Value → RingLedger Value capacity
  | .push e =>
    { state with ring := state.ring.push e, events := state.events.enter state.ring.events e }
  | .pushFrame f =>
    { state with
      ring := state.ring.pushFrame f, frames := state.frames.enter state.ring.frames f }
  | .drainUpTo max =>
    let (out, ring) := state.ring.drainUpTo max
    { state with ring, events := state.events.handOut out }
  | .drainFrames =>
    let (out, ring) := state.ring.drainFrames
    { state with ring, frames := state.frames.handOut out }
  | .drainFramesTurn =>
    let (out, frames) := state.ring.frames.drain 1
    { state with ring := { state.ring with frames }, frames := state.frames.handOut out }
  | .waitForOne => { state with ring := state.ring.waitForOne }
  | .takeDropped =>
    let (count, ring) := state.ring.takeDropped
    { state with ring, events := state.events.take count }
  | .takeDroppedFrames =>
    let (count, ring) := state.ring.takeDroppedFrames
    { state with ring, frames := state.frames.take count }

/-- Both lanes balance: what was handed out and what is queued is what was admitted, in order,
and the drops taken and counted are the pushes that were refused. -/
structure Balances (state : RingLedger Value capacity) : Prop where
  events : state.events.Balances state.ring.events state.ring.dropped
  frames : state.frames.Balances state.ring.frames state.ring.droppedFrames

/-- An operation loses nothing: a push that is refused is counted without a wrap, and a
waiting receive finds nothing. -/
def Lossless (state : RingLedger Value capacity) : RingOp Value → Prop
  | .push _ => state.ring.events.items.length < capacity ∨
      QueueLedger.Countable state.ring.dropped
  | .pushFrame _ => state.ring.frames.items.length < capacity / 32 + 256 ∨
      QueueLedger.Countable state.ring.droppedFrames
  | .waitForOne => state.ring.events.items = []
  | .drainUpTo _ => True
  | .drainFrames => True
  | .drainFramesTurn => True
  | .takeDropped => True
  | .takeDroppedFrames => True

theorem new_balances : (new : RingLedger Value capacity).Balances :=
  ⟨QueueLedger.new_balances, QueueLedger.new_balances⟩

theorem push_lanes (ring : EventRing Value capacity) (e : Event Value) :
    (ring.push e).events = (QueueLedger.sendOrCount ring.events ring.dropped e).1 ∧
      (ring.push e).dropped = (QueueLedger.sendOrCount ring.events ring.dropped e).2 ∧
      (ring.push e).frames = ring.frames ∧ (ring.push e).droppedFrames = ring.droppedFrames := by
  unfold EventRing.push QueueLedger.sendOrCount
  cases ring.events.trySend e <;> exact ⟨rfl, rfl, rfl, rfl⟩

theorem pushFrame_lanes (ring : EventRing Value capacity) (f : MetricFrame Value) :
    (ring.pushFrame f).frames =
        (QueueLedger.sendOrCount ring.frames ring.droppedFrames f).1 ∧
      (ring.pushFrame f).droppedFrames =
        (QueueLedger.sendOrCount ring.frames ring.droppedFrames f).2 ∧
      (ring.pushFrame f).events = ring.events ∧ (ring.pushFrame f).dropped = ring.dropped := by
  unfold EventRing.pushFrame QueueLedger.sendOrCount
  cases ring.frames.trySend f <;> exact ⟨rfl, rfl, rfl, rfl⟩

theorem Balances.push_iff {state : RingLedger Value capacity} (balances : state.Balances)
    (e : Event Value) : (state.step (.push e)).Balances ↔ state.Lossless (.push e) := by
  obtain ⟨events, dropped, frames, droppedFrames⟩ := push_lanes state.ring e
  refine Iff.trans ⟨fun after => ?_, fun sent => ⟨?_, ?_⟩⟩ (balances.events.send_iff e)
  · have lane : (state.events.enter state.ring.events e).Balances (state.ring.push e).events
      (state.ring.push e).dropped := after.events
    rwa [events, dropped] at lane
  · show (state.events.enter state.ring.events e).Balances (state.ring.push e).events
      (state.ring.push e).dropped
    rwa [events, dropped]
  · show state.frames.Balances (state.ring.push e).frames (state.ring.push e).droppedFrames
    rw [frames, droppedFrames]
    exact balances.frames

theorem Balances.pushFrame_iff {state : RingLedger Value capacity} (balances : state.Balances)
    (f : MetricFrame Value) :
    (state.step (.pushFrame f)).Balances ↔ state.Lossless (.pushFrame f) := by
  obtain ⟨frames, droppedFrames, events, dropped⟩ := pushFrame_lanes state.ring f
  refine Iff.trans ⟨fun after => ?_, fun sent => ⟨?_, ?_⟩⟩ (balances.frames.send_iff f)
  · have lane : (state.frames.enter state.ring.frames f).Balances
      (state.ring.pushFrame f).frames (state.ring.pushFrame f).droppedFrames := after.frames
    rwa [frames, droppedFrames] at lane
  · show state.events.Balances (state.ring.pushFrame f).events (state.ring.pushFrame f).dropped
    rw [events, dropped]
    exact balances.events
  · show (state.frames.enter state.ring.frames f).Balances (state.ring.pushFrame f).frames
      (state.ring.pushFrame f).droppedFrames
    rwa [frames, droppedFrames]

/-- A waiting receive hands the event it finds to nobody. -/
theorem Balances.waitForOne_iff {state : RingLedger Value capacity} (balances : state.Balances) :
    (state.step .waitForOne).Balances ↔ state.Lossless .waitForOne := by
  unfold step Lossless EventRing.waitForOne
  cases received : state.ring.events.tryRecv with
  | none =>
    exact iff_of_true ⟨balances.events, balances.frames⟩
      (BoundedQueue.tryRecv_eq_none_iff.mp received)
  | some taken =>
    obtain ⟨e, events⟩ := taken
    refine iff_of_false (fun after => balances.events.not_of_recv received after.events) ?_
    rw [BoundedQueue.items_of_tryRecv received]
    exact List.cons_ne_nil _ _

/-- What one operation does to the balance. -/
theorem Balances.step_iff {state : RingLedger Value capacity} (balances : state.Balances)
    (op : RingOp Value) : (state.step op).Balances ↔ state.Lossless op := by
  cases op with
  | push e => exact balances.push_iff e
  | pushFrame f => exact balances.pushFrame_iff f
  | waitForOne => exact balances.waitForOne_iff
  | drainUpTo max => exact iff_of_true ⟨balances.events.drain max, balances.frames⟩ trivial
  | drainFrames => exact iff_of_true ⟨balances.events, balances.frames.drain _⟩ trivial
  | drainFramesTurn => exact iff_of_true ⟨balances.events, balances.frames.drain 1⟩ trivial
  | takeDropped => exact iff_of_true ⟨balances.events.take, balances.frames⟩ trivial
  | takeDroppedFrames => exact iff_of_true ⟨balances.events, balances.frames.take⟩ trivial

end RingLedger

/-- Over any interleaving of the operations of a ring, both lanes balance at every moment exactly
when no waiting receive finds an event and no counter wraps. -/
theorem ring_balances_iff (ops : List (RingOp Value)) :
    (∀ before, before <+: ops →
        (run RingLedger.step (.new : RingLedger Value capacity) before).Balances) ↔
      ∀ before op, before ++ [op] <+: ops →
        (run RingLedger.step (.new : RingLedger Value capacity) before).Lossless op :=
  run_always_iff_of_exact RingLedger.new_balances (fun _ op balances => balances.step_iff op) ops

/-- A copy that waits in the ring. -/
def waitingCopy : Event Nat where
  tsNs := 5000
  durationNs := 10
  nodeId := 0
  gpuId := 0
  pid := 7
  tid := 7
  ctxId := 1
  streamId := 3
  category := Category.memcpy.asI32
  nameId := 0
  correlationId := 5
  parentId := 0
  payload := none

/-- A waiting receive that finds an event loses it. -/
theorem waitForOne_loses_event :
    ¬ ∀ ops : List (RingOp Nat), (run RingLedger.step (.new : RingLedger Nat 4) ops).Balances := by
  intro balances
  have lengths := congrArg List.length
    (balances [.push waitingCopy, .waitForOne, .drainUpTo 4]).events.fifo
  exact absurd lengths (by decide)

end PerfWeave
