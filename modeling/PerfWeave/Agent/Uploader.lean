/-
This file models the uploader of `perfweave-agent/src/grpc_client.rs` across sessions, with the
places an event passes on its way to the collector: the ring, the send the session waits for,
its channel of 16 batches, and the stream. A session can end at any moment, and what it holds
then is dropped. Every event is accounted for exactly as long as no session ends with events
under way.
-/

import PerfWeave.Agent.Handover
import PerfWeave.Agent.RingLedger

namespace PerfWeave

variable {Value : Type} {capacity : Nat}

/-- A batch with what the flush drained for it. -/
structure HandedBatch (Value : Type) where
  drained : Drained Value
  batch : Batch Value

/-- A session: the batch whose send it waits for, its channel, and the batches on the stream,
oldest first. -/
structure Connection (Value : Type) where
  sending : Option (HandedBatch Value)
  channel : BoundedQueue (HandedBatch Value) 16
  wire : List (HandedBatch Value)

/-- The batches under way, oldest first. -/
def Connection.inFlight (connection : Connection Value) : List (HandedBatch Value) :=
  connection.wire ++ connection.channel.items ++ connection.sending.toList

/-- The uploader with its ring, its session if there is one, and what the collector has received,
oldest first. -/
structure Uploader (Value : Type) (capacity : Nat) where
  ledger : RingLedger Value capacity
  offsets : ClockOffset
  interner : Interner
  connection : Option (Connection Value)
  stopped : Bool
  received : List (HandedBatch Value)

/-- What can happen: a sampler pushes, the clock task sets a fit, a session starts, ticks, moves
a batch one place further, fails, or the agent shuts down. -/
inductive UploaderInput (Value : Type) where
  | push (e : Event Value)
  | pushFrame (f : MetricFrame Value)
  | setOffset (c : ClockOffset)
  | connect
  | flushTick
  | droppedTick
  | place
  | transmit
  | receive
  | fail
  | shutdown

namespace Uploader

/-- The agent as it starts. -/
def start (offsets : ClockOffset) : Uploader Value capacity where
  ledger := .new
  offsets := offsets
  interner := .new
  connection := none
  stopped := false
  received := []

/-- The batches under way on the current session. -/
def inFlight (state : Uploader Value capacity) : List (HandedBatch Value) :=
  state.connection.elim [] Connection.inFlight

/-- The flush of `run_session` up to the send, which the session then waits for. -/
def flush (hash : String → UInt64) (cfg : UploaderConfig) (state : Uploader Value capacity)
    (connection : Connection Value) : Uploader Value capacity :=
  let events := (state.ledger.ring.drainUpTo cfg.maxBatchEvents).1
  let eventsTaken := state.ledger.step (.drainUpTo cfg.maxBatchEvents)
  let metricFrames := eventsTaken.ring.drainFrames.1
  let ledger := eventsTaken.step .drainFrames
  if events.isEmpty && metricFrames.isEmpty then
    { state with ledger }
  else
    let (batch, interner) :=
      buildBatch hash cfg state.offsets state.interner events metricFrames
    { state with
      ledger, interner
      connection := some { connection with sending := some ⟨⟨events, metricFrames⟩, batch⟩ } }

/-- One input. While a session waits for a send it takes no tick and sees no shutdown. -/
def step (hash : String → UInt64) (cfg : UploaderConfig) (state : Uploader Value capacity) :
    UploaderInput Value → Uploader Value capacity
  | .push e => { state with ledger := state.ledger.step (.push e) }
  | .pushFrame f => { state with ledger := state.ledger.step (.pushFrame f) }
  | .setOffset c => { state with offsets := c }
  | .connect =>
    if state.stopped || state.connection.isSome then state
    else { state with connection := some ⟨none, .empty, []⟩ }
  | .flushTick =>
    match state.connection with
    | some ⟨none, channel, wire⟩ => state.flush hash cfg ⟨none, channel, wire⟩
    | _ => state
  | .droppedTick =>
    match state.connection with
    | some ⟨none, _, _⟩ =>
      { state with ledger := (state.ledger.step .takeDropped).step .takeDroppedFrames }
    | _ => state
  | .place =>
    match state.connection with
    | some ⟨some handed, channel, wire⟩ =>
      match channel.trySend handed with
      | some channel => { state with connection := some ⟨none, channel, wire⟩ }
      | none => state
    | _ => state
  | .transmit =>
    match state.connection with
    | some ⟨sending, channel, wire⟩ =>
      match channel.tryRecv with
      | some (handed, channel) =>
        { state with connection := some ⟨sending, channel, wire ++ [handed]⟩ }
      | none => state
    | none => state
  | .receive =>
    match state.connection with
    | some ⟨sending, channel, handed :: wire⟩ =>
      { state with
        connection := some ⟨sending, channel, wire⟩
        received := state.received ++ [handed] }
    | _ => state
  | .fail => { state with connection := none, interner := state.interner.reset }
  | .shutdown =>
    match state.connection with
    | some ⟨some _, _, _⟩ => state
    | _ => { state with connection := none, stopped := true }

/-- The events some batches were built from. -/
def eventsOf (handed : List (HandedBatch Value)) : List (Event Value) :=
  handed.flatMap fun batch => batch.drained.events

/-- The ledger of the event lane with the events the collector received and those under way in
the place of those drained. -/
def account (state : Uploader Value capacity) : QueueLedger (Event Value) :=
  { state.ledger.events with returned := eventsOf (state.received ++ state.inFlight) }

/-- Every event pushed was refused and counted, or is in one place: received, under way on the
session, or in the ring. -/
def Accounted (state : Uploader Value capacity) : Prop :=
  state.account.Balances state.ledger.ring.events state.ledger.ring.dropped

/-- An input loses nothing: a push that is refused is counted without a wrap, and a session
that ends has no events under way. -/
def Lossless (state : Uploader Value capacity) : UploaderInput Value → Prop
  | .push _ => state.ledger.ring.events.items.length < capacity ∨
      QueueLedger.Countable state.ledger.ring.dropped
  | .fail => eventsOf state.inFlight = []
  | .shutdown => (∃ connection, state.connection = some connection ∧
      connection.sending.isSome) ∨ eventsOf state.inFlight = []
  | .pushFrame _ => True
  | .setOffset _ => True
  | .connect => True
  | .flushTick => True
  | .droppedTick => True
  | .place => True
  | .transmit => True
  | .receive => True

/-! ### One input -/

variable {hash : String → UInt64} {cfg : UploaderConfig} {state next : Uploader Value capacity}

theorem eventsOf_append (first second : List (HandedBatch Value)) :
    eventsOf (first ++ second) = eventsOf first ++ eventsOf second :=
  List.flatMap_append

theorem start_accounted (offsets : ClockOffset) :
    (start offsets : Uploader Value capacity).Accounted :=
  QueueLedger.new_balances

/-- Moving batches between their places, in order, changes no account. -/
theorem Accounted.of_moved (accounted : state.Accounted) (ledger : next.ledger = state.ledger)
    (places : next.received ++ next.inFlight = state.received ++ state.inFlight) :
    next.Accounted := by
  unfold Accounted account
  rw [ledger, places]
  exact accounted

theorem Accounted.connect (accounted : state.Accounted) :
    (state.step hash cfg .connect).Accounted := by
  unfold step
  simp only
  split
  · exact accounted
  · rename_i idle
    have none : state.connection = none := by
      rw [Bool.or_eq_true, not_or, Option.not_isSome_iff_eq_none] at idle
      exact idle.2
    refine accounted.of_moved rfl ?_
    simp [inFlight, none, Connection.inFlight, BoundedQueue.empty]

theorem Accounted.place (accounted : state.Accounted) :
    (state.step hash cfg .place).Accounted := by
  unfold step
  simp only
  split
  · rename_i handed channel wire isConnection
    split
    · rename_i sent
      refine accounted.of_moved rfl ?_
      simp [inFlight, isConnection, Connection.inFlight, (BoundedQueue.items_of_trySend sent).2]
    · exact accounted
  · exact accounted

theorem Accounted.transmit (accounted : state.Accounted) :
    (state.step hash cfg .transmit).Accounted := by
  unfold step
  simp only
  split
  · rename_i sending channel wire isConnection
    split
    · rename_i received
      refine accounted.of_moved rfl ?_
      simp [inFlight, isConnection, Connection.inFlight, BoundedQueue.items_of_tryRecv received]
    · exact accounted
  · exact accounted

theorem Accounted.receive (accounted : state.Accounted) :
    (state.step hash cfg .receive).Accounted := by
  unfold step
  simp only
  split
  · rename_i isConnection
    refine accounted.of_moved rfl ?_
    simp [inFlight, isConnection, Connection.inFlight]
  · exact accounted

theorem Accounted.droppedTick (accounted : state.Accounted) :
    (state.step hash cfg .droppedTick).Accounted := by
  unfold step
  simp only
  split
  · exact accounted.take
  · exact accounted

/-- A flush moves what it drains from the ring to the session. -/
theorem Accounted.flushTick (accounted : state.Accounted) :
    (state.step hash cfg .flushTick).Accounted := by
  unfold step
  simp only
  split
  · rename_i channel wire isConnection
    obtain ⟨fifo, losses⟩ := accounted.drain cfg.maxBatchEvents
    unfold flush
    simp only
    split
    · rename_i nothing
      rw [Bool.and_eq_true, List.isEmpty_iff] at nothing
      have noEvents : (state.ledger.ring.events.drain cfg.maxBatchEvents).1 = [] := nothing.1
      refine ⟨?_, losses⟩
      rw [noEvents] at fifo
      exact fifo.trans (congrArg (· ++ _) (List.append_nil _))
    · refine ⟨fifo.trans (congrArg (· ++ _) ?_), losses⟩
      simp [account, QueueLedger.handOut, eventsOf, inFlight, isConnection, Connection.inFlight,
        EventRing.drainUpTo]
  · exact accounted

theorem Accounted.push_iff (accounted : state.Accounted) (e : Event Value) :
    (state.step hash cfg (.push e)).Accounted ↔ state.Lossless (.push e) := by
  obtain ⟨events, dropped, _, _⟩ := RingLedger.push_lanes state.ledger.ring e
  have entered : (state.step hash cfg (.push e)).account =
      state.account.enter state.ledger.ring.events e := by
    show ({ state.ledger.events.enter state.ledger.ring.events e with
      returned := eventsOf (state.received ++ state.inFlight) } : QueueLedger (Event Value)) = _
    unfold QueueLedger.enter
    split <;> rfl
  have lane : (state.step hash cfg (.push e)).Accounted ↔
      (state.account.enter state.ledger.ring.events e).Balances
        (state.ledger.ring.push e).events (state.ledger.ring.push e).dropped := by
    rw [← entered]
    rfl
  rw [lane, events, dropped]
  exact QueueLedger.Balances.send_iff accounted e

/-- Dropping a session loses the events under way. -/
theorem Accounted.drop_iff (accounted : state.Accounted) (ledger : next.ledger = state.ledger)
    (received : next.received = state.received) (dropped : next.connection = none) :
    next.Accounted ↔ eventsOf state.inFlight = [] := by
  have before : state.ledger.events.admitted =
      eventsOf (state.received ++ state.inFlight) ++ state.ledger.ring.events.items :=
    accounted.fifo
  have nothing : next.inFlight = [] := by rw [inFlight, dropped, Option.elim_none]
  unfold Accounted account
  rw [ledger, received, nothing, List.append_nil]
  constructor
  · intro after
    have fifo : state.ledger.events.admitted =
        eventsOf state.received ++ state.ledger.ring.events.items := after.fifo
    rw [before, eventsOf_append] at fifo
    exact List.append_right_eq_self.mp (List.append_cancel_right fifo)
  · intro none
    refine ⟨before.trans ?_, accounted.losses⟩
    rw [eventsOf_append, none, List.append_nil]

/-- What one input does to the account. -/
theorem Accounted.step_iff (accounted : state.Accounted) (input : UploaderInput Value) :
    (state.step hash cfg input).Accounted ↔ state.Lossless input := by
  cases input with
  | push e => exact accounted.push_iff e
  | pushFrame f =>
    obtain ⟨_, _, events, dropped⟩ := RingLedger.pushFrame_lanes state.ledger.ring f
    refine iff_of_true ?_ trivial
    show state.account.Balances (state.ledger.ring.pushFrame f).events
      (state.ledger.ring.pushFrame f).dropped
    rw [events, dropped]
    exact accounted
  | setOffset c => exact iff_of_true accounted trivial
  | connect => exact iff_of_true accounted.connect trivial
  | flushTick => exact iff_of_true accounted.flushTick trivial
  | droppedTick => exact iff_of_true accounted.droppedTick trivial
  | place => exact iff_of_true accounted.place trivial
  | transmit => exact iff_of_true accounted.transmit trivial
  | receive => exact iff_of_true accounted.receive trivial
  | fail => exact accounted.drop_iff rfl rfl rfl
  | shutdown =>
    unfold step Lossless
    simp only
    split
    · rename_i isConnection
      exact iff_of_true accounted (.inl ⟨_, isConnection, rfl⟩)
    · rename_i free
      have dropped : ({ state with connection := none, stopped := true } :
          Uploader Value capacity).Accounted ↔ eventsOf state.inFlight = [] :=
        accounted.drop_iff rfl rfl rfl
      refine dropped.trans (or_iff_right ?_).symm
      rintro ⟨⟨_ | handed, channel, wire⟩, isConnection, waits⟩
      · exact absurd waits nofun
      · exact free handed channel wire isConnection

end Uploader

/-- Over any run of the uploader, every event pushed is at every moment in the ring, under way
on the session, received once or counted as dropped, exactly as long as no session ends with
events under way and the drop counter does not wrap. -/
theorem uploader_accounted_iff (hash : String → UInt64) (cfg : UploaderConfig)
    (offsets : ClockOffset) (inputs : List (UploaderInput Value)) :
    (∀ before, before <+: inputs →
        (run (Uploader.step hash cfg) (.start offsets : Uploader Value capacity)
          before).Accounted) ↔
      ∀ before input, before ++ [input] <+: inputs →
        (run (Uploader.step hash cfg) (.start offsets : Uploader Value capacity)
          before).Lossless input :=
  run_always_iff_of_exact (Uploader.start_accounted offsets)
    (fun _ input accounted => accounted.step_iff input) inputs

/-- An uploader of one agent. -/
def plainUploader : UploaderConfig where
  hostname := "gpu-a"
  nodeId := 0
  numGpus := 1
  maxBatchEvents := 20000
  agentRpcAddr := ""

/-- A session that fails after a flush takes the drained event with it. -/
theorem failed_session_loses_event :
    ¬ ∀ inputs : List (UploaderInput Nat),
      (run (Uploader.step (fun _ => 0) plainUploader) (.start .identity : Uploader Nat 4)
        inputs).Accounted := by
  intro accounted
  have lengths := congrArg List.length
    (accounted [.connect, .push waitingCopy, .flushTick, .fail]).fifo
  exact absurd lengths (by decide)

end PerfWeave
