/-
This file follows the events of one agent on their way to the collector, over every run of its
uploader, with failing sessions and shutdowns included. The events received, those under way and
those in the ring are at every moment part of what the samplers pushed, in that order, and all of
it as long as no input loses any.
-/

import PerfWeave.Agent.Uploader

namespace PerfWeave

variable {Value : Type} {capacity : Nat}

/-- The event an input pushes. -/
def UploaderInput.pushed : UploaderInput Value → Option (Event Value)
  | .push e => some e
  | _ => none

namespace Uploader

/-- The batch that an input of the uploader delivers to the collector. -/
def arriving (state : Uploader Value capacity) : UploaderInput Value → Option (HandedBatch Value)
  | .receive => state.connection.bind fun connection => connection.wire.head?
  | _ => none

/-- The batches received and those under way, oldest first. -/
def places (state : Uploader Value capacity) : List (HandedBatch Value) :=
  state.received ++ state.inFlight

/-- The events of the agent, in the order of their way: received, under way, in the ring. -/
def path (state : Uploader Value capacity) : List (Event Value) :=
  eventsOf state.places ++ state.ledger.ring.events.items

/-- An input loses no event: a push finds room in the ring, and a session that ends has no events
under way. -/
def Clean (state : Uploader Value capacity) : UploaderInput Value → Prop
  | .push _ => state.ledger.ring.events.items.length < capacity
  | .fail => eventsOf state.inFlight = []
  | .shutdown => (∃ connection, state.connection = some connection ∧
      connection.sending.isSome) ∨ eventsOf state.inFlight = []
  | _ => True

/-- What one input does to the events of the agent. -/
inductive Step (hash : String → UInt64) (cfg : UploaderConfig) (state : Uploader Value capacity)
    (input : UploaderInput Value) (next : Uploader Value capacity) : Prop where
  | still (places : next.places = state.places)
      (ring : next.ledger.ring.events.items = state.ledger.ring.events.items)
      (nothing : input.pushed = none ∨ ¬ state.Clean input)
  | enters (e : Event Value) (pushed : input.pushed = some e) (places : next.places = state.places)
      (ring : next.ledger.ring.events.items = state.ledger.ring.events.items ++ [e])
  | leaves (handed : HandedBatch Value) (nothing : input.pushed = none)
      (places : next.places = state.places ++ [handed])
      (ring : state.ledger.ring.events.items =
        handed.drained.events ++ next.ledger.ring.events.items)
      (interner : Interner)
      (built : handed.batch = (buildBatch hash cfg state.offsets interner handed.drained.events
        handed.drained.metricFrames).1)
  | drops (nothing : input.pushed = none) (places : next.places = state.received)
      (ring : next.ledger.ring.events.items = state.ledger.ring.events.items)
      (clean : state.Clean input → eventsOf state.inFlight = [])

variable {hash : String → UInt64} {cfg : UploaderConfig} {state next : Uploader Value capacity}

theorem step_push (e : Event Value) : Step hash cfg state (.push e)
    (state.step hash cfg (.push e)) := by
  obtain ⟨events, _, _, _⟩ := RingLedger.push_lanes state.ledger.ring e
  have lane : (state.step hash cfg (.push e)).ledger.ring.events =
      (QueueLedger.sendOrCount state.ledger.ring.events state.ledger.ring.dropped e).1 := events
  cases sent : state.ledger.ring.events.trySend e with
  | some queue =>
    refine .enters e rfl rfl ?_
    rw [lane, QueueLedger.sendOrCount, sent]
    exact (BoundedQueue.items_of_trySend sent).2
  | none =>
    refine .still rfl ?_ (.inr (BoundedQueue.trySend_eq_none_iff.mp sent))
    rw [lane, QueueLedger.sendOrCount, sent]

theorem step_connect : Step hash cfg state .connect (state.step hash cfg .connect) := by
  unfold step
  simp only
  split
  · exact .still rfl rfl (.inl rfl)
  · rename_i idle
    have none : state.connection = none := by
      rw [Bool.or_eq_true, not_or, Option.not_isSome_iff_eq_none] at idle
      exact idle.2
    refine .still ?_ rfl (.inl rfl)
    simp [places, inFlight, none, Connection.inFlight, BoundedQueue.empty]

theorem step_flushTick : Step hash cfg state .flushTick (state.step hash cfg .flushTick) := by
  have fifo := BoundedQueue.drain_append cfg.maxBatchEvents state.ledger.ring.events
  unfold step
  simp only
  split
  · rename_i channel wire isConnection
    unfold flush
    simp only
    split
    · rename_i nothing
      rw [Bool.and_eq_true, List.isEmpty_iff] at nothing
      have noEvents : (state.ledger.ring.events.drain cfg.maxBatchEvents).1 = [] := nothing.1
      rw [noEvents, List.nil_append] at fifo
      exact .still rfl fifo (.inl rfl)
    · set drained : Drained Value := ⟨(state.ledger.ring.drainUpTo cfg.maxBatchEvents).1,
        (state.ledger.step (.drainUpTo cfg.maxBatchEvents)).ring.drainFrames.1⟩
      refine .leaves ⟨drained, (buildBatch hash cfg state.offsets state.interner drained.events
        drained.metricFrames).1⟩ rfl ?_ fifo.symm state.interner rfl
      simp only [places, inFlight, isConnection, Connection.inFlight, Option.elim_some,
        Option.toList_none, List.append_nil, Option.toList_some, List.append_assoc]
      rfl
  · exact .still rfl rfl (.inl rfl)

theorem step_place : Step hash cfg state .place (state.step hash cfg .place) := by
  unfold step
  simp only
  split
  · rename_i handed channel wire isConnection
    split
    · rename_i sent
      refine .still ?_ rfl (.inl rfl)
      simp [places, inFlight, isConnection, Connection.inFlight,
        (BoundedQueue.items_of_trySend sent).2]
    · exact .still rfl rfl (.inl rfl)
  · exact .still rfl rfl (.inl rfl)

theorem step_transmit : Step hash cfg state .transmit (state.step hash cfg .transmit) := by
  unfold step
  simp only
  split
  · rename_i sending channel wire isConnection
    split
    · rename_i received
      refine .still ?_ rfl (.inl rfl)
      simp [places, inFlight, isConnection, Connection.inFlight,
        BoundedQueue.items_of_tryRecv received]
    · exact .still rfl rfl (.inl rfl)
  · exact .still rfl rfl (.inl rfl)

theorem step_receive : Step hash cfg state .receive (state.step hash cfg .receive) := by
  unfold step
  simp only
  split
  · rename_i isConnection
    refine .still ?_ rfl (.inl rfl)
    simp [places, inFlight, isConnection, Connection.inFlight]
  · exact .still rfl rfl (.inl rfl)

theorem step_shutdown : Step hash cfg state .shutdown (state.step hash cfg .shutdown) := by
  unfold step
  simp only
  split
  · exact .still rfl rfl (.inl rfl)
  · rename_i free
    refine .drops rfl (List.append_nil _) rfl fun clean => clean.resolve_left ?_
    rintro ⟨⟨_ | handed, channel, wire⟩, isConnection, waits⟩
    · exact Bool.noConfusion waits
    · exact free handed channel wire isConnection

/-- Every input leaves the events where they are, lets one in, moves some from the ring to the
session, or drops what is under way. -/
theorem step_spec (input : UploaderInput Value) :
    Step hash cfg state input (state.step hash cfg input) := by
  cases input with
  | push e => exact step_push e
  | pushFrame f =>
    obtain ⟨_, _, events, _⟩ := RingLedger.pushFrame_lanes state.ledger.ring f
    exact .still rfl (congrArg BoundedQueue.items events) (.inl rfl)
  | setOffset c => exact .still rfl rfl (.inl rfl)
  | connect => exact step_connect
  | flushTick => exact step_flushTick
  | droppedTick =>
    unfold step
    simp only
    split <;> exact .still rfl rfl (.inl rfl)
  | place => exact step_place
  | transmit => exact step_transmit
  | receive => exact step_receive
  | fail => exact .drops rfl (List.append_nil _) rfl id
  | shutdown => exact step_shutdown

/-! ### What an agent conveys -/

/-- An input adds what it pushes at the end, unless it loses something, which no clean one
does. -/
theorem Step.path_or_loses {input : UploaderInput Value} (step : Step hash cfg state input next) :
    next.path = state.path ++ input.pushed.toList ∨
      ¬ state.Clean input ∧ next.path.Sublist state.path := by
  unfold path
  cases step with
  | still places ring nothing =>
    rw [places, ring]
    rcases nothing with nothing | loses
    · exact .inl (by rw [nothing, Option.toList_none, List.append_nil])
    · exact .inr ⟨loses, List.Sublist.refl _⟩
  | enters e pushed places ring =>
    exact .inl (by rw [places, ring, pushed, Option.toList_some, List.append_assoc])
  | leaves handed nothing places ring interner built =>
    rw [places, ring, nothing, eventsOf_append, Option.toList_none, List.append_nil,
      List.append_assoc]
    exact .inl (by simp [eventsOf])
  | drops nothing places ring clean' =>
    rw [places, ring, nothing, Option.toList_none, List.append_nil, Uploader.places,
      eventsOf_append]
    by_cases clean : state.Clean input
    · exact .inl (by rw [clean' clean, List.append_nil])
    · exact .inr ⟨clean, (List.sublist_append_left _ _).append_right _⟩

theorem Step.path_of_clean {input : UploaderInput Value} (step : Step hash cfg state input next)
    (clean : state.Clean input) : next.path = state.path ++ input.pushed.toList :=
  step.path_or_loses.resolve_right fun loses => loses.1 clean

theorem Step.path_sublist {input : UploaderInput Value} (step : Step hash cfg state input next) :
    next.path.Sublist (state.path ++ input.pushed.toList) := by
  rcases step.path_or_loses with kept | ⟨_, lost⟩
  · rw [kept]
  · exact lost.trans (List.sublist_append_left _ _)

/-- What every input leaves alone: the batches that got through only grow at the end, and the
clock fit changes only when it is set. -/
theorem step_frame (input : UploaderInput Value) :
    (state.step hash cfg input).received = state.received ++ (state.arriving input).toList ∧
      ((∀ fit, input ≠ .setOffset fit) →
        (state.step hash cfg input).offsets = state.offsets) := by
  have unchanged : state.received = state.received ++ ([] : List (HandedBatch Value)) :=
    (List.append_nil _).symm
  cases input with
  | receive =>
    unfold step arriving
    obtain ⟨ledger, offsets, interner, connection, stopped, received⟩ := state
    obtain _ | ⟨sending, channel, _ | ⟨handed, wire⟩⟩ := connection
    · exact ⟨unchanged, fun _ => rfl⟩
    · exact ⟨unchanged, fun _ => rfl⟩
    · exact ⟨rfl, fun _ => rfl⟩
  | flushTick =>
    unfold step
    simp only
    split
    · unfold flush
      simp only
      split <;> exact ⟨unchanged, fun _ => rfl⟩
    · exact ⟨unchanged, fun _ => rfl⟩
  | connect | droppedTick | shutdown =>
    unfold step
    simp only
    split <;> exact ⟨unchanged, fun _ => rfl⟩
  | place | transmit =>
    unfold step
    simp only
    split
    · split <;> exact ⟨unchanged, fun _ => rfl⟩
    · exact ⟨unchanged, fun _ => rfl⟩
  | setOffset fit => exact ⟨unchanged, fun unset => absurd rfl (unset fit)⟩
  | push _ | pushFrame _ | fail => exact ⟨unchanged, fun _ => rfl⟩

theorem step_received (input : UploaderInput Value) :
    (state.step hash cfg input).received = state.received ++ (state.arriving input).toList :=
  (step_frame input).1

theorem mem_places_of_arriving {input : UploaderInput Value} {handed : HandedBatch Value}
    (arrives : state.arriving input = some handed) : handed ∈ state.places := by
  cases input with
  | receive =>
    unfold arriving at arrives
    obtain ⟨connection, isConnection, head⟩ := Option.bind_eq_some_iff.mp arrives
    refine List.mem_append_right _ ?_
    rw [inFlight, isConnection, Option.elim_some, Connection.inFlight, List.append_assoc]
    exact List.mem_append_left _ (List.mem_of_mem_head? head)
  | _ => exact absurd arrives (by simp [arriving])

/-- A property of a batch that every flush establishes holds of all batches on their way. -/
theorem Step.all_places {holds : HandedBatch Value → Prop} {input : UploaderInput Value}
    (step : Step hash cfg state input next) (all : ∀ handed ∈ state.places, holds handed)
    (flushed : ∀ handed interner, handed.batch = (buildBatch hash cfg state.offsets interner
      handed.drained.events handed.drained.metricFrames).1 → holds handed) :
    ∀ handed ∈ next.places, holds handed := by
  cases step with
  | still places _ _ => rwa [places]
  | enters _ _ places _ => rwa [places]
  | leaves handed _ places _ interner built =>
    rw [places]
    intro other member
    rcases List.mem_append.mp member with before | now
    · exact all other before
    · rw [List.mem_singleton.mp now]
      exact flushed handed interner built
  | drops _ places _ _ =>
    rw [places]
    exact fun handed member => all handed (List.mem_append_left _ member)

theorem step_offsets {input : UploaderInput Value} (unset : ∀ fit, input ≠ .setOffset fit) :
    (state.step hash cfg input).offsets = state.offsets :=
  (step_frame input).2 unset

end Uploader

end PerfWeave
