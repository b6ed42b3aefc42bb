/-
This file separates a session from its ring. What a session drains depends on the ring alone,
so the ring has its own run over the inputs of the session, which collects what every flush
hands over. The session sends one batch for each of these, built from it, and everything it
hands over was in the ring at the start or was pushed.
-/

import PerfWeave.Agent.Session

namespace PerfWeave

variable {Value : Type} {capacity : Nat}

/-! ### What the ring hands over -/

/-- The events and frames of one flush. -/
structure Drained (Value : Type) where
  events : List (Event Value)
  metricFrames : List (MetricFrame Value)

/-- The ring of a session and what its flushes have drained for a batch, oldest first. -/
structure Handover (Value : Type) (capacity : Nat) where
  ring : EventRing Value capacity
  drained : List (Drained Value)

namespace Handover

/-- What an input of a session does to the ring. -/
def step (cfg : UploaderConfig) (state : Handover Value capacity) :
    SessionInput Value → Handover Value capacity
  | .push e => { state with ring := state.ring.push e }
  | .pushFrame f => { state with ring := state.ring.pushFrame f }
  | .setOffset _ => state
  | .flushTick =>
    let (events, eventsTaken) := state.ring.drainUpTo cfg.maxBatchEvents
    let (metricFrames, ring) := eventsTaken.drainFrames
    if events.isEmpty && metricFrames.isEmpty then
      { state with ring }
    else
      { ring, drained := state.drained ++ [⟨events, metricFrames⟩] }
  | .droppedTick => { state with ring := state.ring.takeDropped.2.takeDroppedFrames.2 }

end Handover

/-- What the flushes of a run drain from a ring. -/
def drainedBy (cfg : UploaderConfig) (ring : EventRing Value capacity)
    (inputs : List (SessionInput Value)) : Handover Value capacity :=
  run (Handover.step cfg) ⟨ring, []⟩ inputs

/-! ### The session follows its ring -/

/-- An input of a session does to its ring what it does to the ring alone, and sends nothing
or the batch built from what the ring hands over. -/
theorem Session.step_cases (hash : String → UInt64) (cfg : UploaderConfig)
    {state : Session Value capacity} {handover : Handover Value capacity}
    (same : state.ring = handover.ring) (input : SessionInput Value) :
    (state.step hash cfg input).ring = (handover.step cfg input).ring ∧
      (((state.step hash cfg input).sent = state.sent ∧
          (state.step hash cfg input).interner = state.interner ∧
          (handover.step cfg input).drained = handover.drained) ∨
        ∃ flush : Drained Value,
          let built := buildBatch hash cfg state.offsets state.interner flush.events
            flush.metricFrames
          (state.step hash cfg input).sent = state.sent ++ [built.1] ∧
            (state.step hash cfg input).interner = built.2 ∧
            (handover.step cfg input).drained = handover.drained ++ [flush]) := by
  obtain ⟨ring, drained⟩ := handover
  cases same
  cases input with
  | push e => exact ⟨rfl, .inl ⟨rfl, rfl, rfl⟩⟩
  | pushFrame f => exact ⟨rfl, .inl ⟨rfl, rfl, rfl⟩⟩
  | setOffset c => exact ⟨rfl, .inl ⟨rfl, rfl, rfl⟩⟩
  | droppedTick => exact ⟨rfl, .inl ⟨rfl, rfl, rfl⟩⟩
  | flushTick =>
    simp only [step, flush, Handover.step]
    split
    · exact ⟨rfl, .inl ⟨rfl, rfl, rfl⟩⟩
    · exact ⟨rfl, .inr ⟨⟨_, _⟩, rfl, rfl, rfl⟩⟩

/-- A batch is built from a handover by some fit and some interner. -/
def BuiltFrom (hash : String → UInt64) (cfg : UploaderConfig) (flush : Drained Value)
    (batch : Batch Value) : Prop :=
  ∃ off interner, batch = (buildBatch hash cfg off interner flush.events flush.metricFrames).1

/-- What a session has sent so far: one batch for each handover, built from it. -/
theorem sessionRun_builtFrom (hash : String → UInt64) (cfg : UploaderConfig)
    (ring : EventRing Value capacity) (offsets : ClockOffset)
    (inputs : List (SessionInput Value)) :
    (sessionRun hash cfg ring offsets inputs).ring = (drainedBy cfg ring inputs).ring ∧
      List.Forall₂ (BuiltFrom hash cfg) (drainedBy cfg ring inputs).drained
        (sessionRun hash cfg ring offsets inputs).sent := by
  refine run_simulation
    (motive := fun (state : Session Value capacity) (handover : Handover Value capacity) =>
      state.ring = handover.ring ∧
        List.Forall₂ (BuiltFrom hash cfg) handover.drained state.sent)
    ⟨rfl, List.Forall₂.nil⟩ ?_ inputs
  rintro state handover input ⟨same, built⟩
  obtain ⟨ring, ⟨sent, _, drained⟩ | ⟨flush, sent, _, drained⟩⟩ :=
    Session.step_cases hash cfg same input
  · rw [sent, drained]
    exact ⟨ring, built⟩
  · rw [sent, drained]
    exact ⟨ring, List.rel_append built (.cons ⟨_, _, rfl⟩ .nil)⟩

/-- What stands in the second of two related lists is related to something in the first. -/
theorem exists_mem_of_forall₂ {First Second : Type} {relation : First → Second → Prop}
    {first : List First} {second : List Second} (related : List.Forall₂ relation first second)
    {item : Second} (member : item ∈ second) : ∃ source ∈ first, relation source item := by
  induction related with
  | nil => exact absurd member List.not_mem_nil
  | cons here _ inductionHypothesis =>
    rcases List.mem_cons.mp member with rfl | later
    · exact ⟨_, List.mem_cons_self, here⟩
    · obtain ⟨source, sourceMember, holds⟩ := inductionHypothesis later
      exact ⟨source, List.mem_cons_of_mem _ sourceMember, holds⟩

/-- Every handover became a batch of the session. -/
theorem exists_builtFrom_of_mem_drained (hash : String → UInt64) {cfg : UploaderConfig}
    {ring : EventRing Value capacity} (offsets : ClockOffset)
    {inputs : List (SessionInput Value)} {flush : Drained Value}
    (member : flush ∈ (drainedBy cfg ring inputs).drained) :
    ∃ batch ∈ (sessionRun hash cfg ring offsets inputs).sent, BuiltFrom hash cfg flush batch :=
  exists_mem_of_forall₂ (sessionRun_builtFrom hash cfg ring offsets inputs).2.flip member

/-- Every batch of a session was built from something the ring handed over. -/
theorem exists_builtFrom_of_mem {hash : String → UInt64} {cfg : UploaderConfig}
    {ring : EventRing Value capacity} {offsets : ClockOffset}
    {inputs : List (SessionInput Value)} {batch : Batch Value}
    (member : batch ∈ (sessionRun hash cfg ring offsets inputs).sent) :
    ∃ flush ∈ (drainedBy cfg ring inputs).drained, BuiltFrom hash cfg flush batch :=
  exists_mem_of_forall₂ (sessionRun_builtFrom hash cfg ring offsets inputs).2 member

/-- A flush hands over something or does not count. -/
theorem drainedBy_nonempty (cfg : UploaderConfig) (ring : EventRing Value capacity)
    (inputs : List (SessionInput Value)) :
    ∀ flush ∈ (drainedBy cfg ring inputs).drained,
      flush.events ≠ [] ∨ flush.metricFrames ≠ [] := by
  refine run_invariant
    (motive := fun state : Handover Value capacity => ∀ flush ∈ state.drained,
      flush.events ≠ [] ∨ flush.metricFrames ≠ [])
    (fun _ member => absurd member List.not_mem_nil) ?_ inputs fun _ _ => trivial
  intro state input _ nonempty
  cases input with
  | push e => exact nonempty
  | pushFrame f => exact nonempty
  | setOffset c => exact nonempty
  | droppedTick => exact nonempty
  | flushTick =>
    simp only [Handover.step]
    split
    · exact nonempty
    · rename_i some
      intro flush member
      rcases List.mem_append.mp member with before | now
      · exact nonempty flush before
      · rw [List.mem_singleton.mp now]
        rwa [Bool.and_eq_true, List.isEmpty_iff, List.isEmpty_iff, not_and_or] at some

/-! ### What is handed over was pushed -/

/-- A property of the events and one of the frames hold throughout a ring. -/
structure EventRing.All (onEvent : Event Value → Prop) (onFrame : MetricFrame Value → Prop)
    (ring : EventRing Value capacity) : Prop where
  events : ∀ e ∈ ring.events.items, onEvent e
  frames : ∀ f ∈ ring.frames.items, onFrame f

/-- The properties hold of what an input pushes. -/
def SessionInput.All (onEvent : Event Value → Prop) (onFrame : MetricFrame Value → Prop) :
    SessionInput Value → Prop
  | .push e => onEvent e
  | .pushFrame f => onFrame f
  | .setOffset _ => True
  | .flushTick => True
  | .droppedTick => True

/-- The properties hold of what a flush drained. -/
structure Drained.All (onEvent : Event Value → Prop) (onFrame : MetricFrame Value → Prop)
    (flush : Drained Value) : Prop where
  events : ∀ e ∈ flush.events, onEvent e
  frames : ∀ f ∈ flush.metricFrames, onFrame f

section

variable {onEvent : Event Value → Prop} {onFrame : MetricFrame Value → Prop}

theorem SessionInput.All.imp {onOther : Event Value → Prop} {input : SessionInput Value}
    (all : input.All onEvent onFrame) (weaker : ∀ e, onEvent e → onOther e) :
    input.All onOther onFrame := by
  cases input with
  | push e => exact weaker e all
  | pushFrame f => exact all
  | setOffset c => trivial
  | flushTick => trivial
  | droppedTick => trivial

namespace EventRing

theorem all_new : (new : EventRing Value capacity).All onEvent onFrame :=
  ⟨fun _ member => absurd member List.not_mem_nil, fun _ member => absurd member List.not_mem_nil⟩

variable {ring : EventRing Value capacity}

theorem All.push (all : ring.All onEvent onFrame) {e : Event Value} (holds : onEvent e) :
    (ring.push e).All onEvent onFrame := by
  unfold EventRing.push
  split
  · rename_i sent
    refine ⟨fun other member => ?_, all.frames⟩
    rcases BoundedQueue.mem_of_trySend sent member with before | rfl
    · exact all.events other before
    · exact holds
  · exact ⟨all.events, all.frames⟩

theorem All.pushFrame (all : ring.All onEvent onFrame) {f : MetricFrame Value}
    (holds : onFrame f) : (ring.pushFrame f).All onEvent onFrame := by
  unfold EventRing.pushFrame
  split
  · rename_i sent
    refine ⟨all.events, fun other member => ?_⟩
    rcases BoundedQueue.mem_of_trySend sent member with before | rfl
    · exact all.frames other before
    · exact holds
  · exact ⟨all.events, all.frames⟩

/-- Draining splits a ring's items between what it returns and what it leaves. -/
theorem All.drain (all : ring.All onEvent onFrame) (max : Nat) :
    (ring.drainUpTo max).2.drainFrames.2.All onEvent onFrame ∧
      Drained.All onEvent onFrame
        ⟨(ring.drainUpTo max).1, (ring.drainUpTo max).2.drainFrames.1⟩ := by
  have events := BoundedQueue.drain_append max ring.events
  have frames := BoundedQueue.drain_append ring.frames.items.length ring.frames
  refine ⟨⟨fun e member => all.events e ?_, fun f member => all.frames f ?_⟩,
    ⟨fun e member => all.events e ?_, fun f member => all.frames f ?_⟩⟩
  · exact events ▸ List.mem_append_right _ member
  · exact frames ▸ List.mem_append_right _ member
  · exact events ▸ List.mem_append_left _ member
  · exact frames ▸ List.mem_append_left _ member

end EventRing

/-- A property that holds of the ring at the start and of every push holds of the ring and of
every handover of the run. -/
theorem drainedBy_all (cfg : UploaderConfig) (ring : EventRing Value capacity)
    (start : ring.All onEvent onFrame) (inputs : List (SessionInput Value))
    (pushed : ∀ input ∈ inputs, input.All onEvent onFrame) :
    (drainedBy cfg ring inputs).ring.All onEvent onFrame ∧
      ∀ flush ∈ (drainedBy cfg ring inputs).drained, flush.All onEvent onFrame := by
  refine run_invariant
    (motive := fun state : Handover Value capacity => state.ring.All onEvent onFrame ∧
      ∀ flush ∈ state.drained, flush.All onEvent onFrame)
    ⟨start, fun _ member => absurd member List.not_mem_nil⟩ ?_ inputs pushed
  rintro state input here ⟨all, drained⟩
  cases input with
  | push e => exact ⟨all.push here, drained⟩
  | pushFrame f => exact ⟨all.pushFrame here, drained⟩
  | setOffset c => exact ⟨all, drained⟩
  | droppedTick => exact ⟨⟨all.events, all.frames⟩, drained⟩
  | flushTick =>
    obtain ⟨left, taken⟩ := all.drain cfg.maxBatchEvents
    simp only [Handover.step]
    split
    · exact ⟨left, drained⟩
    · refine ⟨left, fun flush member => ?_⟩
      rcases List.mem_append.mp member with before | now
      · exact drained flush before
      · rw [List.mem_singleton.mp now]
        exact taken

end

end PerfWeave
