/-
This file puts the agents, the ingest streams of `perfweave-server/src/ingest/grpc.rs`, the sink's
queue and the sink into one system, in which any of them may move at any time and sessions, queues
and inserts may fail. An event row in the database is then always that of one pushed event, and
the rows of an agent keep the order of its pushes. A batch is ingested in one step, and what was
under way when its session failed is assumed not to arrive later, beside the next session.
-/

import PerfWeave.Agent.Conveyance
import PerfWeave.Server.SinkRuns
import PerfWeave.System.FitTracking

namespace PerfWeave

variable {Agent Value : Type} {capacity depth : Nat}

/-! ### The system -/

/-- A message in the sink's queue, with the agent whose stream sent it; none for a report of
another task. -/
structure Posted (Agent Value : Type) where
  source : Option Agent
  msg : SinkMsg Value

/-- What the other tasks of the server send to the sink. -/
inductive Report (Value : Type) where
  | kernelSol (nodeId : UInt32) (sol : KernelSol Value)
  | spike (row : SpikeRow Value)

/-- The message of a report. -/
def Report.msg : Report Value → SinkMsg Value
  | .kernelSol nodeId sol => .kernelSol nodeId sol
  | .spike row => .spike row

/-- The agents, what the ingest streams share, the sink's queue and the sink. The messages the
sink has taken, with their agents, and its inputs are kept for the record. -/
structure Deployment (Agent Value : Type) (capacity depth : Nat) where
  agents : Agent → Uploader Value capacity
  skew : SkewTable
  fast : FastRing Value
  live : List LiveKernelEvent
  channel : BoundedQueue (Posted Agent Value) depth
  sink : SinkState Value
  taken : List (Posted Agent Value)
  sinkInputs : List (SinkInput Value)

/-- What can happen: an agent moves, with the host times read if a batch arrives from it; another
task reports; the sink takes a message, or its ticker fires. -/
inductive DeploymentInput (Agent Value : Type) where
  | agent (name : Agent) (input : UploaderInput Value) (clock : Nat → UInt64)
  | report (report : Report Value)
  | sinkRecv (clock : Nat → UInt64) (succeeds : Table → Bool)
  | sinkTick (succeeds : Table → Bool)

/-- How a deployment is set up: the hash of the interners, the configuration of each agent and of
the sink. -/
structure DeploymentConfig (Agent : Type) where
  hash : String → UInt64
  agents : Agent → UploaderConfig
  sink : SinkConfig

/-- A queue after `try_send`: unchanged when it is full. -/
def BoundedQueue.offered {Item : Type} (queue : BoundedQueue Item capacity) (item : Item) :
    BoundedQueue Item capacity :=
  (queue.trySend item).getD queue

namespace Deployment

/-- A deployment before anything has happened. -/
def start : Deployment Agent Value capacity depth where
  agents := fun _ => .start .identity
  skew := .new
  fast := .new
  live := []
  channel := .empty
  sink := .fresh
  taken := []
  sinkInputs := []

variable [DecidableEq Agent] [Zero Value]

/-- One input. -/
def step (cfg : DeploymentConfig Agent) (state : Deployment Agent Value capacity depth) :
    DeploymentInput Agent Value → Deployment Agent Value capacity depth
  | .agent name input clock =>
    let agents := Function.update state.agents name
      ((state.agents name).step cfg.hash (cfg.agents name) input)
    match (state.agents name).arriving input with
    | none => { state with agents }
    | some handed =>
      let ingested := ingestBatch clock state.skew state.fast handed.batch
      { state with
        agents
        skew := ingested.skew
        fast := ingested.fast
        live := state.live ++ ingested.live
        channel := state.channel.offered ⟨some name, .batch ingested.toSink⟩ }
  | .report report =>
    { state with channel := state.channel.offered ⟨none, report.msg⟩ }
  | .sinkRecv clock succeeds =>
    match state.channel.tryRecv with
    | none => state
    | some (posted, channel) =>
      let input := .recv posted.msg clock succeeds
      { state with
        channel
        sink := state.sink.step cfg.sink input
        taken := state.taken ++ [posted]
        sinkInputs := state.sinkInputs ++ [input] }
  | .sinkTick succeeds =>
    { state with
      sink := state.sink.step cfg.sink (.tick succeeds)
      sinkInputs := state.sinkInputs ++ [.tick succeeds] }

end Deployment

/-- A deployment after its inputs. -/
def deploymentRun [DecidableEq Agent] [Zero Value] (cfg : DeploymentConfig Agent)
    (inputs : List (DeploymentInput Agent Value)) : Deployment Agent Value capacity depth :=
  run (Deployment.step cfg) .start inputs

/-- The move of an agent that an input is, with the host times read. -/
def DeploymentInput.moveOf [DecidableEq Agent] (name : Agent) :
    DeploymentInput Agent Value → Option (UploaderInput Value × (Nat → UInt64))
  | .agent other input clock => if other = name then some (input, clock) else none
  | _ => none

/-- The event an input pushes at an agent. -/
def DeploymentInput.pushedAt [DecidableEq Agent] (name : Agent)
    (input : DeploymentInput Agent Value) : Option (Event Value) :=
  (input.moveOf name).bind fun move => move.1.pushed

/-- The events the samplers of an agent push, in order. -/
def pushedBy [DecidableEq Agent] (inputs : List (DeploymentInput Agent Value)) (name : Agent) :
    List (Event Value) :=
  inputs.filterMap (DeploymentInput.pushedAt name)

namespace Deployment

variable [DecidableEq Agent] [Zero Value]

/-- The agent that sent a message the sink has taken. -/
def sourceOf (state : Deployment Agent Value capacity depth) (message : Nat) : Option Agent :=
  state.taken[message]?.bind Posted.source

/-- The event rows the sink has queued for an agent, in order. -/
def delivered (state : Deployment Agent Value capacity depth) (name : Agent) :
    List (Queued (TableRow Value .events)) :=
  (queuedRows state.sinkInputs .events).filter fun row =>
    state.sourceOf row.origin.message = some name

end Deployment

/-! ### The rows of an event -/

/-- The row of the events table that is queued. -/
def eventRow (queued : Queued (TableRow Value .events)) : EventRow Value := queued.row

/-- A row stores an event: every field is the event's, but for the timestamp of one on GPU
time, which the clock correction may move. -/
structure Event.StoredAs [Zero Value] (e : Event Value) (row : EventRow Value) : Prop where
  persisted : e.isPersisted = true
  row : ∃ tsNs, row = .ofEvent { e with tsNs := tsNs } ∧ (tsNs = e.tsNs ∨ e.isGpuTimed)

/-- The event rows a message queues. -/
def SinkMsg.eventRows [Zero Value] : SinkMsg Value → List (EventRow Value)
  | .batch b => (b.events.filter Event.isPersisted).map EventRow.ofEvent
  | .kernelSol _ _ => []
  | .spike _ => []

theorem SinkMsg.rows_events [Zero Value] (clock : Nat → UInt64) (message : Nat)
    (msg : SinkMsg Value) : (msg.rows clock message .events).map eventRow = msg.eventRows := by
  cases msg with
  | kernelSol nodeId sol => rfl
  | spike row => rfl
  | batch b =>
    have image : ((SinkMsg.batch b).rows clock message .events).map eventRow =
        (b.events.zipIdx.filter (Event.isPersisted ∘ Prod.fst)).map
          (EventRow.ofEvent ∘ Prod.fst) := List.map_map
    rw [image, ← List.map_map, ← List.filter_map, List.zipIdx_map_fst]
    rfl

theorem Event.corrected_eq (e : Event Value) (off : ClockOffset) :
    ∃ tsNs, e.corrected off = { e with tsNs := tsNs } ∧ (tsNs = e.tsNs ∨ e.isGpuTimed) := by
  unfold Event.corrected
  split
  · rename_i gpuTimed
    exact ⟨_, rfl, .inr gpuTimed⟩
  · exact ⟨_, rfl, .inl rfl⟩

theorem Event.skewCorrected_eq (e : Event Value) (skew : SkewTable) :
    ∃ tsNs, e.skewCorrected skew = { e with tsNs := tsNs } ∧
      (tsNs = e.tsNs ∨ e.isGpuTimed) := by
  unfold Event.skewCorrected
  split
  · rename_i gpuTimed
    exact ⟨_, rfl, .inr gpuTimed⟩
  · exact ⟨_, rfl, .inl rfl⟩

/-- Both corrections change the timestamp of an event at most. -/
theorem Event.storedAs_corrected [Zero Value] {e : Event Value} (persisted : e.isPersisted = true)
    (off : ClockOffset) (skew : SkewTable) :
    e.StoredAs (.ofEvent ((e.corrected off).skewCorrected skew)) := by
  obtain ⟨first, corrected, moved⟩ := e.corrected_eq off
  obtain ⟨second, again, movedAgain⟩ := (e.corrected off).skewCorrected_eq skew
  refine ⟨persisted, second, ?_, ?_⟩
  · rw [again, corrected]
  · rw [corrected] at movedAgain
    rcases movedAgain with rfl | gpuTimed
    · exact moved
    · exact .inr gpuTimed

/-- The rows of a batch that an agent built and the collector ingested. -/
theorem eventRows_ingestBatch [Zero Value] (hash : String → UInt64) (cfg : UploaderConfig)
    (off : ClockOffset) (interner : Interner) (drained : Drained Value) (clock : Nat → UInt64)
    (skew : SkewTable) (fast : FastRing Value) :
    (SinkMsg.batch (ingestBatch clock skew fast (buildBatch hash cfg off interner drained.events
        drained.metricFrames).1).toSink).eventRows =
      (drained.events.filter Event.isPersisted).map fun e => EventRow.ofEvent
        ((e.corrected off).skewCorrected
          (absorbOffsets clock skew (off.latestProto cfg.nodeId).toList)) := by
  rw [SinkMsg.eventRows, ingestBatch_buildBatch_toSink, List.filter_map, List.map_map]
  rw [List.filter_eq_self.mpr]
  · rfl
  · intro e member
    have kept := (List.mem_filter.mp member).2
    simpa [Event.isPersisted] using kept

/-! ### The way from the collector to the sink -/

namespace Deployment

variable [DecidableEq Agent] [Zero Value] {cfg : DeploymentConfig Agent}
  {state : Deployment Agent Value capacity depth}

/-- The batch of an agent that an input delivers to the collector. -/
def arrival (state : Deployment Agent Value capacity depth) (name : Agent)
    (input : DeploymentInput Agent Value) : Option (HandedBatch Value × (Nat → UInt64)) :=
  (input.moveOf name).bind fun move =>
    ((state.agents name).arriving move.1).map fun handed => (handed, move.2)

/-- The message for the sink that comes of a batch. -/
def ingestedMsg (state : Deployment Agent Value capacity depth) (handed : HandedBatch Value)
    (clock : Nat → UInt64) : SinkMsg Value :=
  .batch (ingestBatch clock state.skew state.fast handed.batch).toSink

/-- The event rows an input adds to those of an agent on their way to the sink. -/
def admitted (state : Deployment Agent Value capacity depth) (name : Agent)
    (input : DeploymentInput Agent Value) : List (EventRow Value) :=
  (state.arrival name input).elim [] fun arrived =>
    if state.channel.items.length < depth then (state.ingestedMsg arrived.1 arrived.2).eventRows
    else []

/-- The event rows of an agent in the sink's queue. -/
def waiting (state : Deployment Agent Value capacity depth) (name : Agent) :
    List (EventRow Value) :=
  (state.channel.items.filter fun posted => posted.source = some name).flatMap
    fun posted => posted.msg.eventRows

/-- The event rows of an agent that the sink has taken or will take. -/
def passedOn (state : Deployment Agent Value capacity depth) (name : Agent) :
    List (EventRow Value) :=
  (state.delivered name).map eventRow ++ state.waiting name

/-- The record agrees with the sink, and a message without an agent queues no event. -/
structure Consistent (cfg : DeploymentConfig Agent)
    (state : Deployment Agent Value capacity depth) : Prop where
  sink : state.sink = sinkRun cfg.sink state.sinkInputs
  messages : state.taken.map Posted.msg = (messages state.sinkInputs).map Prod.fst
  sent : ∀ posted ∈ state.taken ++ state.channel.items,
    posted.source = none → posted.msg.eventRows = []

omit [DecidableEq Agent] in
theorem Consistent.length (consistent : state.Consistent cfg) :
    state.taken.length = (PerfWeave.messages state.sinkInputs).length := by
  simpa only [List.length_map] using congrArg List.length consistent.messages

omit [DecidableEq Agent] in
theorem items_offered {Item : Type} (queue : BoundedQueue Item depth) (item : Item) :
    (queue.offered item).items =
      queue.items ++ if queue.items.length < depth then [item] else [] := by
  unfold BoundedQueue.offered
  cases sent : queue.trySend item with
  | some next =>
    obtain ⟨room, items⟩ := BoundedQueue.items_of_trySend sent
    rw [if_pos room, Option.getD_some, items]
  | none =>
    rw [if_neg (BoundedQueue.trySend_eq_none_iff.mp sent), List.append_nil, Option.getD_none]

/-- A message offered to the sink's queue waits there for its agent, if there is room. -/
theorem waiting_offered (posted : Posted Agent Value) (name : Agent)
    (next : Deployment Agent Value capacity depth)
    (channel : next.channel = state.channel.offered posted) :
    next.waiting name = state.waiting name ++
      if state.channel.items.length < depth ∧ posted.source = some name
        then posted.msg.eventRows else [] := by
  unfold waiting
  rw [channel, items_offered]
  by_cases room : state.channel.items.length < depth
  · by_cases same : posted.source = some name
    · rw [if_pos room, if_pos ⟨room, same⟩, List.filter_append, List.flatMap_append,
        List.filter_singleton, decide_eq_true same]
      exact congrArg (_ ++ ·) (List.append_nil _)
    · rw [if_pos room, if_neg (fun both => same both.2), List.filter_append, List.flatMap_append,
        List.filter_singleton, decide_eq_false same]
      rfl
  · rw [if_neg room, if_neg (fun both => room both.1), List.append_nil, List.append_nil]

/-- What the sink takes was delivered for its agent, and the earlier rows stay. -/
theorem delivered_taken (consistent : state.Consistent cfg) (posted : Posted Agent Value)
    (clock : Nat → UInt64) (succeeds : Table → Bool) (name : Agent)
    (next : Deployment Agent Value capacity depth)
    (taken : next.taken = state.taken ++ [posted])
    (sinkInputs : next.sinkInputs = state.sinkInputs ++ [.recv posted.msg clock succeeds]) :
    (next.delivered name).map eventRow = (state.delivered name).map eventRow ++
      if posted.source = some name then posted.msg.eventRows else [] := by
  have length := consistent.length
  have earlier : ∀ row ∈ queuedRows state.sinkInputs .events,
      next.sourceOf row.origin.message = state.sourceOf row.origin.message := by
    intro row member
    have before := origin_message_lt member
    rw [sourceOf, taken, List.getElem?_append_left (by omega)]
    rfl
  have here : ∀ row ∈ posted.msg.rows clock (PerfWeave.messages state.sinkInputs).length .events,
      next.sourceOf row.origin.message = posted.source := by
    intro row member
    rw [origin_message_of_mem_rows member, sourceOf, taken, ← length,
      List.getElem?_concat_length, Option.bind_some]
  unfold delivered
  rw [sinkInputs, queuedRows_concat_recv, List.filter_append, List.map_append]
  refine congrArg₂ (· ++ ·) (congrArg _ (List.filter_congr fun row member => ?_)) ?_
  · rw [earlier row member]
  · by_cases same : posted.source = some name
    · rw [if_pos same, List.filter_eq_self.mpr, SinkMsg.rows_events]
      exact fun row member => decide_eq_true ((here row member).trans same)
    · rw [if_neg same, List.filter_eq_nil_iff.mpr]
      · rfl
      · intro row member
        rw [here row member, decide_eq_false same]
        exact Bool.false_ne_true

/-- An input adds to the rows of an agent what it admits. -/
theorem Consistent.passedOn_step (consistent : state.Consistent cfg)
    (input : DeploymentInput Agent Value) (name : Agent) :
    (state.step cfg input).passedOn name = state.passedOn name ++ state.admitted name input := by
  have still : state.passedOn name = state.passedOn name ++ [] := (List.append_nil _).symm
  cases input with
  | agent other input clock =>
    unfold step admitted arrival DeploymentInput.moveOf
    simp only
    cases arrives : (state.agents other).arriving input with
    | none =>
      by_cases same : other = name
      · subst same
        rw [if_pos rfl, Option.bind_some, arrives]
        exact still
      · rw [if_neg same]
        exact still
    | some handed =>
      refine (congrArg ((state.delivered name).map eventRow ++ ·) (waiting_offered
        ⟨some other, state.ingestedMsg handed clock⟩ name _ rfl)).trans ?_
      rw [← List.append_assoc]
      refine congrArg (state.passedOn name ++ ·) ?_
      by_cases same : other = name
      · subst same
        rw [if_pos rfl, Option.bind_some, arrives]
        simp only [and_true, Option.map_some, Option.elim_some]
      · rw [if_neg same, if_neg (fun both => same (Option.some.inj both.2))]
        rfl
  | report report =>
    have noRows : report.msg.eventRows = [] := by cases report <;> rfl
    refine (congrArg ((state.delivered name).map eventRow ++ ·) (waiting_offered
      ⟨none, report.msg⟩ name _ rfl)).trans ?_
    rw [noRows, ite_self, List.append_nil]
    exact still
  | sinkRecv clock succeeds =>
    unfold step
    simp only
    cases received : state.channel.tryRecv with
    | none => exact still
    | some pair =>
      obtain ⟨posted, channel⟩ := pair
      have items := BoundedQueue.items_of_tryRecv received
      refine Eq.trans ?_ still
      unfold passedOn waiting
      rw [delivered_taken consistent posted clock succeeds name _ rfl rfl, items,
        List.append_assoc, List.filter_cons]
      simp only
      by_cases same : posted.source = some name
      · rw [if_pos same, if_pos (decide_eq_true same), List.flatMap_cons]
      · rw [if_neg same, if_neg (by simpa using same), List.nil_append]
  | sinkTick succeeds =>
    refine Eq.trans ?_ still
    unfold passedOn delivered
    simp only [step, queuedRows_concat_tick]
    rfl

end Deployment

end PerfWeave
