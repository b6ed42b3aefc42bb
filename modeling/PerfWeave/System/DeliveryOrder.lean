/-
This file proves what a whole run of the deployment delivers. The rows stored for an agent are
those of part of its pushes, in order; they are those of all its pushes when no step of the run
loses an event; and as no shipped agent ever sets a clock fit, they are the pushes to the letter.
-/

import PerfWeave.Library.OrderedImages
import PerfWeave.System.Delivery

namespace PerfWeave

variable {Agent Value : Type} {capacity depth : Nat}

/-! ### One input -/

namespace Deployment

variable [DecidableEq Agent] [Zero Value] {cfg : DeploymentConfig Agent}
  {state : Deployment Agent Value capacity depth}

/-- An agent moves on its own inputs only. -/
theorem step_agents (input : DeploymentInput Agent Value) (name : Agent) :
    (state.step cfg input).agents name = (input.moveOf name).elim (state.agents name) fun move =>
      (state.agents name).step cfg.hash (cfg.agents name) move.1 := by
  cases input with
  | agent other input clock =>
    have agents : (state.step cfg (.agent other input clock)).agents =
        Function.update state.agents other
          ((state.agents other).step cfg.hash (cfg.agents other) input) := by
      unfold step
      simp only
      split <;> rfl
    rw [agents, DeploymentInput.moveOf]
    by_cases same : other = name
    · subst same
      rw [if_pos rfl, Function.update_self, Option.elim_some]
    · rw [if_neg same, Function.update_of_ne (Ne.symm same), Option.elim_none]
  | report report => rfl
  | sinkRecv clock succeeds =>
    unfold step
    simp only
    split <;> rfl
  | sinkTick succeeds => rfl

/-- A batch that arrives from an agent is added to those received from it. -/
theorem step_agents_received (input : DeploymentInput Agent Value) (name : Agent) :
    ((state.step cfg input).agents name).received =
      (state.agents name).received ++ ((state.arrival name input).map Prod.fst).toList := by
  rw [step_agents, arrival]
  cases input.moveOf name with
  | none => exact (List.append_nil _).symm
  | some move =>
    rw [Option.elim_some, Uploader.step_received, Option.bind_some, Option.map_map]
    exact congrArg _ (congrArg _ Option.map_id'.symm)

omit [Zero Value] in
theorem mem_places_of_arrival {input : DeploymentInput Agent Value} {name : Agent}
    {handed : HandedBatch Value} {clock : Nat → UInt64}
    (arrives : state.arrival name input = some (handed, clock)) :
    handed ∈ (state.agents name).places := by
  obtain ⟨move, _, mapped⟩ := Option.bind_eq_some_iff.mp arrives
  obtain ⟨other, arriving, same⟩ := Option.map_eq_some_iff.mp mapped
  rw [← (Prod.mk.inj same).1]
  exact Uploader.mem_places_of_arriving arriving

omit [DecidableEq Agent] in
theorem start_consistent :
    (start : Deployment Agent Value capacity depth).Consistent cfg where
  sink := rfl
  messages := rfl
  sent := fun _ absent => absurd absent List.not_mem_nil

omit [DecidableEq Agent] in
theorem Consistent.offer {next : Deployment Agent Value capacity depth}
    (consistent : state.Consistent cfg) (posted : Posted Agent Value)
    (noRows : posted.source = none → posted.msg.eventRows = [])
    (sink : next.sink = state.sink) (taken : next.taken = state.taken)
    (sinkInputs : next.sinkInputs = state.sinkInputs)
    (channel : next.channel = state.channel.offered posted) : next.Consistent cfg := by
  refine ⟨?_, ?_, fun other member => ?_⟩
  · rw [sink, sinkInputs]
    exact consistent.sink
  · rw [taken, sinkInputs]
    exact consistent.messages
  · rw [taken, channel, items_offered, ← List.append_assoc] at member
    rcases List.mem_append.mp member with before | now
    · exact consistent.sent other before
    · split at now
      · rw [List.mem_singleton.mp now]
        exact noRows
      · exact absurd now List.not_mem_nil

theorem Consistent.step (consistent : state.Consistent cfg)
    (input : DeploymentInput Agent Value) : (state.step cfg input).Consistent cfg := by
  cases input with
  | agent name input clock =>
    unfold Deployment.step
    simp only
    split
    · exact ⟨consistent.sink, consistent.messages, consistent.sent⟩
    · refine consistent.offer ⟨some name, _⟩ ?_ rfl rfl rfl rfl
      exact fun isNone => absurd isNone (Option.some_ne_none name)
  | report report =>
    exact consistent.offer ⟨none, report.msg⟩ (fun _ => by cases report <;> rfl) rfl rfl rfl rfl
  | sinkRecv clock succeeds =>
    unfold Deployment.step
    simp only
    split
    · exact consistent
    · rename_i posted channel received
      have items := BoundedQueue.items_of_tryRecv received
      refine ⟨?_, ?_, fun other member => consistent.sent other ?_⟩
      · show state.sink.step cfg.sink _ = sinkRun cfg.sink (state.sinkInputs ++ [_])
        rw [sinkRun_concat, consistent.sink]
      · simp only [messages_concat_recv, List.map_append, consistent.messages, List.map_cons,
          List.map_nil]
      · rwa [items, List.append_cons]
  | sinkTick succeeds =>
    refine ⟨?_, ?_, consistent.sent⟩
    · show state.sink.step cfg.sink _ = sinkRun cfg.sink (state.sinkInputs ++ [_])
      rw [sinkRun_concat, consistent.sink]
    · show state.taken.map Posted.msg = _
      rw [consistent.messages]
      exact (congrArg _ (messages_concat_tick _ _)).symm

/-- Every event row the sink has queued is an agent's. -/
theorem Consistent.exists_delivered (consistent : state.Consistent cfg)
    {row : Queued (TableRow Value .events)} (queued : row ∈ queuedRows state.sinkInputs .events) :
    ∃ name, row ∈ state.delivered name := by
  obtain ⟨⟨⟨msg, clock⟩, message⟩, msgMember, rowMember⟩ := List.mem_flatMap.mp queued
  have isMessage := List.mk_mem_zipIdx_iff_getElem?.mp msgMember
  have taken : (state.taken.map Posted.msg)[message]? = some msg := by
    rw [consistent.messages, List.getElem?_map, isMessage, Option.map_some]
  obtain ⟨posted, isPosted, rfl⟩ := Option.map_eq_some_iff.mp (List.getElem?_map.symm.trans taken)
  have number := origin_message_of_mem_rows rowMember
  have rowOf : eventRow row ∈ posted.msg.eventRows := by
    rw [← SinkMsg.rows_events clock message]
    exact List.mem_map_of_mem rowMember
  cases source : posted.source with
  | none =>
    have noRows := consistent.sent posted
      (List.mem_append_left _ (List.mem_of_getElem? isPosted)) source
    rw [noRows] at rowOf
    exact absurd rowOf List.not_mem_nil
  | some name =>
    refine ⟨name, List.mem_filter.mpr ⟨queued, decide_eq_true ?_⟩⟩
    rw [sourceOf, number, isPosted, Option.bind_some, source]

/-- What the database stores is delivered for an agent. -/
theorem Consistent.exists_delivered_of_stored (consistent : state.Consistent cfg)
    {row : Queued (TableRow Value .events)} (stored : row ∈ storedRows state.sink.log .events) :
    ∃ name, row ∈ state.delivered name := by
  have moment : Moment cfg.sink state.sinkInputs (fun _ => true) state.sinkInputs
      (sinkRun cfg.sink state.sinkInputs) := .between List.prefix_rfl
  rw [consistent.sink] at stored
  exact consistent.exists_delivered (moment.covers.queued .events row (.inl stored))

/-! ### What arrives and what is passed on -/

/-- The rows passed on for each agent are images of part of the events received from it, in
order. -/
def Follows (image : Event Value → EventRow Value → Prop)
    (state : Deployment Agent Value capacity depth) : Prop :=
  ∀ name, List.SublistForall₂ (fun row e => image e row) (state.passedOn name)
    (Uploader.eventsOf (state.agents name).received)

/-- The rows passed on for an agent are the images of the events received from it. -/
def Exhausts (image : Event Value → EventRow Value → Prop) (name : Agent)
    (state : Deployment Agent Value capacity depth) : Prop :=
  List.Forall₂ (fun row e => image e row) (state.passedOn name)
    ((Uploader.eventsOf (state.agents name).received).filter Event.isPersisted)

/-- The rows of a batch that arrives are the images of the events it was built from. -/
def Images (image : Event Value → EventRow Value → Prop)
    (state : Deployment Agent Value capacity depth) (input : DeploymentInput Agent Value)
    (name : Agent) : Prop :=
  ∀ handed clock, state.arrival name input = some (handed, clock) →
    List.Forall₂ (fun row e => image e row) (state.ingestedMsg handed clock).eventRows
      (handed.drained.events.filter Event.isPersisted)

/-- A batch that arrives from an agent finds room in the sink's queue. -/
def Roomy (state : Deployment Agent Value capacity depth) (input : DeploymentInput Agent Value)
    (name : Agent) : Prop :=
  (state.arrival name input).isSome → state.channel.items.length < depth

variable {image : Event Value → EventRow Value → Prop} {input : DeploymentInput Agent Value}

omit [DecidableEq Agent] [Zero Value] in
theorem eventsOf_append_toList (received : List (HandedBatch Value))
    (arrived : Option (HandedBatch Value × (Nat → UInt64))) :
    Uploader.eventsOf (received ++ (arrived.map Prod.fst).toList) =
      Uploader.eventsOf received ++ arrived.elim [] fun pair => pair.1.drained.events := by
  rw [Uploader.eventsOf_append]
  cases arrived with
  | none => rfl
  | some pair => exact congrArg (_ ++ ·) (List.append_nil _)

theorem Follows.step (follows : state.Follows image) (consistent : state.Consistent cfg)
    (images : ∀ name, state.Images image input name) : (state.step cfg input).Follows image := by
  intro name
  rw [consistent.passedOn_step, step_agents_received, eventsOf_append_toList, admitted]
  refine sublistForall₂_append (follows name) ?_
  cases arrives : state.arrival name input with
  | none => exact .nil
  | some pair =>
    simp only [Option.elim_some]
    split
    · exact List.sublistForall₂_iff.mpr
        ⟨_, images name pair.1 pair.2 arrives, List.filter_sublist⟩
    · exact .nil

theorem Exhausts.step {name : Agent} (exhausts : state.Exhausts image name)
    (consistent : state.Consistent cfg) (images : state.Images image input name)
    (roomy : state.Roomy input name) : (state.step cfg input).Exhausts image name := by
  unfold Exhausts
  rw [consistent.passedOn_step, step_agents_received, eventsOf_append_toList, admitted,
    List.filter_append]
  refine List.rel_append exhausts ?_
  cases arrives : state.arrival name input with
  | none => exact .nil
  | some pair =>
    have room := roomy (arrives ▸ rfl)
    simp only [Option.elim_some, if_pos room]
    exact images pair.1 pair.2 arrives

/-! ### What holds over a run -/

theorem step_path_sublist {pushed : List (Event Value)} {name : Agent}
    (order : (state.agents name).path.Sublist pushed) :
    ((state.step cfg input).agents name).path.Sublist
      (pushed ++ (input.pushedAt name).toList) := by
  rw [step_agents, DeploymentInput.pushedAt]
  cases input.moveOf name with
  | none =>
    rw [Option.bind_none, Option.toList_none, List.append_nil]
    exact order
  | some move =>
    exact (Uploader.step_spec move.1).path_sublist.trans (order.append_right _)

theorem step_path_of_clean {pushed : List (Event Value)} {name : Agent}
    (order : (state.agents name).path = pushed)
    (clean : ∀ move, input.moveOf name = some move → (state.agents name).Clean move.1) :
    ((state.step cfg input).agents name).path = pushed ++ (input.pushedAt name).toList := by
  rw [step_agents, DeploymentInput.pushedAt]
  cases moves : input.moveOf name with
  | none =>
    rw [Option.bind_none, Option.toList_none, List.append_nil]
    exact order
  | some move =>
    rw [← order]
    exact (Uploader.step_spec move.1).path_of_clean (clean move moves)

/-- A property of a batch that every flush of an agent establishes holds of all its batches on
their way. -/
theorem step_places {holds : Agent → HandedBatch Value → Prop}
    (all : ∀ name, ∀ handed ∈ (state.agents name).places, holds name handed)
    (flushed : ∀ name handed interner, handed.batch = (buildBatch cfg.hash (cfg.agents name)
      (state.agents name).offsets interner handed.drained.events handed.drained.metricFrames).1 →
        holds name handed) :
    ∀ name, ∀ handed ∈ ((state.step cfg input).agents name).places, holds name handed := by
  intro name
  rw [step_agents]
  cases input.moveOf name with
  | none => exact all name
  | some move => exact (Uploader.step_spec move.1).all_places (all name) (flushed name)

/-- Every batch of an agent on its way was built from what it drained. -/
def Built (cfg : DeploymentConfig Agent) (state : Deployment Agent Value capacity depth) : Prop :=
  ∀ name, ∀ handed ∈ (state.agents name).places,
    BuiltFrom cfg.hash (cfg.agents name) handed.drained handed.batch

theorem Built.images (built : state.Built cfg) (name : Agent) :
    state.Images Event.StoredAs input name := by
  intro handed clock arrives
  obtain ⟨off, interner, isBatch⟩ := built name handed (mem_places_of_arrival arrives)
  rw [ingestedMsg, isBatch, eventRows_ingestBatch, List.forall₂_map_left_iff, List.forall₂_same]
  exact fun e member => Event.storedAs_corrected (List.mem_filter.mp member).2 _ _

/-- What every run keeps. -/
structure Delivers (cfg : DeploymentConfig Agent) (inputs : List (DeploymentInput Agent Value))
    (state : Deployment Agent Value capacity depth) : Prop where
  consistent : state.Consistent cfg
  built : state.Built cfg
  follows : state.Follows Event.StoredAs
  order : ∀ name, (state.agents name).path.Sublist (pushedBy inputs name)

omit [Zero Value] in
theorem pushedBy_concat (inputs : List (DeploymentInput Agent Value))
    (input : DeploymentInput Agent Value) (name : Agent) :
    pushedBy (inputs ++ [input]) name = pushedBy inputs name ++ (input.pushedAt name).toList := by
  rw [pushedBy, List.filterMap_append, List.filterMap_cons]
  cases input.pushedAt name <;> rfl

theorem run_delivers (cfg : DeploymentConfig Agent)
    (inputs : List (DeploymentInput Agent Value)) :
    Delivers cfg inputs (deploymentRun cfg inputs : Deployment Agent Value capacity depth) := by
  have nothing : Delivers cfg [] (start : Deployment Agent Value capacity depth) :=
    ⟨start_consistent, fun _ _ absent => absurd absent List.not_mem_nil, fun _ => .nil,
      fun _ => List.Sublist.refl _⟩
  refine run_induction nothing (fun before input delivers => ?_) inputs
  refine ⟨delivers.consistent.step input, ?_, ?_, fun name => ?_⟩
  · exact step_places delivers.built fun name handed interner isBatch => ⟨_, interner, isBatch⟩
  · exact delivers.follows.step delivers.consistent delivers.built.images
  · rw [pushedBy_concat]
    exact step_path_sublist (delivers.order name)

/-- The rows delivered for an agent, as images of its pushes. -/
theorem Follows.delivered (follows : state.Follows image) {name : Agent}
    {pushed : List (Event Value)} (order : (state.agents name).path.Sublist pushed) :
    List.SublistForall₂ (fun row e => image e (eventRow row)) (state.delivered name) pushed := by
  have received : (Uploader.eventsOf (state.agents name).received).Sublist pushed := by
    refine List.Sublist.trans ?_ order
    rw [Uploader.path, Uploader.places, Uploader.eventsOf_append, List.append_assoc]
    exact List.sublist_append_left _ _
  obtain ⟨kept, related, isSublist⟩ :=
    List.sublistForall₂_iff.mp (sublistForall₂_of_sublist (follows name) received)
  have first := (List.forall₂_take_append _ _ _ related.flip).flip
  rw [List.forall₂_map_left_iff] at first
  exact List.sublistForall₂_iff.mpr ⟨_, first, (List.take_sublist _ _).trans isSublist⟩

end Deployment

/-- Over every run of any number of agents, the collector and the sink, with sessions that fail,
queues that fill up and inserts that fail, each event row in the database is one the sink was
handed for an agent, and the rows handed over for an agent are, in order and each once, those of
events it pushed. -/
theorem delivered_in_order [DecidableEq Agent] [Zero Value] (cfg : DeploymentConfig Agent)
    (inputs : List (DeploymentInput Agent Value)) :
    (∀ row ∈ storedRows (deploymentRun cfg inputs :
        Deployment Agent Value capacity depth).sink.log .events,
      ∃ name, row ∈ (deploymentRun cfg inputs :
        Deployment Agent Value capacity depth).delivered name) ∧
      ∀ name, List.SublistForall₂ (fun row e => e.StoredAs (eventRow row))
        ((deploymentRun cfg inputs : Deployment Agent Value capacity depth).delivered name)
        (pushedBy inputs name) := by
  have delivers : Deployment.Delivers cfg inputs
      (deploymentRun cfg inputs : Deployment Agent Value capacity depth) :=
    Deployment.run_delivers cfg inputs
  exact ⟨fun row stored => delivers.consistent.exists_delivered_of_stored stored,
    fun name => delivers.follows.delivered (delivers.order name)⟩

/-! ### Runs without a loss -/

namespace Deployment

variable [DecidableEq Agent] [Zero Value] {cfg : DeploymentConfig Agent}
  {state : Deployment Agent Value capacity depth}

/-- An input loses no event of an agent: neither the agent nor the sink's queue does. -/
structure Clean (state : Deployment Agent Value capacity depth) (name : Agent)
    (input : DeploymentInput Agent Value) : Prop where
  agent : ∀ move, input.moveOf name = some move → (state.agents name).Clean move.1
  roomy : state.Roomy input name

/-- Nothing of an agent is on its way any more, and the sink has flushed its events. -/
structure Idle (state : Deployment Agent Value capacity depth) (name : Agent) : Prop where
  ring : (state.agents name).ledger.ring.events.items = []
  inFlight : (state.agents name).inFlight = []
  channel : state.channel.items = []
  flushed : state.sink.pending .events = []

theorem Idle.passedOn {name : Agent} (idle : state.Idle name) :
    state.passedOn name = (state.delivered name).map eventRow := by
  rw [Deployment.passedOn, waiting, idle.channel]
  exact List.append_nil _

omit [DecidableEq Agent] [Zero Value] in
theorem Idle.path {name : Agent} (idle : state.Idle name) :
    (state.agents name).path = Uploader.eventsOf (state.agents name).received := by
  rw [Uploader.path, Uploader.places, idle.inFlight, idle.ring, List.append_nil, List.append_nil]

/-- A run that loses no event of an agent passes on all those received and has the others on
their way. -/
theorem run_exhausts (cfg : DeploymentConfig Agent) (name : Agent)
    (inputs : List (DeploymentInput Agent Value))
    (clean : ∀ before input, before ++ [input] <+: inputs →
      (deploymentRun cfg before : Deployment Agent Value capacity depth).Clean name input) :
    (deploymentRun cfg inputs : Deployment Agent Value capacity depth).Exhausts
        Event.StoredAs name ∧
      ((deploymentRun cfg inputs : Deployment Agent Value capacity depth).agents name).path =
        pushedBy inputs name := by
  induction inputs using List.reverseRecOn with
  | nil => exact ⟨.nil, rfl⟩
  | append_singleton before input inductionHypothesis =>
    obtain ⟨exhausts, order⟩ := inductionHypothesis fun earlier other isPrefix =>
      clean earlier other (isPrefix.trans (List.prefix_append _ _))
    have here := clean before input List.prefix_rfl
    have delivers : Delivers cfg before
        (deploymentRun cfg before : Deployment Agent Value capacity depth) :=
      run_delivers cfg before
    have steps : (deploymentRun cfg (before ++ [input]) :
        Deployment Agent Value capacity depth) = (deploymentRun cfg before).step cfg input :=
      run_concat _ _ _ _
    rw [steps, pushedBy_concat]
    exact ⟨exhausts.step delivers.consistent (delivers.built.images name) here.roomy,
      step_path_of_clean order here.agent⟩

end Deployment

/-- When no step of a run loses an event of an agent and nothing of it is on its way any more,
the database holds the rows of all the events the agent pushed but the metric ones, and the sink
was handed them in the order of the pushes, each once. -/
theorem delivered_all [DecidableEq Agent] [Zero Value] (cfg : DeploymentConfig Agent)
    (name : Agent) (inputs : List (DeploymentInput Agent Value))
    (clean : ∀ before input, before ++ [input] <+: inputs →
      (deploymentRun cfg before : Deployment Agent Value capacity depth).Clean name input)
    (idle : (deploymentRun cfg inputs : Deployment Agent Value capacity depth).Idle name) :
    List.Forall₂ (fun row e => e.StoredAs (eventRow row))
        ((deploymentRun cfg inputs : Deployment Agent Value capacity depth).delivered name)
        ((pushedBy inputs name).filter Event.isPersisted) ∧
      ∀ row ∈ (deploymentRun cfg inputs : Deployment Agent Value capacity depth).delivered name,
        row ∈ storedRows (deploymentRun cfg inputs :
          Deployment Agent Value capacity depth).sink.log .events := by
  obtain ⟨exhausts, order⟩ := Deployment.run_exhausts cfg name inputs clean
  have consistent : (deploymentRun cfg inputs :
      Deployment Agent Value capacity depth).Consistent cfg :=
    (Deployment.run_delivers cfg inputs).consistent
  constructor
  · rw [Deployment.Exhausts, idle.passedOn, List.forall₂_map_left_iff, ← idle.path, order]
      at exhausts
    exact exhausts
  · intro row member
    have moment : Moment cfg.sink (deploymentRun cfg inputs :
        Deployment Agent Value capacity depth).sinkInputs (fun _ => true) _ _ :=
      .between List.prefix_rfl
    have queued := (List.mem_filter.mp member).1
    have covered := moment.covers.covered .events row queued
    rw [← consistent.sink, idle.flushed] at covered
    exact covered.resolve_right List.not_mem_nil

/-- A deployment with one agent. -/
def oneAgent : DeploymentConfig Unit where
  hash := fun _ => 0
  agents := fun _ => plainUploader
  sink := ⟨50000⟩

/-- One copy on its way from the ring into the database. -/
def oneCopyInputs : List (DeploymentInput Unit Nat) :=
  [.agent () .connect fun _ => 0, .agent () (.push waitingCopy) fun _ => 0,
    .agent () .flushTick fun _ => 0, .agent () .place fun _ => 0,
    .agent () .transmit fun _ => 0, .agent () .receive fun _ => 0,
    .sinkRecv (fun _ => 0) fun _ => true, .sinkTick fun _ => true]

/-- The deployment after some of the inputs. -/
def oneAgentRun (inputs : List (DeploymentInput Unit Nat)) : Deployment Unit Nat 4 256 :=
  deploymentRun oneAgent inputs

theorem oneCopyInputs_clean : ∀ before input, before ++ [input] <+: oneCopyInputs →
    (oneAgentRun before).Clean () input := by
  have moves : ∀ before input clock, ((oneAgentRun before).agents ()).Clean input →
      (oneAgentRun before).channel.items.length < 256 →
        (oneAgentRun before).Clean () (.agent () input clock) := by
    refine fun before input clock clean room => ⟨fun move isMove => ?_, fun _ => room⟩
    rw [← Option.some.inj isMove]
    exact clean
  have sinks : ∀ before input, DeploymentInput.moveOf () input = none →
      (oneAgentRun before).Clean () input := by
    refine fun before input none => ⟨fun move isMove => ?_, fun arrives => ?_⟩
    · exact absurd (none.symm.trans isMove) (Option.some_ne_none move).symm
    · rw [Deployment.arrival, none] at arrives
      exact absurd arrives Bool.false_ne_true
  have ringHasRoom : ((oneAgentRun [.agent () .connect fun _ => 0]).agents
      ()).ledger.ring.events.items.length < 4 := by decide
  refine (forall_step_cons_iff _ _).mpr ⟨moves _ _ _ trivial (by decide), ?_⟩
  refine (forall_step_cons_iff _ _).mpr ⟨moves _ _ _ ringHasRoom (by decide), ?_⟩
  refine (forall_step_cons_iff _ _).mpr ⟨moves _ _ _ trivial (by decide), ?_⟩
  refine (forall_step_cons_iff _ _).mpr ⟨moves _ _ _ trivial (by decide), ?_⟩
  refine (forall_step_cons_iff _ _).mpr ⟨moves _ _ _ trivial (by decide), ?_⟩
  refine (forall_step_cons_iff _ _).mpr ⟨moves _ _ _ trivial (by decide), ?_⟩
  refine (forall_step_cons_iff _ _).mpr ⟨sinks _ _ rfl, ?_⟩
  exact (forall_step_cons_iff _ _).mpr ⟨sinks _ _ rfl, forall_step_nil⟩

/-- The copy reaches the database. -/
theorem delivered_all_oneCopy :
    List.Forall₂ (fun row e => e.StoredAs (eventRow row))
        ((oneAgentRun oneCopyInputs).delivered ()) [waitingCopy] ∧
      ∀ row ∈ (oneAgentRun oneCopyInputs).delivered (),
        row ∈ storedRows (oneAgentRun oneCopyInputs).sink.log .events :=
  delivered_all oneAgent () oneCopyInputs oneCopyInputs_clean ⟨rfl, rfl, rfl, rfl⟩

/-! ### As the agents are shipped -/

namespace Deployment

variable [DecidableEq Agent] [Zero Value] {cfg : DeploymentConfig Agent}
  {state : Deployment Agent Value capacity depth} {input : DeploymentInput Agent Value}

/-- An input sets no clock fit at an agent. -/
def LeavesFit (input : DeploymentInput Agent Value) : Prop :=
  ∀ name move, input.moveOf name = some move → ∀ fit, move.1 ≠ .setOffset fit

/-- No agent has a clock fit, none is on its way to the collector, and none has reached it. -/
structure Unfitted (cfg : DeploymentConfig Agent)
    (state : Deployment Agent Value capacity depth) : Prop where
  offsets : ∀ name, (state.agents name).offsets = .identity
  built : ∀ name, ∀ handed ∈ (state.agents name).places, ∃ interner, handed.batch =
    (buildBatch cfg.hash (cfg.agents name) .identity interner handed.drained.events
      handed.drained.metricFrames).1
  skew : state.skew = .new

theorem Unfitted.images (unfitted : state.Unfitted cfg) (name : Agent) :
    state.Images (fun e row => e.isPersisted = true ∧ row = .ofEvent e) input name := by
  intro handed clock arrives
  obtain ⟨interner, isBatch⟩ := unfitted.built name handed (mem_places_of_arrival arrives)
  have unmapped : ∀ e : Event Value,
      (e.corrected .identity).skewCorrected SkewTable.new = e := by
    intro e
    have mapped := ClockOffset.identity_tame.map_eq_self_iff.mpr ⟨rfl, rfl⟩
    have corrected : e.corrected .identity = e := by
      rw [Event.corrected, mapped, ite_self]
    rw [corrected, Event.skewCorrected]
    exact ite_self _
  rw [ingestedMsg, isBatch, eventRows_ingestBatch, unfitted.skew, List.forall₂_map_left_iff,
    List.forall₂_same]
  exact fun e member => ⟨(List.mem_filter.mp member).2, congrArg EventRow.ofEvent (unmapped e)⟩

theorem Unfitted.step_skew (unfitted : state.Unfitted cfg) :
    (state.step cfg input).skew = .new := by
  cases input with
  | agent name input clock =>
    unfold step
    simp only
    split
    · exact unfitted.skew
    · rename_i handed arrives
      obtain ⟨interner, isBatch⟩ := unfitted.built name handed
        (Uploader.mem_places_of_arriving arrives)
      have noFit : ClockOffset.identity.latestProto (cfg.agents name).nodeId = none :=
        latestProto_eq_none_iff.mpr ⟨⟨rfl, rfl⟩, rfl⟩
      have noOffsets : handed.batch.offsets = [] := by
        rw [isBatch]
        exact congrArg Option.toList noFit
      show absorbOffsets clock state.skew handed.batch.offsets = .new
      rw [noOffsets, unfitted.skew]
      rfl
  | report report => exact unfitted.skew
  | sinkRecv clock succeeds =>
    unfold step
    simp only
    split <;> exact unfitted.skew
  | sinkTick succeeds => exact unfitted.skew

theorem Unfitted.step (unfitted : state.Unfitted cfg) (leaves : LeavesFit input) :
    (state.step cfg input).Unfitted cfg := by
  refine ⟨fun name => ?_, ?_, unfitted.step_skew⟩
  · rw [step_agents]
    cases moves : input.moveOf name with
    | none => exact unfitted.offsets name
    | some move =>
      exact (Uploader.step_offsets (leaves name move moves)).trans (unfitted.offsets name)
  · refine step_places unfitted.built fun name handed interner isBatch => ⟨interner, ?_⟩
    rwa [unfitted.offsets name] at isBatch

/-- In a run in which no agent sets a fit, what is passed on are the events themselves. -/
theorem run_follows_unfitted (cfg : DeploymentConfig Agent)
    (inputs : List (DeploymentInput Agent Value)) (leaves : ∀ input ∈ inputs, LeavesFit input) :
    (deploymentRun cfg inputs : Deployment Agent Value capacity depth).Follows
      fun e row => e.isPersisted = true ∧ row = .ofEvent e := by
  have unfitted : (start : Deployment Agent Value capacity depth).Unfitted cfg :=
    ⟨fun _ => rfl, fun _ _ absent => absurd absent List.not_mem_nil, rfl⟩
  refine (run_invariant (motive := fun state : Deployment Agent Value capacity depth =>
    state.Consistent cfg ∧ state.Unfitted cfg ∧
      state.Follows fun e row => e.isPersisted = true ∧ row = .ofEvent e)
    ⟨start_consistent, unfitted, fun _ => .nil⟩ ?_ inputs leaves).2.2
  rintro state input untouched ⟨consistent, unfitted, follows⟩
  exact ⟨consistent.step input, unfitted.step untouched,
    follows.step consistent unfitted.images⟩

end Deployment

/-- In every run in which no agent sets a clock fit, as none of the shipped ones does, each event
row in the database is to the letter that of an event an agent pushed. -/
theorem stored_to_the_letter [DecidableEq Agent] [Zero Value] (cfg : DeploymentConfig Agent)
    (inputs : List (DeploymentInput Agent Value))
    (leaves : ∀ input ∈ inputs, Deployment.LeavesFit input) :
    ∀ row ∈ storedRows (deploymentRun cfg inputs :
        Deployment Agent Value capacity depth).sink.log .events,
      ∃ name, ∃ e ∈ pushedBy inputs name, e.isPersisted = true ∧
        eventRow row = EventRow.ofEvent e := by
  intro row stored
  have delivers : Deployment.Delivers cfg inputs
      (deploymentRun cfg inputs : Deployment Agent Value capacity depth) :=
    Deployment.run_delivers cfg inputs
  obtain ⟨name, isDelivered⟩ := delivers.consistent.exists_delivered_of_stored stored
  have follows : (deploymentRun cfg inputs : Deployment Agent Value capacity depth).Follows
      fun e row => e.isPersisted = true ∧ row = .ofEvent e :=
    Deployment.run_follows_unfitted cfg inputs leaves
  have images := follows.delivered (delivers.order name)
  obtain ⟨kept, related, isSublist⟩ := List.sublistForall₂_iff.mp images
  obtain ⟨e, member, isRow⟩ := exists_mem_of_forall₂ related.flip isDelivered
  exact ⟨name, e, isSublist.subset member, isRow⟩

/-- The row of the copy is the copy. -/
theorem stored_to_the_letter_oneCopy :
    (∀ input ∈ oneCopyInputs, Deployment.LeavesFit input) ∧
      ∀ row ∈ storedRows (oneAgentRun oneCopyInputs).sink.log .events,
        ∃ name, ∃ e ∈ pushedBy oneCopyInputs name, e.isPersisted = true ∧
          eventRow row = EventRow.ofEvent e := by
  have leaves : ∀ input ∈ oneCopyInputs, Deployment.LeavesFit input := by
    intro input member name move moves fit sets
    fin_cases member <;> simp [DeploymentInput.moveOf] at moves <;>
      (rw [← moves] at sets; exact absurd sets (by simp))
  exact ⟨leaves, stored_to_the_letter oneAgent oneCopyInputs leaves⟩

end PerfWeave
