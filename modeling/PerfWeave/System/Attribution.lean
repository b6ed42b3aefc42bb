/-
This file follows a node id from registration to the fast ring. An agent's samplers and its
uploader stamp the id it was configured with, while the id it is assigned is the collector's
answer, which only an explicitly configured agent knows in advance. The CUPTI receiver forwards
events under the id they arrive with, and the injector writes 0 into all of them. A session is
attributed to its assigned id exactly when these ids agree on everything it hands over, and two
sessions so attributed to different ids never write the same series.
-/

import PerfWeave.Agent.Samplers
import PerfWeave.Server.Ingest
import PerfWeave.Server.Register

namespace PerfWeave

variable {Value : Type}

/-! ### One session of an agent -/

/-- A session of an agent: its configuration and host, the collector as it registers, the fit
it starts with, and the inputs of its ring before the session and during it. -/
structure AgentSession (Value : Type) where
  agent : AgentConfig
  host : Host
  svc : CollectorSvc
  now : UInt64
  offsets : ClockOffset
  past : List (SessionInput Value)
  inputs : List (SessionInput Value)

namespace AgentSession

/-- The configuration the session's uploader runs with. -/
def uploader (session : AgentSession Value) : UploaderConfig :=
  session.agent.uploader session.host

/-- The id the collector answers the session's hello with. -/
def assigned (session : AgentSession Value) : UInt32 :=
  (session.svc.register session.uploader.hello session.now).2.assignedNodeId

/-- The ring as the session finds it. -/
def ring (session : AgentSession Value) : EventRing Value session.agent.ringCapacity :=
  (drainedBy session.uploader .new session.past).ring

/-- The batches the session sends. -/
def sent (hash : String → UInt64) (session : AgentSession Value) : List (Batch Value) :=
  (sessionRun hash session.uploader session.ring session.offsets session.inputs).sent

/-- What the flushes of the session drain. -/
def handedOver (session : AgentSession Value) : List (Drained Value) :=
  (drainedBy session.uploader session.ring session.inputs).drained

/-- Everything in the ring comes from the agent's stamping samplers or the CUPTI injector. -/
def FedByProducers (hash : String → UInt64) (session : AgentSession Value) : Prop :=
  ∀ input ∈ session.past ++ session.inputs,
    input.EmittedBy hash (session.agent.stampingSamplers session.host) ∨ input.Injected

/-- No flush of the session drains an event with node id 0, the injector's stamp. -/
def DrainsNoInjected (session : AgentSession Value) : Prop :=
  ∀ flush ∈ session.handedOver, ∀ e ∈ flush.events, e.nodeId ≠ 0

/-- Every batch of the session carries the assigned id throughout. -/
def Attributed (hash : String → UInt64) (session : AgentSession Value) : Prop :=
  ∀ batch ∈ session.sent hash, batch.Carries session.assigned

/-- The collector echoes a configured id and answers 0 with its counter. -/
theorem assigned_eq (session : AgentSession Value) :
    session.assigned =
      if session.agent.nodeId = 0 then session.svc.nextNodeId else session.agent.nodeId := rfl

end AgentSession

/-! ### What a batch carries -/

/-- A batch built from events and frames of the configured id carries it throughout. -/
theorem BuiltFrom.carries {hash : String → UInt64} {cfg : UploaderConfig}
    {flush : Drained Value} {batch : Batch Value} (built : BuiltFrom hash cfg flush batch)
    (stamped : flush.All (fun e => e.nodeId = cfg.nodeId) (fun f => f.nodeId = cfg.nodeId)) :
    batch.Carries cfg.nodeId := by
  obtain ⟨off, interner, rfl⟩ := built
  refine ⟨fun e member => ?_, stamped.frames, fun o member => ?_⟩
  · obtain ⟨drained, drainedMember, rfl⟩ := List.mem_map.mp member
    rw [Event.corrected_nodeId]
    exact stamped.events drained drainedMember
  · have sent : off.latestProto cfg.nodeId = some o := Option.mem_toList.mp member
    unfold ClockOffset.latestProto at sent
    split at sent
    · exact absurd sent nofun
    · rw [← Option.some.inj sent]

/-- What a batch that carries an id was built from has that id already. -/
theorem BuiltFrom.carried {hash : String → UInt64} {cfg : UploaderConfig}
    {flush : Drained Value} {batch : Batch Value} (built : BuiltFrom hash cfg flush batch)
    {nodeId : UInt32} (carries : batch.Carries nodeId) :
    flush.All (fun e => e.nodeId = nodeId) (fun f => f.nodeId = nodeId) := by
  obtain ⟨off, interner, rfl⟩ := built
  refine ⟨fun e member => ?_, carries.frames⟩
  have sent := carries.events _ (List.mem_map_of_mem (f := Event.corrected off) member)
  rwa [Event.corrected_nodeId] at sent

/-! ### Sessions and their ids -/

namespace AgentSession

variable {hash : String → UInt64} {session : AgentSession Value}

/-- The events a session hands over carry the configured id or 0, its frames the former. -/
theorem FedByProducers.stamped (fed : session.FedByProducers hash) :
    ∀ flush ∈ session.handedOver,
      flush.All (fun e => e.nodeId = session.agent.nodeId ∨ e.nodeId = 0)
        (fun f => f.nodeId = session.agent.nodeId) := by
  have pushed : ∀ input ∈ session.past ++ session.inputs,
      input.All (fun e => e.nodeId = session.agent.nodeId ∨ e.nodeId = 0)
        (fun f => f.nodeId = session.agent.nodeId) := by
    intro input member
    rcases fed input member with emitted | injected
    · exact emitted.stamped.imp fun _ stamped => .inl stamped.1
    · cases input with
      | push e => exact .inr injected
      | _ => exact injected.elim
  have before := (drainedBy_all session.uploader
    (.new : EventRing Value session.agent.ringCapacity) EventRing.all_new session.past
    fun input member => pushed input (List.mem_append_left _ member)).1
  exact (drainedBy_all session.uploader _ before session.inputs
    fun input member => pushed input (List.mem_append_right _ member)).2

/-- A session whose configured id is the assigned one and that hands over nothing else is
attributed. -/
theorem attributed_of_drained (same : session.agent.nodeId = session.assigned)
    (drained : ∀ flush ∈ session.handedOver,
      flush.All (fun e => e.nodeId = session.agent.nodeId)
        (fun f => f.nodeId = session.agent.nodeId)) : session.Attributed hash := by
  intro batch member
  obtain ⟨flush, flushMember, built⟩ := exists_builtFrom_of_mem member
  exact same ▸ built.carries (drained flush flushMember)

theorem Attributed.drained (attributed : session.Attributed hash) :
    ∀ flush ∈ session.handedOver,
      flush.All (fun e => e.nodeId = session.assigned) (fun f => f.nodeId = session.assigned) := by
  intro flush member
  obtain ⟨batch, batchMember, built⟩ :=
    exists_builtFrom_of_mem_drained hash session.offsets member
  exact built.carried (attributed batch batchMember)

/-- An attributed session of an unconfigured agent that hands anything over is assigned 0. -/
theorem Attributed.assigned_eq_zero (attributed : session.Attributed hash)
    (fed : session.FedByProducers hash) (zero : session.agent.nodeId = 0)
    (something : session.handedOver ≠ []) : session.assigned = 0 := by
  obtain ⟨flush, member⟩ := List.exists_mem_of_ne_nil _ something
  have stamped := fed.stamped flush member
  have carried := attributed.drained flush member
  rcases drainedBy_nonempty _ _ _ flush member with events | frames
  · obtain ⟨e, eventMember⟩ := List.exists_mem_of_ne_nil _ events
    rw [← carried.events e eventMember]
    exact (stamped.events e eventMember).elim (fun own => own.trans zero) fun none => none
  · obtain ⟨f, frameMember⟩ := List.exists_mem_of_ne_nil _ frames
    rw [← carried.frames f frameMember, stamped.frames f frameMember, zero]

/-- A session fed by the repository's producers is attributed to its assigned id exactly when
its node id is configured and it forwards no injected event, or the node id is 0 and so is the
collector's counter, or it hands nothing over. -/
theorem attributed_iff (fed : session.FedByProducers hash) :
    session.Attributed hash ↔
      (session.agent.nodeId ≠ 0 ∧ session.DrainsNoInjected) ∨
        (session.agent.nodeId = 0 ∧ session.svc.nextNodeId = 0) ∨ session.handedOver = [] := by
  have assigned := session.assigned_eq
  constructor
  · intro attributed
    by_cases zero : session.agent.nodeId = 0
    · by_cases nothing : session.handedOver = []
      · exact .inr (.inr nothing)
      · rw [if_pos zero, attributed.assigned_eq_zero fed zero nothing] at assigned
        exact .inr (.inl ⟨zero, assigned.symm⟩)
    · rw [if_neg zero] at assigned
      refine .inl ⟨zero, fun flush member e eventMember => ?_⟩
      rw [(attributed.drained flush member).events e eventMember, assigned]
      exact zero
  · rintro (⟨configured, own⟩ | ⟨zero, counter⟩ | nothing)
    · rw [if_neg configured] at assigned
      refine attributed_of_drained assigned.symm fun flush member => ?_
      have stamped := fed.stamped flush member
      exact ⟨fun e eventMember =>
        (stamped.events e eventMember).resolve_right (own flush member e eventMember),
        stamped.frames⟩
    · rw [if_pos zero, counter] at assigned
      refine attributed_of_drained (zero.trans assigned.symm) fun flush member => ?_
      have stamped := fed.stamped flush member
      exact ⟨fun e eventMember =>
        (stamped.events e eventMember).elim (fun own => own) fun none => none.trans zero.symm,
        stamped.frames⟩
    · intro batch member
      obtain ⟨flush, flushMember, _⟩ := exists_builtFrom_of_mem member
      rw [← handedOver, nothing] at flushMember
      exact absurd flushMember List.not_mem_nil

end AgentSession

/-- A session fed by the repository's producers is attributed to its assigned id exactly when
its node id is configured and it forwards no injected event, or the node id is 0 and so is the
collector's counter, or it hands nothing over; and no series is written by the batches of two
sessions attributed to different ids. -/
theorem sessions_attributed [Zero Value] (hash : String → UInt64)
    (session other : AgentSession Value) (fed : session.FedByProducers hash) :
    (session.Attributed hash ↔
      (session.agent.nodeId ≠ 0 ∧ session.DrainsNoInjected) ∨
        (session.agent.nodeId = 0 ∧ session.svc.nextNodeId = 0) ∨ session.handedOver = []) ∧
    (session.Attributed hash → other.Attributed hash → session.assigned ≠ other.assigned →
      ∀ batch ∈ session.sent hash, ∀ otherBatch ∈ other.sent hash,
        ∀ clock skew fast otherClock otherSkew otherFast key,
          (ingestBatch clock skew fast batch).fast.writer key = fast.writer key ∨
            (ingestBatch otherClock otherSkew otherFast otherBatch).fast.writer key =
              otherFast.writer key) := by
  refine ⟨AgentSession.attributed_iff fed, ?_⟩
  intro attributed otherAttributed differs batch member otherBatch otherMember clock skew fast
    otherClock otherSkew otherFast key
  by_cases own : key.nodeId = session.assigned
  · exact .inr (ingestBatch_writer_of_ne otherClock otherSkew otherFast
      (otherAttributed otherBatch otherMember) (own ▸ differs))
  · exact .inl (ingestBatch_writer_of_ne clock skew fast (attributed batch member) own)

/-! ### Two synthetic agents -/

/-- A session of a synthetic agent with the given node id, registering with a collector. -/
def syntheticSession (nodeId : UInt32) (svc : CollectorSvc) : AgentSession Nat where
  agent := { AgentConfig.syntheticDefault with nodeId := nodeId }
  host := plainHost
  svc := svc
  now := 0
  offsets := .identity
  past := []
  inputs := syntheticFrameInputs polynomialHash nodeId

/-- The collector after such a session was the first to register. -/
def afterFirst (nodeId : UInt32) : CollectorSvc :=
  (CollectorSvc.new.register (syntheticSession nodeId .new).uploader.hello 0).1

/-- What such a session pushes comes from its sampler. -/
theorem syntheticSession_fed (nodeId : UInt32) (svc : CollectorSvc) :
    (syntheticSession nodeId svc).FedByProducers polynomialHash :=
  fun input member => .inl (syntheticFrameInputs_emitted polynomialHash nodeId input member)

/-- Such a session hands over its frame alone. -/
theorem syntheticSession_drainsNoInjected (nodeId : UInt32) (svc : CollectorSvc) :
    (syntheticSession nodeId svc).DrainsNoInjected := by
  intro flush member
  rw [List.mem_singleton.mp member]
  exact fun _ nothing => absurd nothing List.not_mem_nil

/-- Two agents configured as nodes 7 and 8 are attributed. -/
theorem configured_sessions_attributed :
    (syntheticSession 7 .new).Attributed polynomialHash ∧
      (syntheticSession 8 (afterFirst 7)).Attributed polynomialHash :=
  ⟨(sessions_attributed polynomialHash _ (syntheticSession 8 (afterFirst 7))
      (syntheticSession_fed 7 .new)).1.mpr
        (.inl ⟨by decide, syntheticSession_drainsNoInjected 7 .new⟩),
    (sessions_attributed polynomialHash _ (syntheticSession 7 .new)
      (syntheticSession_fed 8 (afterFirst 7))).1.mpr
        (.inl ⟨by decide, syntheticSession_drainsNoInjected 8 _⟩)⟩

/-- Two agents with the default node id are assigned 1 and 2, are not attributed to these ids,
and write the same series. -/
theorem default_sessions_share_series :
    (syntheticSession 0 .new).assigned = 1 ∧
      (syntheticSession 0 (afterFirst 0)).assigned = 2 ∧
      ¬ (syntheticSession 0 .new).Attributed polynomialHash ∧
      ¬ (syntheticSession 0 (afterFirst 0)).Attributed polynomialHash ∧
      ∃ batch ∈ (syntheticSession 0 .new).sent polynomialHash,
        ∃ otherBatch ∈ (syntheticSession 0 (afterFirst 0)).sent polynomialHash, ∃ key,
          ((ingestBatch (fun _ => 0) .new .new batch).fast.writer key).isSome ∧
            ((ingestBatch (fun _ => 0) .new .new otherBatch).fast.writer key).isSome := by
  have unattributed : ∀ svc : CollectorSvc, svc.nextNodeId ≠ 0 →
      ¬ (syntheticSession 0 svc).Attributed polynomialHash := by
    intro svc counter attributed
    rcases (AgentSession.attributed_iff (syntheticSession_fed 0 svc)).mp attributed with
      ⟨explicit, _⟩ | ⟨_, zero⟩ | nothing
    · exact explicit rfl
    · exact counter zero
    · exact absurd nothing (List.cons_ne_nil _ _)
  have point : (⟨polynomialHash "gpu.util.percent", 57⟩ : MetricPoint Nat) ∈
      (syntheticFrame polynomialHash 0 0 1000 (fun _ => 57)).points := List.mem_cons_self
  exact ⟨rfl, rfl, unattributed _ (by decide), unattributed _ (by decide), _,
    List.mem_cons_self, _, List.mem_cons_self, _,
    absorbFrame_writer_isSome _ _ _ point, absorbFrame_writer_isSome _ _ _ point⟩

end PerfWeave
