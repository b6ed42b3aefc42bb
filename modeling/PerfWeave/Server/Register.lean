/-
This file models registration: `register` of `perfweave-server/src/ingest/grpc.rs` and the
`AgentRegistry` of `perfweave-server/src/replay.rs`. An agent that asks for id 0 is given the
next value of a 32-bit counter that wraps; any other agent keeps the id it asked for. The
registry maps an id to the agent registered last under it.
-/

import PerfWeave.Proto

namespace PerfWeave

/-- `AgentEntry`: what replay needs to reach an agent. -/
structure AgentEntry where
  nodeId : UInt32
  hostname : String
  rpcAddr : Option String
  deriving DecidableEq

/-- `AgentRegistry`: the agents by node id. -/
structure AgentRegistry where
  inner : UInt32 → Option AgentEntry

/-- The entry of an agent under an id: an empty callback address is none. -/
def AgentEntry.ofHello (nodeId : UInt32) (hello : AgentHello) : AgentEntry where
  nodeId := nodeId
  hostname := hello.hostname
  rpcAddr := if hello.agentRpcAddr.isEmpty then none else some hello.agentRpcAddr

namespace AgentRegistry

/-- `AgentRegistry::new`. -/
def new : AgentRegistry := ⟨fun _ => none⟩

/-- `AgentRegistry::register`: insert an agent, replacing whoever had the id. -/
def register (registry : AgentRegistry) (nodeId : UInt32) (hello : AgentHello) : AgentRegistry :=
  ⟨Function.update registry.inner nodeId (some (.ofHello nodeId hello))⟩

/-- `AgentRegistry::get`. -/
def get (registry : AgentRegistry) (nodeId : UInt32) : Option AgentEntry :=
  registry.inner nodeId

theorem get_register_self (registry : AgentRegistry) (nodeId : UInt32) (hello : AgentHello) :
    (registry.register nodeId hello).get nodeId = some (.ofHello nodeId hello) :=
  Function.update_self nodeId _ registry.inner

theorem get_register_of_ne (registry : AgentRegistry) {nodeId other : UInt32}
    (differs : other ≠ nodeId) (hello : AgentHello) :
    (registry.register nodeId hello).get other = registry.get other :=
  Function.update_of_ne differs _ registry.inner

end AgentRegistry

/-- The part of `CollectorSvc` that registration reads and writes. -/
structure CollectorSvc where
  nextNodeId : UInt32
  agents : AgentRegistry

namespace CollectorSvc

/-- `CollectorSvc::new`: the counter starts at one. -/
def new : CollectorSvc where
  nextNodeId := 1
  agents := .new

/-- The id a hello is given. -/
def assigned (svc : CollectorSvc) (hello : AgentHello) : UInt32 :=
  if hello.nodeId = 0 then svc.nextNodeId else hello.nodeId

/-- `register` at the host time `now`. -/
def register (svc : CollectorSvc) (hello : AgentHello) (now : UInt64) :
    CollectorSvc × RegisterAck :=
  ({ nextNodeId := if hello.nodeId = 0 then svc.nextNodeId + 1 else svc.nextNodeId
     agents := svc.agents.register (svc.assigned hello) hello },
   { assignedNodeId := svc.assigned hello, serverEpochNs := now })

/-- A sequence of registrations with the host time of each, and the answers in order. -/
def registerAll (svc : CollectorSvc) : List (AgentHello × UInt64) → CollectorSvc × List RegisterAck
  | [] => (svc, [])
  | (hello, now) :: rest =>
    let (next, ack) := svc.register hello now
    let (final, acks) := next.registerAll rest
    (final, ack :: acks)

end CollectorSvc

end PerfWeave
