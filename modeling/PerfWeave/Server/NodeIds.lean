/-
This file settles when registration hands out unique node ids. The ids given to the agents
that asked for 0 are the values of the counter, so a sequence of registrations gives, up to
order, the first values of the counter and the ids asked for. They are distinct and nonzero
exactly when the counter has not wrapped and has not reached an id some agent asked for.
-/

import PerfWeave.Server.Register

namespace PerfWeave

/-! ### The ids a sequence hands out -/

/-- How many agents leave their id to the server. -/
def unassignedCount (calls : List (AgentHello × UInt64)) : Nat :=
  calls.countP fun call => call.1.nodeId = 0

/-- The ids the other agents ask for, in order. -/
def requestedIds (calls : List (AgentHello × UInt64)) : List UInt32 :=
  (calls.map fun call => call.1.nodeId).filter fun nodeId => nodeId ≠ 0

/-- The ids an answered sequence of registrations handed out. -/
def CollectorSvc.assignedIds (svc : CollectorSvc) (calls : List (AgentHello × UInt64)) :
    List UInt32 :=
  (svc.registerAll calls).2.map RegisterAck.assignedNodeId

/-- The first values of the counter. -/
def counterValues (first : UInt32) (count : Nat) : List UInt32 :=
  (List.range count).map fun turn => first + UInt32.ofNat turn

theorem counterValues_succ (first : UInt32) (count : Nat) :
    counterValues first (count + 1) = first :: counterValues (first + 1) count := by
  unfold counterValues
  rw [List.range_succ_eq_map, List.map_cons, List.map_map]
  refine congrArg₂ List.cons (UInt32.add_zero first) (List.map_congr_left fun turn _ => ?_)
  show first + UInt32.ofNat (turn + 1) = first + 1 + UInt32.ofNat turn
  rw [UInt32.ofNat_add, UInt32.add_comm (UInt32.ofNat turn), ← UInt32.add_assoc]
  rfl

/-- The ids handed out are the values of the counter and the ids asked for. -/
theorem assignedIds_perm (svc : CollectorSvc) (calls : List (AgentHello × UInt64)) :
    (svc.assignedIds calls).Perm
      (counterValues svc.nextNodeId (unassignedCount calls) ++ requestedIds calls) := by
  induction calls generalizing svc with
  | nil => exact List.Perm.nil
  | cons call rest inductionHypothesis =>
    obtain ⟨hello, now⟩ := call
    have later := inductionHypothesis (svc.register hello now).1
    show (svc.assigned hello :: (svc.register hello now).1.assignedIds rest).Perm _
    by_cases unassigned : hello.nodeId = 0
    · have count : unassignedCount ((hello, now) :: rest) = unassignedCount rest + 1 :=
        List.countP_cons_of_pos (decide_eq_true unassigned)
      have requested : requestedIds ((hello, now) :: rest) = requestedIds rest :=
        List.filter_cons_of_neg (by simpa using unassigned)
      rw [count, requested, counterValues_succ, List.cons_append, CollectorSvc.assigned,
        if_pos unassigned]
      have counter : (svc.register hello now).1.nextNodeId = svc.nextNodeId + 1 :=
        if_pos unassigned
      rw [counter] at later
      exact List.Perm.cons _ later
    · have count : unassignedCount ((hello, now) :: rest) = unassignedCount rest :=
        List.countP_cons_of_neg (by simpa using unassigned)
      have requested : requestedIds ((hello, now) :: rest) = hello.nodeId :: requestedIds rest :=
        List.filter_cons_of_pos (by simpa using unassigned)
      rw [count, requested, CollectorSvc.assigned, if_neg unassigned]
      have counter : (svc.register hello now).1.nextNodeId = svc.nextNodeId := if_neg unassigned
      rw [counter] at later
      exact (List.Perm.cons _ later).trans List.perm_middle.symm

/-! ### The counter -/

theorem toNat_counterValue {count turn : Nat} (small : count < 2 ^ 32) (earlier : turn < count) :
    (1 + UInt32.ofNat turn).toNat = 1 + turn := by
  rw [UInt32.toNat_add, UInt32.toNat_one, UInt32.toNat_ofNat',
    Nat.mod_eq_of_lt (by omega : turn < 2 ^ 32)]
  exact Nat.mod_eq_of_lt (by omega)

/-- Until it wraps the counter hands out the ids from one on. -/
theorem mem_counterValues_one {count : Nat} (small : count < 2 ^ 32) (nodeId : UInt32) :
    nodeId ∈ counterValues 1 count ↔ nodeId ≠ 0 ∧ nodeId.toNat ≤ count := by
  unfold counterValues
  rw [List.mem_map]
  constructor
  · rintro ⟨turn, member, rfl⟩
    have earlier := List.mem_range.mp member
    have value := toNat_counterValue small earlier
    refine ⟨fun zero => ?_, by omega⟩
    rw [zero, UInt32.toNat_zero] at value
    omega
  · rintro ⟨nonzero, bound⟩
    have positive : nodeId.toNat ≠ 0 := fun zero => nonzero (UInt32.toNat_inj.mp zero)
    have earlier : nodeId.toNat - 1 < count := by omega
    refine ⟨nodeId.toNat - 1, List.mem_range.mpr earlier, ?_⟩
    rw [← UInt32.toNat_inj, toNat_counterValue small earlier]
    omega

theorem counterValues_one_nodup {count : Nat} (small : count < 2 ^ 32) :
    (counterValues 1 count).Nodup := by
  refine List.Nodup.map_on ?_ List.nodup_range
  intro first firstMember second secondMember same
  have values := congrArg UInt32.toNat same
  rw [toNat_counterValue small (List.mem_range.mp firstMember),
    toNat_counterValue small (List.mem_range.mp secondMember)] at values
  omega

/-- A counter that has wrapped has handed out zero. -/
theorem zero_mem_counterValues_one {count : Nat} (large : 2 ^ 32 ≤ count) :
    0 ∈ counterValues 1 count :=
  List.mem_map.mpr ⟨2 ^ 32 - 1, List.mem_range.mpr (by omega), by decide⟩

/-! ### Unique ids -/

/-- A sequence of registrations with a fresh server gives distinct nonzero ids exactly when
the counter has not wrapped and every id an agent asked for is beyond it. -/
theorem assignedIds_nodup_iff (calls : List (AgentHello × UInt64))
    (distinct : (requestedIds calls).Nodup) :
    (0 ∉ CollectorSvc.new.assignedIds calls ∧ (CollectorSvc.new.assignedIds calls).Nodup) ↔
      unassignedCount calls < 2 ^ 32 ∧
        ∀ nodeId ∈ requestedIds calls, unassignedCount calls < nodeId.toNat := by
  have ids := assignedIds_perm CollectorSvc.new calls
  have requestedNonzero : ∀ nodeId ∈ requestedIds calls, nodeId ≠ 0 := fun nodeId member =>
    of_decide_eq_true (List.mem_filter.mp member).2
  rw [ids.mem_iff, ids.nodup_iff, List.nodup_append, List.mem_append, not_or]
  show (0 ∉ counterValues 1 _ ∧ _) ∧ (counterValues 1 _).Nodup ∧ _ ↔ _
  constructor
  · rintro ⟨⟨noZero, _⟩, _, _, disjoint⟩
    have small : unassignedCount calls < 2 ^ 32 := by
      by_contra large
      exact noZero (zero_mem_counterValues_one (Nat.not_lt.mp large))
    refine ⟨small, fun nodeId member => ?_⟩
    by_contra reached
    have counted : nodeId ∈ counterValues 1 (unassignedCount calls) :=
      (mem_counterValues_one small nodeId).mpr
        ⟨requestedNonzero nodeId member, Nat.not_lt.mp reached⟩
    exact disjoint nodeId counted nodeId member rfl
  · rintro ⟨small, beyond⟩
    refine ⟨⟨fun zero => ((mem_counterValues_one small 0).mp zero).1 rfl,
      fun zero => requestedNonzero 0 zero rfl⟩, counterValues_one_nodup small, distinct, ?_⟩
    rintro counted countedMember requested requestedMember rfl
    have reached := ((mem_counterValues_one small counted).mp countedMember).2
    have bound := beyond counted requestedMember
    omega

/-! ### The registry -/

/-- Registrations leave the entry of an id they do not hand out. -/
theorem get_registerAll_of_not_mem (svc : CollectorSvc) (calls : List (AgentHello × UInt64))
    {nodeId : UInt32} (fresh : nodeId ∉ svc.assignedIds calls) :
    (svc.registerAll calls).1.agents.get nodeId = svc.agents.get nodeId := by
  induction calls generalizing svc with
  | nil => rfl
  | cons call rest inductionHypothesis =>
    obtain ⟨hello, now⟩ := call
    obtain ⟨differs, later⟩ := not_or.mp (List.mem_cons.not.mp fresh)
    exact (inductionHypothesis (svc.register hello now).1 later).trans
      (AgentRegistry.get_register_of_ne svc.agents differs hello)

/-- When the ids are distinct the registry finds every agent under its own. -/
theorem get_registerAll_of_nodup (svc : CollectorSvc) (calls : List (AgentHello × UInt64))
    (nodup : (svc.assignedIds calls).Nodup) :
    ∀ answered ∈ calls.zip (svc.registerAll calls).2,
      (svc.registerAll calls).1.agents.get answered.2.assignedNodeId =
        some (.ofHello answered.2.assignedNodeId answered.1.1) := by
  induction calls generalizing svc with
  | nil => exact fun _ member => absurd member List.not_mem_nil
  | cons call rest inductionHypothesis =>
    obtain ⟨hello, now⟩ := call
    obtain ⟨fresh, restNodup⟩ := List.nodup_cons.mp nodup
    intro answered member
    rcases List.mem_cons.mp member with rfl | later
    · exact (get_registerAll_of_not_mem (svc.register hello now).1 rest fresh).trans
        (AgentRegistry.get_register_self svc.agents _ hello)
    · exact inductionHypothesis (svc.register hello now).1 restNodup answered later

/-- After a sequence of registrations the ids handed out are nonzero and distinct, and the
registry finds under each the agent it was given to. -/
structure CollectorSvc.RegistersUniquely (svc : CollectorSvc)
    (calls : List (AgentHello × UInt64)) : Prop where
  nonzero : 0 ∉ svc.assignedIds calls
  nodup : (svc.assignedIds calls).Nodup
  found : ∀ answered ∈ calls.zip (svc.registerAll calls).2,
    (svc.registerAll calls).1.agents.get answered.2.assignedNodeId =
      some (.ofHello answered.2.assignedNodeId answered.1.1)

/-- Agents that ask for distinct ids, or for none, are registered uniquely exactly when fewer
than `2 ^ 32` ask for none and every id asked for is larger than their number. -/
theorem registersUniquely_iff (calls : List (AgentHello × UInt64))
    (distinct : (requestedIds calls).Nodup) :
    CollectorSvc.new.RegistersUniquely calls ↔
      unassignedCount calls < 2 ^ 32 ∧
        ∀ nodeId ∈ requestedIds calls, unassignedCount calls < nodeId.toNat := by
  rw [← assignedIds_nodup_iff calls distinct]
  exact ⟨fun unique => ⟨unique.nonzero, unique.nodup⟩, fun ⟨nonzero, nodup⟩ =>
    ⟨nonzero, nodup, get_registerAll_of_nodup CollectorSvc.new calls nodup⟩⟩

/-- An agent that asks for id 1, then one that asks for none. -/
def explicitThenUnassigned : List (AgentHello × UInt64) :=
  [(⟨1, "gpu-a", "0.1.0", 8, "http://10.0.0.1:7780"⟩, 1000),
    (⟨0, "gpu-b", "0.1.0", 8, "http://10.0.0.2:7780"⟩, 2000)]

/-- An agent that asks for id 7, then one that asks for none. -/
def explicitBeyondCounter : List (AgentHello × UInt64) :=
  [(⟨7, "gpu-a", "0.1.0", 8, "http://10.0.0.1:7780"⟩, 1000),
    (⟨0, "gpu-b", "0.1.0", 8, ""⟩, 2000)]

theorem explicitBeyondCounter_registersUniquely :
    CollectorSvc.new.RegistersUniquely explicitBeyondCounter := by
  have one : unassignedCount explicitBeyondCounter = 1 := rfl
  have seven : requestedIds explicitBeyondCounter = [7] := rfl
  refine (registersUniquely_iff explicitBeyondCounter (by decide)).mpr ?_
  rw [one, seven]
  exact ⟨by norm_num, List.forall_mem_singleton.mpr (by decide)⟩

/-- Both agents are given id 1, and the registry forgets the first. -/
theorem explicitThenUnassigned_not_registersUniquely :
    (requestedIds explicitThenUnassigned).Nodup ∧
      ¬ CollectorSvc.new.RegistersUniquely explicitThenUnassigned ∧
      (CollectorSvc.new.registerAll explicitThenUnassigned).1.agents.get 1 =
        some ⟨1, "gpu-b", some "http://10.0.0.2:7780"⟩ := by
  refine ⟨by decide, fun unique => ?_, rfl⟩
  exact absurd unique.nodup (by decide)

end PerfWeave
