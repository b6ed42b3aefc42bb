/-
This file settles which ids of a session's batches the collector can resolve. A session
announces one kind of text, the units of the metric events it drains, each at most once. So
over any run the ids announced so far are the hashes of the units drained so far, and a batch
is resolvable exactly when every kernel name and metric id in it is such a hash.
-/

import PerfWeave.Agent.Handover
import PerfWeave.Agent.Samplers

namespace PerfWeave

variable {Value : Type} {capacity : Nat}

/-! ### Announced and referenced ids -/

/-- The id of the unit of a metric event; none when there is no unit. -/
def Event.unitId (hash : String → UInt64) (e : Event Value) : Option UInt64 :=
  match e.payload with
  | some (.metric m) => if m.unit.isEmpty then none else some (hash m.unit)
  | _ => none

/-- The ids some events and frames refer to: the nonzero names of the events and the metrics
of the frames. -/
def referencedIds (events : List (Event Value)) (metricFrames : List (MetricFrame Value)) :
    List UInt64 :=
  (events.map Event.nameId).filter (· ≠ 0) ++
    metricFrames.flatMap fun f => f.points.map MetricPoint.metricId

/-- A batch announces an id when it carries a string with it. -/
def Batch.Announces (batch : Batch Value) (id : UInt64) : Prop :=
  ∃ string ∈ batch.strings, string.id = id

/-- Every id a batch refers to is announced by it or by a batch sent before it. -/
def EveryIdResolvable (sent : List (Batch Value)) : Prop :=
  ∀ before batch, before ++ [batch] <+: sent →
    ∀ id ∈ referencedIds batch.events batch.metricFrames,
      ∃ sender ∈ before ++ [batch], sender.Announces id

/-- Every id a flush drains is the hash of a unit that it or an earlier flush drained. -/
def EveryIdIsUnit (hash : String → UInt64) (drained : List (Drained Value)) : Prop :=
  ∀ before last, before ++ [last] <+: drained →
    ∀ id ∈ referencedIds last.events last.metricFrames,
      ∃ flush ∈ before ++ [last], ∃ e ∈ flush.events, e.unitId hash = some id

/-! ### One flush -/

@[simp]
theorem Event.corrected_unitId (hash : String → UInt64) (off : ClockOffset) (e : Event Value) :
    (e.corrected off).unitId hash = e.unitId hash := by
  rw [unitId, corrected_payload, unitId]

/-- One turn of the announcing loop records the unit of its event, when there is one. -/
theorem announce_cases (hash : String → UInt64) (announced : List StringIntern × Interner)
    (e : Event Value) :
    (e.unitId hash = none ∧ announce hash announced e = announced) ∨
      ∃ unit, e.unitId hash = some (hash unit) ∧
        announce hash announced e =
          (announced.1 ++ (announced.2.record hash unit).1.2.toList,
            (announced.2.record hash unit).2) := by
  unfold Event.unitId announce
  rcases e.payload with _ | ⟨m⟩ | _ | _ | _ | _ | _
  case some.metric =>
    by_cases empty : m.unit.isEmpty = true
    · exact .inl ⟨if_pos empty, if_pos empty⟩
    · exact .inr ⟨m.unit, if_neg empty, if_neg empty⟩
  all_goals exact .inl ⟨rfl, rfl⟩

/-- The loop leaves seen what was seen before and the units of its events. -/
theorem mem_seen_foldl_announce (hash : String → UInt64) (events : List (Event Value))
    (announced : List StringIntern × Interner) (id : UInt64) :
    id ∈ (events.foldl (announce hash) announced).2.seen ↔
      id ∈ announced.2.seen ∨ ∃ e ∈ events, e.unitId hash = some id := by
  induction events generalizing announced with
  | nil => simp
  | cons e rest inductionHypothesis =>
    rw [List.foldl_cons, inductionHypothesis]
    simp only [List.mem_cons, exists_eq_or_imp]
    rcases announce_cases hash announced e with ⟨none, next⟩ | ⟨unit, some, next⟩
    · simp only [next, none, reduceCtorEq, false_or]
    · simp only [next, some, Interner.mem_seen_record, Option.some.injEq, or_assoc]

/-- What the loop has added to the seen ids is what its strings announce. -/
theorem mem_seen_foldl_announce_iff_string (hash : String → UInt64) (known : Finset UInt64)
    (events : List (Event Value)) (announced : List StringIntern × Interner)
    (start : ∀ id, id ∈ announced.2.seen ↔ id ∈ known ∨ ∃ string ∈ announced.1, string.id = id)
    (id : UInt64) :
    id ∈ (events.foldl (announce hash) announced).2.seen ↔
      id ∈ known ∨ ∃ string ∈ (events.foldl (announce hash) announced).1, string.id = id := by
  induction events generalizing announced with
  | nil => exact start id
  | cons e rest inductionHypothesis =>
    rw [List.foldl_cons]
    refine inductionHypothesis _ fun other => ?_
    rcases announce_cases hash announced e with ⟨_, next⟩ | ⟨unit, _, next⟩
    · rw [next]
      exact start other
    · simp only [next, List.mem_append, or_and_right, exists_or, Interner.mem_seen_record,
        Interner.record_announces_iff]
      rw [← or_assoc, ← start other]
      by_cases seen : other ∈ announced.2.seen
      · simp only [seen, true_or]
      · simp only [seen, false_or, not_false_eq_true, and_true]

theorem referencedIds_corrected (off : ClockOffset) (events : List (Event Value))
    (metricFrames : List (MetricFrame Value)) :
    referencedIds (events.map (Event.corrected off)) metricFrames =
      referencedIds events metricFrames := by
  unfold referencedIds
  rw [List.map_map]
  exact congrArg (fun names => names.filter (· ≠ 0) ++ _)
    (List.map_congr_left fun e _ => Event.corrected_nameId off e)

/-- The batch of a flush refers to what was drained, and with the interner after it announces
the units drained. -/
theorem buildBatch_spec (hash : String → UInt64) (cfg : UploaderConfig) (off : ClockOffset)
    (interner : Interner) (events : List (Event Value))
    (metricFrames : List (MetricFrame Value)) :
    let built := buildBatch hash cfg off interner events metricFrames
    referencedIds built.1.events built.1.metricFrames = referencedIds events metricFrames ∧
      (∀ id, id ∈ built.2.seen ↔ id ∈ interner.seen ∨ built.1.Announces id) ∧
      ∀ id, id ∈ built.2.seen ↔
        id ∈ interner.seen ∨ ∃ e ∈ events, e.unitId hash = some id := by
  refine ⟨referencedIds_corrected off events metricFrames, fun id => ?_, fun id => ?_⟩
  · exact mem_seen_foldl_announce_iff_string hash interner.seen (events.map (Event.corrected off))
      ([], interner) (fun other => by simp) id
  · refine (mem_seen_foldl_announce hash (events.map (Event.corrected off)) ([], interner)
      id).trans ?_
    simp only [List.mem_map, exists_exists_and_eq_and, Event.corrected_unitId]

/-! ### A run -/

/-- The invariant of a session against the ring's own run: the ring is the same, and the seen
ids are those the sent batches announce and those of the drained units. -/
structure Session.Follows (hash : String → UInt64) (handover : Handover Value capacity)
    (state : Session Value capacity) : Prop where
  ring : state.ring = handover.ring
  announced : ∀ id, id ∈ state.interner.seen ↔ ∃ batch ∈ state.sent, batch.Announces id
  units : ∀ id, id ∈ state.interner.seen ↔
    ∃ flush ∈ handover.drained, ∃ e ∈ flush.events, e.unitId hash = some id

theorem exists_mem_concat_iff {Item : Type} {property : Item → Prop} (items : List Item)
    (item : Item) :
    (∃ x ∈ items ++ [item], property x) ↔ (∃ x ∈ items, property x) ∨ property item := by
  simp only [List.mem_append, List.mem_singleton, or_and_right, exists_or, exists_eq_left]

theorem Session.Follows.step {hash : String → UInt64} {handover : Handover Value capacity}
    {state : Session Value capacity} (follows : state.Follows hash handover)
    (cfg : UploaderConfig) (input : SessionInput Value) :
    (state.step hash cfg input).Follows hash (handover.step cfg input) := by
  obtain ⟨ring, ⟨sent, interner, drained⟩ | ⟨flush, sent, interner, drained⟩⟩ :=
    Session.step_cases hash cfg follows.ring input
  · refine ⟨ring, fun id => ?_, fun id => ?_⟩
    · rw [sent, interner]
      exact follows.announced id
    · rw [interner, drained]
      exact follows.units id
  · obtain ⟨_, announces, units⟩ := buildBatch_spec hash cfg state.offsets state.interner
      flush.events flush.metricFrames
    refine ⟨ring, fun id => ?_, fun id => ?_⟩
    · rw [sent, interner, exists_mem_concat_iff, ← follows.announced id]
      exact announces id
    · rw [interner, drained, exists_mem_concat_iff, ← follows.units id]
      exact units id

theorem start_follows (hash : String → UInt64) (ring : EventRing Value capacity)
    (offsets : ClockOffset) :
    (Session.start ring offsets).Follows hash (⟨ring, []⟩ : Handover Value capacity) :=
  ⟨rfl, fun id => by simp [Session.start, Interner.new],
    fun id => by simp [Session.start, Interner.new]⟩

theorem sessionRun_follows (hash : String → UInt64) (cfg : UploaderConfig)
    (ring : EventRing Value capacity) (offsets : ClockOffset)
    (inputs : List (SessionInput Value)) :
    (sessionRun hash cfg ring offsets inputs).Follows hash (drainedBy cfg ring inputs) :=
  run_simulation (start_follows hash ring offsets)
    (fun _ _ input follows => follows.step cfg input) inputs

theorem Session.Follows.step_resolvable {hash : String → UInt64}
    {handover : Handover Value capacity} {state : Session Value capacity}
    (follows : state.Follows hash handover)
    (same : EveryIdResolvable state.sent ↔ EveryIdIsUnit hash handover.drained)
    (cfg : UploaderConfig) (input : SessionInput Value) :
    EveryIdResolvable (state.step hash cfg input).sent ↔
      EveryIdIsUnit hash (handover.step cfg input).drained := by
  have after := follows.step cfg input
  rcases (Session.step_cases hash cfg follows.ring input).2 with
    ⟨sent, _, drained⟩ | ⟨flush, sent, _, drained⟩
  · rw [sent, drained]
    exact same
  · have refers := (buildBatch_spec hash cfg state.offsets state.interner flush.events
      flush.metricFrames).1
    rw [EveryIdResolvable, EveryIdIsUnit, sent, drained,
      forall_step_concat_iff, forall_step_concat_iff, refers]
    refine and_congr same (forall₂_congr fun id _ => ?_)
    rw [← sent, ← drained, ← after.announced, ← after.units]

/-- A session sends only resolvable ids exactly when every id it drains is the hash of a unit
it has drained by then. -/
theorem everyIdResolvable_iff (hash : String → UInt64) (cfg : UploaderConfig)
    (ring : EventRing Value capacity) (offsets : ClockOffset)
    (inputs : List (SessionInput Value)) :
    EveryIdResolvable (sessionRun hash cfg ring offsets inputs).sent ↔
      EveryIdIsUnit hash (drainedBy cfg ring inputs).drained := by
  have nothingSent : EveryIdResolvable (Session.start ring offsets).sent ↔
      EveryIdIsUnit hash ([] : List (Drained Value)) := by
    refine ⟨fun _ before batch isPrefix => ?_, fun _ before last isPrefix => ?_⟩
    · exact absurd (List.prefix_nil.mp isPrefix) (by simp)
    · exact absurd (List.prefix_nil.mp isPrefix) (by simp)
  have both := run_simulation
    (motive := fun (state : Session Value capacity) (handover : Handover Value capacity) =>
      state.Follows hash handover ∧
        (EveryIdResolvable state.sent ↔ EveryIdIsUnit hash handover.drained))
    ⟨start_follows hash ring offsets, nothingSent⟩
    (fun _ _ input holds => ⟨holds.1.step cfg input, holds.1.step_resolvable holds.2 cfg input⟩)
    inputs
  exact both.2

/-! ### The samplers of the repository -/

/-- An event without a metric has no unit. -/
theorem Event.StampedActivity.unitId_eq_none {nodeId : UInt32} {e : Event Value}
    (stamped : e.StampedActivity nodeId) (hash : String → UInt64) : e.unitId hash = none := by
  unfold Event.unitId
  split
  · rename_i payload
    exact absurd payload (stamped.2 _)
  · rfl

/-- An agent whose pushes all come from its own samplers, the CUPTI receiver apart, announces
nothing: its batches are resolvable only when they refer to nothing. -/
theorem everyIdResolvable_iff_of_stamped (hash : String → UInt64) (agent : AgentConfig)
    (host : Host) (offsets : ClockOffset) (inputs : List (SessionInput Value))
    (emitted : ∀ input ∈ inputs, input.EmittedBy hash (agent.stampingSamplers host)) :
    EveryIdResolvable (sessionRun hash (agent.uploader host)
        (.new : EventRing Value agent.ringCapacity) offsets inputs).sent ↔
      ∀ batch ∈ (sessionRun hash (agent.uploader host)
          (.new : EventRing Value agent.ringCapacity) offsets inputs).sent,
        referencedIds batch.events batch.metricFrames = [] := by
  have handed := (drainedBy_all (agent.uploader host)
    (.new : EventRing Value agent.ringCapacity) EventRing.all_new inputs
    fun input member => (emitted input member).stamped).2
  have follows := sessionRun_follows hash (agent.uploader host)
    (.new : EventRing Value agent.ringCapacity) offsets inputs
  constructor
  · intro resolvable batch member
    obtain ⟨before, after, sent⟩ := List.append_of_mem member
    refine List.eq_nil_iff_forall_not_mem.mpr fun id refers => ?_
    have isPrefix : before ++ [batch] <+: (sessionRun hash (agent.uploader host)
        (.new : EventRing Value agent.ringCapacity) offsets inputs).sent :=
      ⟨after, by rw [sent, List.append_assoc, List.singleton_append]⟩
    obtain ⟨sender, senderMember, announces⟩ := resolvable before batch isPrefix id refers
    have seen := (follows.announced id).mpr ⟨sender, isPrefix.subset senderMember, announces⟩
    obtain ⟨flush, flushMember, e, eMember, unit⟩ := (follows.units id).mp seen
    have noUnit := ((handed flush flushMember).events e eMember).unitId_eq_none hash
    exact absurd (noUnit.symm.trans unit) nofun
  · intro nothing before batch isPrefix id refers
    rw [nothing batch (isPrefix.subset (List.mem_append_right _ (List.mem_singleton_self batch)))]
      at refers
    exact absurd refers List.not_mem_nil

/-- Whatever the hash, the metric ids of that frame are never announced. -/
theorem synthetic_frame_unresolvable :
    ¬ ∃ hash : String → UInt64, EveryIdResolvable
      (sessionRun hash (AgentConfig.syntheticDefault.uploader plainHost)
        (.new : EventRing Nat AgentConfig.syntheticDefault.ringCapacity) .identity
        (syntheticFrameInputs hash 0)).sent := by
  rintro ⟨hash, resolvable⟩
  have nothing := (everyIdResolvable_iff_of_stamped hash .syntheticDefault plainHost .identity
    (syntheticFrameInputs hash 0) (syntheticFrameInputs_emitted hash 0)).mp resolvable _
      List.mem_cons_self
  exact absurd nothing (List.cons_ne_nil _ _)

end PerfWeave
