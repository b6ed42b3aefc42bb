/-
This file follows the strings a session announces to the sink. The session announces a text
when it first drains it as a unit and never again on the connection, and the sink takes a batch
as a whole or not at all. So a text survives back-pressure unless the batch that announces it
is refused, and the loss shows as soon as a later batch is taken.
-/

import PerfWeave.Agent.Announcing
import PerfWeave.Server.IngestStream

namespace PerfWeave

variable {Value : Type} {capacity : Nat}

/-! ### What a flush announces -/

/-- A flush brings a unit that no earlier one of the connection had. -/
def BringsNewUnit (hash : String → UInt64) (earlier : List (Drained Value))
    (flush : Drained Value) : Prop :=
  ∃ id, (∃ e ∈ flush.events, e.unitId hash = some id) ∧
    ¬ ∃ before ∈ earlier, ∃ e ∈ before.events, e.unitId hash = some id

/-- A turn of the announcing loop adds only strings with ids that were not seen. -/
theorem announced_id_fresh (hash : String → UInt64) (events : List (Event Value))
    (announced : List StringIntern × Interner) {string : StringIntern}
    (member : string ∈ (events.foldl (announce hash) announced).1) :
    string ∈ announced.1 ∨ string.id ∉ announced.2.seen := by
  induction events generalizing announced with
  | nil => exact .inl member
  | cons e rest inductionHypothesis =>
    rw [List.foldl_cons] at member
    rcases announce_cases hash announced e with ⟨_, next⟩ | ⟨unit, _, next⟩
    · rw [next] at member
      exact inductionHypothesis announced member
    · rw [next] at member
      rcases inductionHypothesis _ member with here | fresh
      · rcases List.mem_append.mp here with before | now
        · exact .inl before
        · have announces := (announced.2.record_announces_iff hash unit string.id).mp
            ⟨string, now, rfl⟩
          exact .inr announces.2
      · refine .inr fun seen => fresh ?_
        rw [Interner.mem_seen_record]
        exact .inl seen

/-- The strings of a batch have ids the session had not announced before. -/
theorem buildBatch_strings_fresh (hash : String → UInt64) (cfg : UploaderConfig)
    (off : ClockOffset) (interner : Interner) (events : List (Event Value))
    (metricFrames : List (MetricFrame Value)) :
    ∀ string ∈ (buildBatch hash cfg off interner events metricFrames).1.strings,
      string.id ∉ interner.seen := by
  intro string member
  rcases announced_id_fresh hash (events.map (Event.corrected off)) ([], interner) member with
    none | fresh
  · exact absurd none List.not_mem_nil
  · exact fresh

/-- A batch carries strings exactly when its flush has a unit whose id is not seen. -/
theorem buildBatch_strings_nonempty_iff (hash : String → UInt64) (cfg : UploaderConfig)
    (off : ClockOffset) (interner : Interner) (flush : Drained Value) :
    (buildBatch hash cfg off interner flush.events flush.metricFrames).1.strings ≠ [] ↔
      ∃ id, (∃ e ∈ flush.events, e.unitId hash = some id) ∧ id ∉ interner.seen := by
  obtain ⟨_, announces, units⟩ :=
    buildBatch_spec hash cfg off interner flush.events flush.metricFrames
  have fresh := buildBatch_strings_fresh hash cfg off interner flush.events flush.metricFrames
  constructor
  · intro nonempty
    obtain ⟨string, member⟩ := List.exists_mem_of_ne_nil _ nonempty
    have seen := (announces string.id).mpr (.inr ⟨string, member, rfl⟩)
    refine ⟨string.id, ?_, fresh string member⟩
    exact ((units string.id).mp seen).resolve_left (fresh string member)
  · rintro ⟨id, unit, unseen⟩
    have seen := (units id).mpr (.inr unit)
    obtain ⟨string, member, _⟩ := ((announces id).mp seen).resolve_left unseen
    exact List.ne_nil_of_mem member

/-! ### What a session announces -/

/-- The batches of a session against what it drained: there is one for each flush, it carries
strings exactly when the flush brings a new unit, and no string is carried twice. -/
structure AnnouncesOnce (hash : String → UInt64) (drained : List (Drained Value))
    (sent : List (Batch Value)) : Prop where
  length : sent.length = drained.length
  carries : ∀ index flush batch, drained[index]? = some flush → sent[index]? = some batch →
    (batch.strings ≠ [] ↔ BringsNewUnit hash (drained.take index) flush)
  once : sent.Pairwise fun first second => ∀ string ∈ first.strings, string ∉ second.strings

theorem AnnouncesOnce.concat {hash : String → UInt64} {drained : List (Drained Value)}
    {sent : List (Batch Value)} (announces : AnnouncesOnce hash drained sent)
    {flush : Drained Value} {batch : Batch Value}
    (carries : batch.strings ≠ [] ↔ BringsNewUnit hash drained flush)
    (fresh : ∀ first ∈ sent, ∀ string ∈ first.strings, string ∉ batch.strings) :
    AnnouncesOnce hash (drained ++ [flush]) (sent ++ [batch]) := by
  have length := announces.length
  refine ⟨by rw [List.length_append, List.length_append, length]; rfl, ?_, ?_⟩
  · intro index other otherBatch isFlush isBatch
    rw [List.getElem?_append] at isFlush isBatch
    by_cases before : index < drained.length
    · rw [if_pos before] at isFlush
      rw [if_pos (length ▸ before)] at isBatch
      rw [List.take_append_of_le_length before.le]
      exact announces.carries index other otherBatch isFlush isBatch
    · rw [if_neg before] at isFlush
      rw [if_neg (length ▸ before), length] at isBatch
      rw [List.getElem?_singleton] at isFlush isBatch
      by_cases last : index - drained.length = 0
      · rw [if_pos last, Option.some.injEq] at isFlush isBatch
        have index_eq : index = drained.length := by omega
        rw [← isFlush, ← isBatch, index_eq, List.take_left]
        exact carries
      · rw [if_neg last] at isFlush
        exact absurd isFlush nofun
  · rw [List.pairwise_append]
    refine ⟨announces.once, List.pairwise_singleton _ _, fun first member second isLast => ?_⟩
    rw [List.mem_singleton.mp isLast]
    exact fresh first member

theorem AnnouncesOnce.step {hash : String → UInt64} {handover : Handover Value capacity}
    {state : Session Value capacity} (follows : state.Follows hash handover)
    (announces : AnnouncesOnce hash handover.drained state.sent) (cfg : UploaderConfig)
    (input : SessionInput Value) :
    AnnouncesOnce hash (handover.step cfg input).drained (state.step hash cfg input).sent := by
  rcases (Session.step_cases hash cfg follows.ring input).2 with
    ⟨sent, _, drained⟩ | ⟨flush, sent, _, drained⟩
  · rw [sent, drained]
    exact announces
  · rw [sent, drained]
    refine announces.concat ?_ fun first member string announced again => ?_
    · rw [buildBatch_strings_nonempty_iff]
      simp only [follows.units, BringsNewUnit]
    · refine buildBatch_strings_fresh hash cfg state.offsets state.interner flush.events
        flush.metricFrames string again ?_
      exact (follows.announced string.id).mpr ⟨first, member, string, announced, rfl⟩

/-- Over any run a session announces every new unit once. -/
theorem sessionRun_announcesOnce (hash : String → UInt64) (cfg : UploaderConfig)
    (ring : EventRing Value capacity) (offsets : ClockOffset)
    (inputs : List (SessionInput Value)) :
    AnnouncesOnce hash (drainedBy cfg ring inputs).drained
      (sessionRun hash cfg ring offsets inputs).sent := by
  have nothing : AnnouncesOnce hash ([] : List (Drained Value)) [] :=
    ⟨rfl, fun _ _ _ none => absurd none nofun, List.Pairwise.nil⟩
  exact (run_simulation
    (motive := fun (state : Session Value capacity) (handover : Handover Value capacity) =>
      state.Follows hash handover ∧ AnnouncesOnce hash handover.drained state.sent)
    ⟨start_follows hash ring offsets, nothing⟩
    (fun _ _ input both => ⟨both.1.step cfg input, both.2.step both.1 cfg input⟩) inputs).2

theorem AnnouncesOnce.exists_batch {hash : String → UInt64} {drained : List (Drained Value)}
    {sent : List (Batch Value)} (announces : AnnouncesOnce hash drained sent) {index : Nat}
    (bound : index < drained.length) : ∃ batch, sent[index]? = some batch :=
  ⟨_, List.getElem?_eq_getElem (announces.length.symm ▸ bound)⟩

theorem AnnouncesOnce.exists_flush {hash : String → UInt64} {drained : List (Drained Value)}
    {sent : List (Batch Value)} (announces : AnnouncesOnce hash drained sent) {index : Nat}
    {batch : Batch Value} (isBatch : sent[index]? = some batch) :
    ∃ flush, drained[index]? = some flush :=
  ⟨_, List.getElem?_eq_getElem
    (announces.length ▸ (List.getElem?_eq_some_iff.mp isBatch).1)⟩

/-- A string stands in one batch of a session only. -/
theorem AnnouncesOnce.index_unique {hash : String → UInt64} {drained : List (Drained Value)}
    {sent : List (Batch Value)} (announces : AnnouncesOnce hash drained sent)
    {first second : Nat} {firstBatch secondBatch : Batch Value} {string : StringIntern}
    (isFirst : sent[first]? = some firstBatch) (isSecond : sent[second]? = some secondBatch)
    (inFirst : string ∈ firstBatch.strings) (inSecond : string ∈ secondBatch.strings) :
    first = second := by
  have apart := List.pairwise_iff_getElem.mp announces.once
  obtain ⟨firstLt, rfl⟩ := List.getElem?_eq_some_iff.mp isFirst
  obtain ⟨secondLt, rfl⟩ := List.getElem?_eq_some_iff.mp isSecond
  rcases Nat.lt_trichotomy first second with before | same | after
  · exact absurd inSecond (apart first second firstLt secondLt before string inFirst)
  · exact same
  · exact absurd inFirst (apart second first secondLt firstLt after string inSecond)

/-! ### What the sink takes -/

/-- Once the sink has taken a batch, it has the strings of that batch and of every batch before
it. -/
def StringsSurvive [Zero Value] (stream : IngestStream Value)
    (arrived : List (Arrival Value)) : Prop :=
  ∀ (first second : Nat) (announcing later : Arrival Value), first ≤ second →
    arrived[first]? = some announcing → arrived[second]? = some later →
      later.outcome = .accepted → ∀ string ∈ announcing.batch.strings,
        ∃ b ∈ (run IngestStream.step stream arrived).taken, string ∈ b.strings

/-- No batch is taken after one that was refused although its flush brought a new unit. -/
def NothingTakenAfterLoss (hash : String → UInt64) (drained : List (Drained Value))
    (reactions : List SinkReaction) : Prop :=
  ∀ (first second : Nat) (flush : Drained Value) (refusal later : SinkReaction),
    first < second → second < drained.length → drained[first]? = some flush →
      BringsNewUnit hash (drained.take first) flush → reactions[first]? = some refusal →
        refusal.outcome = .full → reactions[second]? = some later → later.outcome ≠ .accepted

/-- A string the sink has taken stands in an accepted batch. -/
theorem mem_taken_arrivals [Zero Value] {skew : SkewTable} {fast : FastRing Value}
    {arrived : List (Arrival Value)} {string : StringIntern} :
    (∃ b ∈ (run IngestStream.step (.start skew fast) arrived).taken, string ∈ b.strings) ↔
      ∃ arrival ∈ arrived, arrival.outcome = .accepted ∧ string ∈ arrival.batch.strings := by
  rw [IngestStream.mem_taken_strings_iff, or_iff_right]
  rintro ⟨b, member, _⟩
  exact absurd member List.not_mem_nil

/-- Where strings survive, nothing is taken after a loss: a new unit is announced by its batch
and by no other. -/
theorem AnnouncesOnce.nothingTakenAfterLoss [Zero Value] {hash : String → UInt64}
    {drained : List (Drained Value)} {sent : List (Batch Value)}
    (announces : AnnouncesOnce hash drained sent) {skew : SkewTable} {fast : FastRing Value}
    {reactions : List SinkReaction}
    (survive : StringsSurvive (.start skew fast) (arrivals sent reactions)) :
    NothingTakenAfterLoss hash drained reactions := by
  unfold StringsSurvive at survive
  simp only [mem_taken_arrivals] at survive
  intro first second flush refusal later before bound isFlush brings isRefusal full
    isLater accepted
  obtain ⟨firstBatch, isBatch⟩ := announces.exists_batch (before.trans bound)
  obtain ⟨secondBatch, isSecond⟩ := announces.exists_batch bound
  have nonempty := (announces.carries first flush firstBatch isFlush isBatch).mpr brings
  obtain ⟨string, member⟩ := List.exists_mem_of_ne_nil _ nonempty
  obtain ⟨arrival, arrived, wasAccepted, carried⟩ := survive first second _ _ before.le
    (arrivals_getElem?_eq_some_iff.mpr ⟨_, _, isBatch, isRefusal, rfl⟩)
    (arrivals_getElem?_eq_some_iff.mpr ⟨_, _, isSecond, isLater, rfl⟩) accepted string member
  obtain ⟨index, isArrival⟩ := List.mem_iff_getElem?.mp arrived
  obtain ⟨batch, reaction, isSent, isReaction, rfl⟩ :=
    arrivals_getElem?_eq_some_iff.mp isArrival
  have same := announces.index_unique isBatch isSent member carried
  rw [← same, isRefusal, Option.some.injEq] at isReaction
  rw [← isReaction, full] at wasAccepted
  exact absurd wasAccepted nofun

/-- Where nothing is taken after a loss, strings survive: a batch with strings brings a new unit,
so it was taken or nothing was after it. -/
theorem AnnouncesOnce.stringsSurvive [Zero Value] {hash : String → UInt64}
    {drained : List (Drained Value)} {sent : List (Batch Value)}
    (announces : AnnouncesOnce hash drained sent) (skew : SkewTable) (fast : FastRing Value)
    {reactions : List SinkReaction} (clean : NothingTakenAfterLoss hash drained reactions) :
    StringsSurvive (.start skew fast) (arrivals sent reactions) := by
  unfold StringsSurvive
  simp only [mem_taken_arrivals]
  intro first second announcing later order isFirst isSecond accepted string member
  by_cases taken : announcing.outcome = .accepted
  · exact ⟨announcing, List.mem_of_getElem? isFirst, taken, member⟩
  · obtain ⟨batch, refusal, isBatch, isRefusal, rfl⟩ :=
      arrivals_getElem?_eq_some_iff.mp isFirst
    obtain ⟨laterBatch, reaction, isLater, isReaction, rfl⟩ :=
      arrivals_getElem?_eq_some_iff.mp isSecond
    have full : refusal.outcome = .full := by
      cases outcome : refusal.outcome with
      | accepted => exact absurd outcome taken
      | full => rfl
    have before : first < second := by
      refine lt_of_le_of_ne order ?_
      rintro rfl
      rw [isRefusal, Option.some.injEq] at isReaction
      exact taken (isReaction ▸ accepted)
    obtain ⟨flush, isFlush⟩ := announces.exists_flush isBatch
    have bound : second < drained.length :=
      announces.length ▸ (List.getElem?_eq_some_iff.mp isLater).1
    have brings := (announces.carries first flush batch isFlush isBatch).mp
      (List.ne_nil_of_mem member)
    exact absurd accepted
      (clean first second flush refusal reaction before bound isFlush brings isRefusal full
        isReaction)

/-- Over any run of a session and any answers of the sink, every announced string survives
exactly when nothing is taken after the loss of a new unit. -/
theorem strings_survive_iff [Zero Value] (hash : String → UInt64) (cfg : UploaderConfig)
    (ring : EventRing Value capacity) (offsets : ClockOffset)
    (inputs : List (SessionInput Value)) (skew : SkewTable) (fast : FastRing Value)
    (reactions : List SinkReaction) :
    StringsSurvive (.start skew fast)
        (arrivals (sessionRun hash cfg ring offsets inputs).sent reactions) ↔
      NothingTakenAfterLoss hash (drainedBy cfg ring inputs).drained reactions := by
  have announces := sessionRun_announcesOnce hash cfg ring offsets inputs
  exact ⟨announces.nothingTakenAfterLoss, announces.stringsSurvive skew fast⟩

/-- A utilisation reading. -/
def percentReading : Event Nat where
  tsNs := 5000
  durationNs := 0
  nodeId := 0
  gpuId := 0
  pid := 0
  tid := 0
  ctxId := 0
  streamId := 0
  category := Category.metric.asI32
  nameId := 0
  correlationId := 0
  parentId := 0
  payload := some (.metric ⟨42, 87, "%"⟩)

/-- An agent that flushes two readings of one unit, in a batch each. -/
def percentUploader : UploaderConfig where
  hostname := "gpu-a"
  nodeId := 0
  numGpus := 1
  maxBatchEvents := 20000
  agentRpcAddr := ""

/-- When the first of the two batches is refused, the unit is lost. -/
theorem refused_unit_lost :
    ¬ ∀ (inputs : List (SessionInput Nat)) (reactions : List SinkReaction),
      StringsSurvive (.start .new .new)
        (arrivals (sessionRun (fun _ => 7) percentUploader (.new : EventRing Nat 4) .identity
          inputs).sent reactions) := by
  intro survive
  obtain ⟨b, member, carried⟩ := survive
    [.push percentReading, .flushTick, .push percentReading, .flushTick]
    [⟨fun _ => 0, .full⟩, ⟨fun _ => 0, .accepted⟩] 0 1 _ _ (Nat.zero_le 1) rfl rfl rfl ⟨7, "%"⟩
    List.mem_cons_self
  rw [List.mem_singleton.mp member] at carried
  exact absurd carried List.not_mem_nil

end PerfWeave
