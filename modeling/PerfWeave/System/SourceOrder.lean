/-
This file compares the stored timestamps of activity records with their starts. Records of
different classes are corrected a different number of times on their way: fills not at all,
kernels, copies and calls once by the agent, and those of GPU 0 a second time by a collector
that holds the agent's fit under node 0. The order of the starts survives between two classes
exactly as long as no start is corrected further for the first than for the second.
-/

import PerfWeave.Inject.Activity
import PerfWeave.Agent.Handover
import PerfWeave.Server.IngestStream
import PerfWeave.System.ClockCorrection

namespace PerfWeave

variable {Value : Type} {capacity : Nat}

/-! ### A run on one fit -/

/-- The table of a collector that has only heard of one agent on one fit. -/
def fitTable (fit : ClockOffset) (own : UInt32) : SkewTable :=
  absorbOffsets (fun _ => 0) .new (fit.latestProto own).toList

/-- An event as the collector hands it to the sink when the agent's fit never changes. -/
def storedEvent (fit : ClockOffset) (own : UInt32) (e : Event Value) : Event Value :=
  (e.corrected fit).skewCorrected (fitTable fit own)

/-- The fit stays as it is. -/
def SessionInput.KeepsFit (fit : ClockOffset) : SessionInput Value → Prop
  | .setOffset c => c = fit
  | _ => True

/-- A batch is built from a flush under the fit. -/
def BuiltUnder (hash : String → UInt64) (cfg : UploaderConfig) (fit : ClockOffset)
    (flush : Drained Value) (batch : Batch Value) : Prop :=
  ∃ interner, batch = (buildBatch hash cfg fit interner flush.events flush.metricFrames).1

theorem Session.step_offsets (hash : String → UInt64) (cfg : UploaderConfig)
    {state : Session Value capacity} {fit : ClockOffset} (offsets : state.offsets = fit)
    {input : SessionInput Value} (keeps : input.KeepsFit fit) :
    (state.step hash cfg input).offsets = fit := by
  cases input with
  | push e => exact offsets
  | pushFrame f => exact offsets
  | setOffset c => exact keeps
  | droppedTick => exact offsets
  | flushTick =>
    simp only [step, flush]
    split
    · exact offsets
    · exact offsets

/-- While the fit stays, every batch is built under it. -/
theorem sessionRun_builtUnder (hash : String → UInt64) (cfg : UploaderConfig)
    (ring : EventRing Value capacity) (fit : ClockOffset) (inputs : List (SessionInput Value))
    (keeps : ∀ input ∈ inputs, input.KeepsFit fit) :
    List.Forall₂ (BuiltUnder hash cfg fit) (drainedBy cfg ring inputs).drained
      (sessionRun hash cfg ring fit inputs).sent := by
  have built := @run_induction _ _ (Session.step hash cfg) (.start ring fit)
    (fun inputs (state : Session Value capacity) =>
      (∀ input ∈ inputs, input.KeepsFit fit) → state.offsets = fit ∧
        state.ring = (drainedBy cfg ring inputs).ring ∧
        List.Forall₂ (BuiltUnder hash cfg fit) (drainedBy cfg ring inputs).drained state.sent)
    (fun _ => ⟨rfl, rfl, .nil⟩) ?_ inputs keeps
  · exact built.2.2
  · intro inputs input before keeps
    rw [List.forall_mem_append, List.forall_mem_singleton] at keeps
    obtain ⟨offsets, same, built⟩ := before keeps.1
    have handover : drainedBy cfg ring (inputs ++ [input]) =
        (drainedBy cfg ring inputs).step cfg input := run_concat _ _ _ _
    obtain ⟨ringAfter, ⟨sent, _, drained⟩ | ⟨flush, sent, _, drained⟩⟩ :=
      Session.step_cases hash cfg same input
    · rw [handover, sent, drained]
      exact ⟨Session.step_offsets hash cfg offsets keeps.2, ringAfter, built⟩
    · rw [handover, sent, drained, offsets]
      exact ⟨Session.step_offsets hash cfg offsets keeps.2, ringAfter,
        List.rel_append built (.cons ⟨_, rfl⟩ .nil)⟩

/-- The table holds at most the record of the fit, under the agent's key. -/
def SkewTable.HoldsOnly (table : SkewTable) (fit : ClockOffset) (own : UInt32) : Prop :=
  ∀ nodeId gpuId, table.inner (nodeId, gpuId) = none ∨
    nodeId = own ∧ gpuId = 0 ∧ (fit.latestProto own).isSome

/-- A table that holds at most the fit's record holds, after a batch under the fit, that record
and nothing else. -/
theorem SkewTable.HoldsOnly.absorb {table : SkewTable} {fit : ClockOffset} {own : UInt32}
    (holds : table.HoldsOnly fit own) (clock : Nat → UInt64) (nodeId gpuId : UInt32) :
    (absorbOffsets clock table (fit.latestProto own).toList).inner (nodeId, gpuId) =
      if nodeId = own ∧ gpuId = 0 then
        (fit.latestProto own).map (SkewEntry.ofMessage (clock 0))
      else
        none := by
  rw [absorbOffsets_latestProto, appliedRecord]
  by_cases key : nodeId = own ∧ gpuId = 0
  · rw [if_pos key, if_pos key]
    cases sent : fit.latestProto own with
    | some message => rfl
    | none =>
      refine (holds nodeId gpuId).resolve_right fun held => ?_
      rw [sent] at held
      exact absurd held.2.2 Bool.false_ne_true
  · rw [if_neg key, if_neg key]
    exact (holds nodeId gpuId).resolve_right fun held => key ⟨held.1, held.2.1⟩

theorem new_holdsOnly (fit : ClockOffset) (own : UInt32) : SkewTable.new.HoldsOnly fit own :=
  fun _ _ => .inl rfl

theorem SkewTable.HoldsOnly.after {table : SkewTable} {fit : ClockOffset} {own : UInt32}
    (holds : table.HoldsOnly fit own) (clock : Nat → UInt64) :
    (absorbOffsets clock table (fit.latestProto own).toList).HoldsOnly fit own := by
  intro nodeId gpuId
  rw [holds.absorb clock nodeId gpuId]
  by_cases key : nodeId = own ∧ gpuId = 0
  · rw [if_pos key, Option.map_eq_none_iff, ← Option.not_isSome_iff_eq_none]
    by_cases sent : (fit.latestProto own).isSome
    · exact .inr ⟨key.1, key.2, sent⟩
    · exact .inl sent
  · exact .inl (if_neg key)

/-- The record's age does not matter to its mapping. -/
theorem SkewTable.HoldsOnly.map_absorb {table : SkewTable} {fit : ClockOffset} {own : UInt32}
    (holds : table.HoldsOnly fit own) (clock : Nat → UInt64) :
    (absorbOffsets clock table (fit.latestProto own).toList).map = (fitTable fit own).map := by
  funext nodeId gpuId t
  unfold SkewTable.map fitTable
  rw [holds.absorb clock, (new_holdsOnly fit own).absorb fun _ => 0]
  by_cases key : nodeId = own ∧ gpuId = 0
  · rw [if_pos key, if_pos key]
    cases fit.latestProto own <;> rfl
  · rw [if_neg key, if_neg key]

theorem Event.skewCorrected_congr {first second : SkewTable} (same : first.map = second.map)
    (e : Event Value) : e.skewCorrected first = e.skewCorrected second := by
  unfold skewCorrected
  rw [same]

/-- Over any run of a session on one fit into a fresh collector, whatever the sink takes is an
event the session drained, as the collector corrects it. -/
theorem taken_eq_storedEvent [Zero Value] (hash : String → UInt64) (cfg : UploaderConfig)
    (fit : ClockOffset) (drained : List (Drained Value)) (fast : FastRing Value)
    (arrived : List (Arrival Value))
    (built : ∀ arrival ∈ arrived, ∃ flush ∈ drained, BuiltUnder hash cfg fit flush arrival.batch) :
    ∀ b ∈ (run IngestStream.step (.start .new fast) arrived).taken, ∀ stored ∈ b.events,
      ∃ flush ∈ drained, ∃ e ∈ flush.events, stored = storedEvent fit cfg.nodeId e := by
  refine (run_invariant
    (motive := fun stream : IngestStream Value => stream.skew.HoldsOnly fit cfg.nodeId ∧
      ∀ b ∈ stream.taken, ∀ stored ∈ b.events,
        ∃ flush ∈ drained, ∃ e ∈ flush.events, stored = storedEvent fit cfg.nodeId e)
    ⟨new_holdsOnly fit cfg.nodeId, fun _ member => absurd member List.not_mem_nil⟩ ?_
    arrived built).2
  rintro stream arrival ⟨flush, member, interner, isBatch⟩ ⟨holds, taken⟩
  have offsets : arrival.batch.offsets = (fit.latestProto cfg.nodeId).toList := by
    rw [isBatch]
    rfl
  refine ⟨?_, fun b inTaken stored inBatch => ?_⟩
  · rw [IngestStream.step_skew, offsets]
    exact holds.after arrival.clock
  · rcases IngestStream.mem_taken_step inTaken with before | rfl
    · exact taken b before stored inBatch
    · rw [isBatch, ingestBatch_buildBatch_toSink] at inBatch
      obtain ⟨e, kept, rfl⟩ := List.mem_map.mp inBatch
      refine ⟨flush, member, e, (List.mem_filter.mp kept).1, ?_⟩
      exact Event.skewCorrected_congr (holds.map_absorb arrival.clock) _

/-! ### How far a class is corrected -/

/-- The fit maps a start inside its integers: the product stays below `2 ^ 127` and the line is
a word. -/
structure ClockOffset.MapsInside (fit : ClockOffset) (t : UInt64) : Prop where
  product : fit.slopeNum * t.toNat < 2 ^ 127
  nonneg : 0 ≤ fit.offsetNs + fit.slopeNum * t.toNat / fit.slopeDen
  word : fit.offsetNs + fit.slopeNum * t.toNat / fit.slopeDen < 2 ^ 64

/-- How often a start is mapped on its way to the sink. -/
inductive Corrections where
  | never
  | once
  | twice

/-- The start of a fill is never mapped; that of a kernel, a copy or a call is mapped by the
agent, and a second time by the collector when it is on GPU 0 and the agent has node id 0 and
sends its fit. -/
def ActivityClass.corrections (fit : ClockOffset) (own : UInt32) (activity : ActivityClass) :
    Corrections :=
  if activity.category = .memset then .never
  else if own = 0 ∧ activity.gpuId = 0 ∧ (fit.latestProto own).isSome then .twice
  else .once

/-- The mapping of the record that the collector holds of an agent with node id 0. -/
def ClockOffset.mapAgain (fit : ClockOffset) (own : UInt32) (hostNs : UInt64) : UInt64 :=
  (fitTable fit own).map 0 0 hostNs

/-- A start mapped as often as the corrections say. -/
def Corrections.apply (fit : ClockOffset) (own : UInt32) (t : UInt64) : Corrections → UInt64
  | .never => t
  | .once => fit.map t
  | .twice => fit.mapAgain own (fit.map t)

/-- The fit keeps the order of starts that are corrected the one and the other number of times:
it has nothing to satisfy when both are left alone or both are mapped once, must not move a
start against the order when the numbers differ, and must be a fit whose second mapping is
monotone on what the first one gives when both are mapped twice. -/
def ClockOffset.KeepsOrder (fit : ClockOffset) (own : UInt32) : Corrections → Corrections → Prop
  | .never, .never => True
  | .once, .once => True
  | .never, .once => ∀ t, fit.MapsInside t → t ≤ fit.map t
  | .once, .never => ∀ t, fit.MapsInside t → fit.map t ≤ t
  | .once, .twice => ∀ t, fit.MapsInside t → fit.map t ≤ fit.mapAgain own (fit.map t)
  | .twice, .once => ∀ t, fit.MapsInside t → fit.mapAgain own (fit.map t) ≤ fit.map t
  | .never, .twice => ∀ t, fit.MapsInside t → t ≤ fit.mapAgain own (fit.map t)
  | .twice, .never => ∀ t, fit.MapsInside t → fit.mapAgain own (fit.map t) ≤ t
  | .twice, .twice => ∀ s t, fit.MapsInside s → fit.MapsInside t → fit.map s ≤ fit.map t →
      fit.mapAgain own (fit.map s) ≤ fit.mapAgain own (fit.map t)

/-- The order of the starts survives between the records of two classes. -/
def KeepsSourceOrder (Value : Type) (hash : String → UInt64) (nameAt : UInt64 → String)
    (fit : ClockOffset) (own : UInt32) (first second : ActivityClass) : Prop :=
  ∀ (firstBuf secondBuf : Nat → UInt8) (firstRemaining secondRemaining : Nat)
    (a b : Event Value), (parseRecord hash nameAt firstBuf firstRemaining).2 = some a →
      (parseRecord hash nameAt secondBuf secondRemaining).2 = some b → a.OfClass first →
        b.OfClass second → fit.MapsInside a.tsNs → fit.MapsInside b.tsNs → a.tsNs ≤ b.tsNs →
          (storedEvent fit own a).tsNs ≤ (storedEvent fit own b).tsNs

/-- A record that is no fill is of a category both sides correct. -/
theorem Event.OfClass.isGpuTimed {e : Event Value} {activity : ActivityClass}
    (ofClass : e.OfClass activity) (notFill : activity.category ≠ .memset) : e.isGpuTimed := by
  have category := ofClass.category
  cases activity with
  | kernel gpuId => exact .inl category
  | memcpy gpuId => exact .inr (.inr category)
  | memset gpuId => exact absurd rfl notFill
  | api => exact .inr (.inl category)

/-- The collector's record of the agent's fit maps an event of GPU 0 exactly when the agent has
node id 0 and sends its fit. -/
theorem fitTable_map (fit : ClockOffset) (own gpuId : UInt32) (hostNs : UInt64) :
    (fitTable fit own).map 0 gpuId hostNs =
      if own = 0 ∧ gpuId = 0 ∧ (fit.latestProto own).isSome then fit.mapAgain own hostNs
      else hostNs := by
  split
  · rename_i twice
    rw [ClockOffset.mapAgain, twice.2.1]
  · rename_i once
    have noRecord : (fitTable fit own).inner (0, gpuId) = none := by
      rw [fitTable, (new_holdsOnly fit own).absorb fun _ => 0]
      by_cases key : 0 = own ∧ gpuId = 0
      · rw [if_pos key, Option.map_eq_none_iff, ← Option.not_isSome_iff_eq_none]
        exact fun sent => once ⟨key.1.symm, key.2, sent⟩
      · exact if_neg key
    rw [SkewTable.map, noRecord]

/-- A record of a class is stored with its start mapped as often as its class is corrected. -/
theorem Event.OfClass.storedEvent_tsNs {e : Event Value} {activity : ActivityClass}
    (ofClass : e.OfClass activity) (fit : ClockOffset) (own : UInt32) :
    (storedEvent fit own e).tsNs = (activity.corrections fit own).apply fit own e.tsNs := by
  unfold ActivityClass.corrections storedEvent
  by_cases fill : activity.category = .memset
  · have notTimed : ¬ e.isGpuTimed := by
      rw [Event.isGpuTimed, ofClass.category, fill]
      decide
    have kept : e.corrected fit = e := if_neg notTimed
    rw [if_pos fill, kept]
    exact congrArg Event.tsNs (if_neg notTimed)
  · have timed := ofClass.isGpuTimed fill
    have stored : ((e.corrected fit).skewCorrected (fitTable fit own)).tsNs =
        (fitTable fit own).map e.nodeId e.gpuId (fit.map e.tsNs) := by
      rw [Event.corrected_of_isGpuTimed timed]
      exact congrArg Event.tsNs (if_pos timed)
    rw [if_neg fill, stored, ofClass.nodeId, ofClass.gpuId, fitTable_map]
    split <;> rfl

theorem ClockOffset.MapsInside.toNat_map {fit : ClockOffset} {t : UInt64}
    (inside : fit.MapsInside t) (rising : 0 ≤ fit.slopeNum) :
    ((fit.map t).toNat : Int) = fit.offsetNs + fit.slopeNum * t.toNat / fit.slopeDen := by
  obtain ⟨product, nonneg, word⟩ := inside
  have productNonneg : 0 ≤ fit.slopeNum * (t.toNat : Int) := mul_nonneg rising (word_bounds t).1
  have wrapped : wrapI128 (fit.slopeNum * t.toNat) = fit.slopeNum * t.toNat :=
    wrapI128_of_mem (by omega) product
  unfold map
  simp only
  rw [wrapped, Int.tdiv_eq_ediv_of_nonneg productNonneg, wrapI128_of_mem (by omega) (by omega),
    max_eq_left nonneg, toNat_truncateU64_of_mem nonneg word]

/-- Inside its integers a rising fit keeps the order. -/
theorem ClockOffset.map_le_map {fit : ClockOffset} (rising : 0 ≤ fit.slopeNum) {s t : UInt64}
    (insideFirst : fit.MapsInside s) (insideSecond : fit.MapsInside t) (ordered : s ≤ t) :
    fit.map s ≤ fit.map t := by
  have first := insideFirst.toNat_map rising
  have second := insideSecond.toNat_map rising
  have starts : (s.toNat : Int) ≤ t.toNat := by
    exact_mod_cast UInt64.le_iff_toNat_le.mp ordered
  have quotients : fit.slopeNum * s.toNat / fit.slopeDen ≤ fit.slopeNum * t.toNat / fit.slopeDen :=
    Int.ediv_le_ediv fit.slopeDenPos (mul_le_mul_of_nonneg_left starts rising)
  rw [UInt64.le_iff_toNat_le]
  omega

/-- What keeps the order among itself keeps it against what lies above it pointwise. -/
theorem ordered_iff_of_monotone_first {inside : UInt64 → Prop} {first second : UInt64 → UInt64}
    (monotone : ∀ s t, inside s → inside t → s ≤ t → first s ≤ first t) :
    (∀ t, inside t → first t ≤ second t) ↔
      ∀ s t, inside s → inside t → s ≤ t → first s ≤ second t :=
  ⟨fun below s t insideFirst insideSecond ordered =>
    UInt64.le_trans (monotone s t insideFirst insideSecond ordered) (below t insideSecond),
    fun keeps t isInside => keeps t t isInside isInside (UInt64.le_refl t)⟩

theorem ordered_iff_of_monotone_second {inside : UInt64 → Prop} {first second : UInt64 → UInt64}
    (monotone : ∀ s t, inside s → inside t → s ≤ t → second s ≤ second t) :
    (∀ t, inside t → first t ≤ second t) ↔
      ∀ s t, inside s → inside t → s ≤ t → first s ≤ second t :=
  ⟨fun below s t insideFirst insideSecond ordered =>
    UInt64.le_trans (below s insideFirst) (monotone s t insideFirst insideSecond ordered),
    fun keeps t isInside => keeps t t isInside isInside (UInt64.le_refl t)⟩

/-- The order of any two starts survives two numbers of corrections exactly when the fit keeps
it. -/
theorem ClockOffset.keepsOrder_iff {fit : ClockOffset} (rising : 0 ≤ fit.slopeNum) (own : UInt32)
    (first second : Corrections) :
    fit.KeepsOrder own first second ↔
      ∀ s t, fit.MapsInside s → fit.MapsInside t → s ≤ t →
        first.apply fit own s ≤ second.apply fit own t := by
  have never : ∀ s t, fit.MapsInside s → fit.MapsInside t → s ≤ t → s ≤ t :=
    fun _ _ _ _ ordered => ordered
  have once : ∀ s t, fit.MapsInside s → fit.MapsInside t → s ≤ t → fit.map s ≤ fit.map t :=
    fun _ _ => fit.map_le_map rising
  cases first <;> cases second
  case never.never => exact iff_of_true trivial never
  case once.once => exact iff_of_true trivial once
  case never.once => exact ordered_iff_of_monotone_first never
  case never.twice => exact ordered_iff_of_monotone_first never
  case once.twice => exact ordered_iff_of_monotone_first once
  case once.never => exact ordered_iff_of_monotone_second never
  case twice.never => exact ordered_iff_of_monotone_second never
  case twice.once => exact ordered_iff_of_monotone_second once
  case twice.twice =>
    refine ⟨fun monotone s t insideFirst insideSecond ordered =>
      monotone s t insideFirst insideSecond (once s t insideFirst insideSecond ordered), ?_⟩
    intro keeps s t insideFirst insideSecond mapped
    rcases UInt64.le_total s t with ordered | reversed
    · exact keeps s t insideFirst insideSecond ordered
    · have same := UInt64.le_antisymm mapped (once t s insideSecond insideFirst reversed)
      rw [same]
      exact UInt64.le_refl _

/-- Over any run on one fit into a fresh collector the sink takes the drained events as the
collector corrects them, and the order of the starts survives between the records of two
classes exactly when the fit keeps the order of starts corrected as often as those classes. -/
theorem source_order_iff [Zero Value] (hash : String → UInt64) (nameAt : UInt64 → String)
    (cfg : UploaderConfig) (fit : ClockOffset) (rising : 0 ≤ fit.slopeNum)
    (first second : ActivityClass) :
    (∀ (ring : EventRing Value capacity) (inputs : List (SessionInput Value))
        (reactions : List SinkReaction) (fast : FastRing Value),
      (∀ input ∈ inputs, input.KeepsFit fit) →
        ∀ b ∈ (run IngestStream.step (.start .new fast)
            (arrivals (sessionRun hash cfg ring fit inputs).sent reactions)).taken,
          ∀ stored ∈ b.events, ∃ flush ∈ (drainedBy cfg ring inputs).drained,
            ∃ e ∈ flush.events, stored = storedEvent fit cfg.nodeId e) ∧
      (KeepsSourceOrder Value hash nameAt fit cfg.nodeId first second ↔
        fit.KeepsOrder cfg.nodeId (first.corrections fit cfg.nodeId)
          (second.corrections fit cfg.nodeId)) := by
  rw [fit.keepsOrder_iff rising]
  refine ⟨?_, fun law s t insideFirst insideSecond ordered => ?_, ?_⟩
  · intro ring inputs reactions fast keeps
    refine taken_eq_storedEvent hash cfg fit _ fast _ fun arrival arrived => ?_
    exact exists_mem_of_forall₂ (sessionRun_builtUnder hash cfg ring fit inputs keeps)
      (batch_mem_of_mem_arrivals arrived)
  · obtain ⟨firstBuf, firstRemaining, a, firstParsed, firstClass, rfl⟩ :=
      @exists_record Value hash nameAt first s
    obtain ⟨secondBuf, secondRemaining, b, secondParsed, secondClass, rfl⟩ :=
      @exists_record Value hash nameAt second t
    rw [← firstClass.storedEvent_tsNs, ← secondClass.storedEvent_tsNs]
    exact law firstBuf secondBuf firstRemaining secondRemaining a b firstParsed secondParsed
      firstClass secondClass insideFirst insideSecond ordered
  · intro keeps firstBuf secondBuf firstRemaining secondRemaining a b _ _ firstClass secondClass
      insideFirst insideSecond ordered
    rw [firstClass.storedEvent_tsNs, secondClass.storedEvent_tsNs]
    exact keeps _ _ insideFirst insideSecond ordered

/-- Kernels and copies of a GPU the table has no fit for keep their order. -/
theorem kernels_and_copies_ordered :
    KeepsSourceOrder Nat (fun _ => 0) (fun _ => "") microsecondFit 3 (.kernel 0) (.memcpy 1) :=
  ((@source_order_iff Nat 4 _ (fun _ => 0) (fun _ => "") { defaultUploader with nodeId := 3 }
    microsecondFit (by decide) (.kernel 0) (.memcpy 1)).2).mpr trivial

/-- A kernel that starts together with a fill is stored a microsecond after it. -/
theorem fill_stored_before_kernel :
    ¬ KeepsSourceOrder Nat (fun _ => 0) (fun _ => "") microsecondFit 0 (.kernel 1) (.memset 1) := by
  intro law
  obtain ⟨kernelBuf, kernelRemaining, a, kernelParsed, isKernel, kernelStart⟩ :=
    @exists_record Nat (fun _ => 0) (fun _ => "") (.kernel 1) 5000
  obtain ⟨fillBuf, fillRemaining, b, fillParsed, isFill, fillStart⟩ :=
    @exists_record Nat (fun _ => 0) (fun _ => "") (.memset 1) 5000
  have inside : microsecondFit.MapsInside 5000 := ⟨by decide, by decide, by decide⟩
  have stored := law kernelBuf fillBuf kernelRemaining fillRemaining a b kernelParsed fillParsed
    isKernel isFill (kernelStart ▸ inside) (fillStart ▸ inside)
    (kernelStart.trans fillStart.symm ▸ UInt64.le_refl _)
  rw [isKernel.storedEvent_tsNs, isFill.storedEvent_tsNs, kernelStart, fillStart] at stored
  exact absurd stored (by decide)

end PerfWeave
