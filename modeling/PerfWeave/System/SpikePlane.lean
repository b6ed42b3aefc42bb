/-
This file follows a spike from the detector to the browser: the tick of
`perfweave-server/src/spike_detect.rs` that finds it, the channel and the task of
`store/sink.rs` that store it, and the query `spikes` of `api/graphql.rs`. The sink inserts the
spikes last, so a flush that fails has stored none of them: each is stored once, in order, whatever
fails. A spike keeps ten seconds from the last of its series, so the limit of the query does not cut
a window that is short for the number of series. The life of a row is not over.
-/

import PerfWeave.Library.Spacing
import PerfWeave.Server.SinkDuplicates
import PerfWeave.Server.SpikeRuns

namespace PerfWeave

/-! ### The table of spikes -/

section

variable {Value : Type}

/-- A flush that does not get through stops before the spikes. -/
theorem spikes_notMem_passed {succeeds : Table → Bool} {state : SinkState Value}
    (fails : ¬ state.completes succeeds = true) :
    Table.spikes ∉ passed succeeds state.pending insertOrder := by
  intro member
  have whole : passed succeeds state.pending insertOrder = insertOrder := by
    obtain ⟨rest, same⟩ := passed_isPrefix succeeds state.pending List.prefix_rfl
    cases rest using List.reverseRecOn with
    | nil => rwa [List.append_nil] at same
    | append_singleton rest last =>
      have nodup := insertOrder_nodup
      have isLast : last = Table.spikes := by
        have ends := congrArg List.getLast? same
        rw [← List.append_assoc, List.getLast?_concat] at ends
        exact Option.some.inj ends
      rw [← same, isLast] at nodup
      exact absurd rfl ((List.nodup_append.mp nodup).2.2 _ member _
        (List.mem_append_right _ List.mem_cons_self))
  exact fails (List.all_eq_true.mpr (List.takeWhile_eq_self_iff.mp whole))

/-- No flush changes what the table of spikes and its buffer hold together. -/
theorem held_flush_spikes (succeeds : Table → Bool) (state : SinkState Value) :
    (state.flush succeeds).held .spikes = state.held .spikes := by
  by_cases complete : state.completes succeeds = true
  · exact SinkState.held_flush_of_completes complete .spikes
  · rw [SinkState.held_flush_of_fails complete, if_neg (spikes_notMem_passed complete)]
    rfl

end

/-! ### The plane -/

variable {Value : Type}

/-- The ring with the detector on it, how many of its rows have been sent, the channel of the sink,
and the sink. -/
structure SpikePlane (Value : Type) where
  watch : SpikeWatch Value
  sent : Nat
  channel : List (SinkMsg Value)
  sink : SinkState Value

/-- What can happen: an input of the ring or the detector; the detector sends its next row; ingest
sends a batch, or a replay sends a report; the sink receives, or its ticker ticks. -/
inductive SpikePlaneInput (Value : Type) where
  | watch (input : SpikeInput Value)
  | pushSpike
  | push (b : Batch Value)
  | pushKernelSol (nodeId : UInt32) (sol : KernelSol Value)
  | recv (clock : Nat → UInt64) (succeeds : Table → Bool)
  | tick (succeeds : Table → Bool)

/-- The row that a message carries. -/
def SinkMsg.spikeRow : SinkMsg Value → Option (SpikeRow Value)
  | .batch _ => none
  | .kernelSol _ _ => none
  | .spike row => some row

/-- A row of the table of spikes. -/
def storedSpike (queued : Queued (TableRow Value .spikes)) : SpikeRow Value := queued.row

namespace SpikePlane

/-- Nothing has happened. -/
def start : SpikePlane Value := ⟨.start, 0, [], .fresh⟩

/-- The rows of the table of spikes. -/
def table (state : SpikePlane Value) : List (SpikeRow Value) :=
  (storedRows state.sink.log .spikes).map storedSpike

/-- The rows on their way to the table: the sink's buffer, the channel, and what is to be sent. -/
def underWay (state : SpikePlane Value) : List (SpikeRow Value) :=
  (state.sink.pending .spikes).map storedSpike ++ (state.channel.filterMap SinkMsg.spikeRow ++
    state.watch.rows.drop state.sent)

variable [Zero Value] [Add Value] [Sub Value] [Mul Value] [NatCast Value] [OfScientific Value]
  [LT Value] [DecidableLT Value] [LE Value] [DecidableLE Value] [PartialArithmetic Value]

/-- One input; none when the arithmetic of a tick leaves its domain. -/
def step (cfg : SinkConfig) (state : SpikePlane Value) :
    SpikePlaneInput Value → Option (SpikePlane Value)
  | .watch input => (state.watch.step input).map fun watch => { state with watch }
  | .pushSpike =>
    match state.watch.rows[state.sent]? with
    | none => some state
    | some row =>
      some { state with sent := state.sent + 1, channel := state.channel ++ [.spike row] }
  | .push b => some { state with channel := state.channel ++ [.batch b] }
  | .pushKernelSol nodeId sol =>
    some { state with channel := state.channel ++ [.kernelSol nodeId sol] }
  | .recv clock succeeds =>
    match state.channel with
    | [] => some state
    | msg :: channel =>
      some { state with channel, sink := state.sink.step cfg (.recv msg clock succeeds) }
  | .tick succeeds => some { state with sink := state.sink.step cfg (.tick succeeds) }

end SpikePlane

/-- `spikes`: the first thousand spikes of a window, by time. -/
def spikesQuery [OfScientific Value] [LE Value] [DecidableLE Value] (table : List (SpikeRow Value))
    (startNs endNs : UInt64) : List (SpikeRow Value) :=
  ((table.filter fun row => startNs ≤ row.bucketStartNs ∧ row.bucketStartNs < endNs ∧
    madZThreshold ≤ row.zMad).mergeSort fun first second =>
      first.bucketStartNs ≤ second.bucketStartNs).take 1000

/-! ### Every spike, once and in order -/

namespace SpikePlane

/-- What the detector has sent is in the table, in the buffer or in the channel, in this order. -/
structure Conserves (state : SpikePlane Value) : Prop where
  sent : (state.sink.held .spikes).map storedSpike ++ state.channel.filterMap SinkMsg.spikeRow =
    state.watch.rows.take state.sent
  atMost : state.sent ≤ state.watch.rows.length

theorem start_conserves : (start : SpikePlane Value).Conserves := ⟨rfl, Nat.le_refl 0⟩

section

variable [Zero Value]

theorem map_rows_spikes (clock : Nat → UInt64) (message : Nat) (msg : SinkMsg Value) :
    (msg.rows clock message .spikes).map storedSpike =
      msg.spikeRow.toList := by
  cases msg <;> rfl

theorem held_step_spikes (cfg : SinkConfig) (sink : SinkState Value) (input : SinkInput Value) :
    (sink.step cfg input).held .spikes = (sink.arrive input).held .spikes := by
  unfold SinkState.step
  simp only
  split
  · exact held_flush_spikes _ _
  · rfl

end

variable [Zero Value] [Add Value] [Sub Value] [Mul Value] [NatCast Value] [OfScientific Value]
  [LT Value] [DecidableLT Value] [LE Value] [DecidableLE Value] [PartialArithmetic Value]

/-- A detector only ever adds rows. -/
theorem rows_prefix_step {watch next : SpikeWatch Value} {input : SpikeInput Value}
    (steps : watch.step input = some next) : watch.rows <+: next.rows := by
  cases input with
  | push key s =>
    obtain rfl := Option.some.inj steps
    exact List.prefix_rfl
  | publish now =>
    obtain rfl := Option.some.inj steps
    exact List.prefix_rfl
  | tick order =>
    obtain ⟨⟨detector, emitted⟩, _, rest⟩ := Option.bind_eq_some_iff.mp steps
    obtain rfl := Option.some.inj rest
    exact List.prefix_append _ _

theorem Conserves.step {cfg : SinkConfig} {state next : SpikePlane Value}
    (conserves : state.Conserves) {input : SpikePlaneInput Value}
    (steps : state.step cfg input = some next) : next.Conserves := by
  obtain ⟨sent, atMost⟩ := conserves
  cases input with
  | watch input =>
    obtain ⟨watch, stepped, rfl⟩ := Option.map_eq_some_iff.mp steps
    obtain ⟨added, grown⟩ := rows_prefix_step stepped
    refine ⟨?_, ?_⟩
    · show _ = watch.rows.take state.sent
      rw [← grown, List.take_append_of_le_length atMost]
      exact sent
    · show state.sent ≤ watch.rows.length
      rw [← grown, List.length_append]
      exact atMost.trans (Nat.le_add_right _ _)
  | pushSpike =>
    unfold SpikePlane.step at steps
    simp only at steps
    split at steps
    · obtain rfl := Option.some.inj steps
      exact ⟨sent, atMost⟩
    · rename_i row isRow
      obtain rfl := Option.some.inj steps
      obtain ⟨below, isNext⟩ := List.getElem?_eq_some_iff.mp isRow
      refine ⟨?_, below⟩
      show _ ++ (state.channel ++ [SinkMsg.spike row]).filterMap SinkMsg.spikeRow =
        state.watch.rows.take (state.sent + 1)
      rw [List.filterMap_append, ← List.append_assoc, sent, List.take_succ_eq_append_getElem below,
        isNext]
      rfl
  | push b =>
    obtain rfl := Option.some.inj steps
    refine ⟨?_, atMost⟩
    show _ ++ (state.channel ++ [SinkMsg.batch b]).filterMap SinkMsg.spikeRow = _
    rw [List.filterMap_append, ← List.append_assoc, sent]
    exact List.append_nil _
  | pushKernelSol nodeId sol =>
    obtain rfl := Option.some.inj steps
    refine ⟨?_, atMost⟩
    show _ ++ (state.channel ++ [SinkMsg.kernelSol nodeId sol]).filterMap SinkMsg.spikeRow = _
    rw [List.filterMap_append, ← List.append_assoc, sent]
    exact List.append_nil _
  | recv clock succeeds =>
    unfold SpikePlane.step at steps
    simp only at steps
    split at steps
    · obtain rfl := Option.some.inj steps
      exact ⟨sent, atMost⟩
    · rename_i msg channel isChannel
      obtain rfl := Option.some.inj steps
      refine ⟨?_, atMost⟩
      show ((state.sink.step cfg (.recv msg clock succeeds)).held .spikes).map storedSpike ++
        channel.filterMap SinkMsg.spikeRow = state.watch.rows.take state.sent
      rw [held_step_spikes, SinkState.held_arrive_recv, List.map_append, map_rows_spikes,
        List.append_assoc, ← sent, isChannel]
      cases msg <;> rfl
  | tick succeeds =>
    obtain rfl := Option.some.inj steps
    refine ⟨?_, atMost⟩
    show ((state.sink.step cfg (.tick succeeds)).held .spikes).map storedSpike ++ _ = _
    rw [held_step_spikes]
    exact sent

end SpikePlane

/-- What an input is to the ring and the detector. -/
def SpikePlaneInput.watchInput : SpikePlaneInput Value → Option (SpikeInput Value)
  | .watch input => some input
  | _ => none

namespace SpikePlane

/-- A run in exact arithmetic, with what it is to the detector and to the sink. -/
structure Reached (inputs : List (SpikePlaneInput ℝ)) (state : SpikePlane ℝ) : Prop where
  watch : runPartial SpikeWatch.step .start (inputs.filterMap SpikePlaneInput.watchInput) =
    some state.watch
  conserves : state.Conserves

theorem Reached.of_hidden {cfg : SinkConfig} {inputs : List (SpikePlaneInput ℝ)}
    {state next : SpikePlane ℝ} (reached : state.Reached inputs) {input : SpikePlaneInput ℝ}
    (hidden : input.watchInput = none) (steps : state.step cfg input = some next)
    (kept : next.watch = state.watch) : next.Reached (inputs ++ [input]) := by
  refine ⟨?_, reached.conserves.step steps⟩
  rw [List.filterMap_append, List.filterMap_cons_none hidden, List.filterMap_nil, List.append_nil,
    kept]
  exact reached.watch

theorem Reached.step (cfg : SinkConfig) {inputs : List (SpikePlaneInput ℝ)} {state : SpikePlane ℝ}
    (reached : state.Reached inputs) (input : SpikePlaneInput ℝ) :
    ∃ next, state.step cfg input = some next ∧ next.Reached (inputs ++ [input]) := by
  cases input with
  | watch input =>
    obtain ⟨watch, reachedWatch, _⟩ := SpikeWatch.run_sound
      (inputs.filterMap SpikePlaneInput.watchInput ++ [input])
    have steps := reachedWatch
    rw [runPartial_concat, reached.watch, Option.bind_some] at steps
    have stepsPlane : state.step cfg (.watch input) = some { state with watch } := by
      rw [SpikePlane.step, steps, Option.map_some]
    refine ⟨_, stepsPlane, ?_, reached.conserves.step stepsPlane⟩
    rw [List.filterMap_append]
    exact reachedWatch
  | pushSpike =>
    cases isRow : state.watch.rows[state.sent]? with
    | none =>
      have steps : state.step cfg .pushSpike = some state := by simp only [SpikePlane.step, isRow]
      exact ⟨state, steps, reached.of_hidden rfl steps rfl⟩
    | some row =>
      have steps : state.step cfg .pushSpike = some { state with
          sent := state.sent + 1, channel := state.channel ++ [.spike row] } := by
        simp only [SpikePlane.step, isRow]
      exact ⟨_, steps, reached.of_hidden rfl steps rfl⟩
  | push b => exact ⟨_, rfl, @Reached.of_hidden cfg _ _ _ reached _ rfl rfl rfl⟩
  | pushKernelSol nodeId sol => exact ⟨_, rfl, @Reached.of_hidden cfg _ _ _ reached _ rfl rfl rfl⟩
  | recv clock succeeds =>
    cases isChannel : state.channel with
    | nil =>
      have steps : state.step cfg (.recv clock succeeds) = some state := by
        simp only [SpikePlane.step, isChannel]
      exact ⟨state, steps, reached.of_hidden rfl steps rfl⟩
    | cons msg channel =>
      have steps : state.step cfg (.recv clock succeeds) = some { state with
          channel, sink := state.sink.step cfg (.recv msg clock succeeds) } := by
        simp only [SpikePlane.step, isChannel]
      exact ⟨_, steps, reached.of_hidden rfl steps rfl⟩
  | tick succeeds => exact ⟨_, rfl, @Reached.of_hidden cfg _ _ _ reached _ rfl rfl rfl⟩

theorem exists_reached (cfg : SinkConfig) (inputs : List (SpikePlaneInput ℝ)) :
    ∃ state, runPartial (step cfg) .start inputs = some state ∧ state.Reached inputs :=
  runPartial_induction ⟨rfl, start_conserves⟩ (fun _ input _ _ reached => reached.step cfg input)
    inputs

/-- What is in the table and what is on its way are the spikes found so far. -/
theorem Reached.table_underWay {inputs : List (SpikePlaneInput ℝ)} {state : SpikePlane ℝ}
    (reached : state.Reached inputs) :
    state.table ++ state.underWay = state.watch.spikes.map SpikeEvent.row := by
  obtain ⟨watch, reachedWatch, sound⟩ := SpikeWatch.run_sound
    (inputs.filterMap SpikePlaneInput.watchInput)
  obtain rfl := Option.some.inj (reached.watch.symm.trans reachedWatch)
  have sent := reached.conserves.sent
  rw [SinkState.held, List.map_append] at sent
  calc state.table ++ state.underWay
      = (storedRows state.sink.log .spikes).map storedSpike ++
            (state.sink.pending .spikes).map storedSpike ++
          state.channel.filterMap SinkMsg.spikeRow ++ state.watch.rows.drop state.sent := by
        simp only [table, underWay, List.append_assoc]
    _ = state.watch.rows.take state.sent ++ state.watch.rows.drop state.sent := by rw [sent]
    _ = state.watch.rows := List.take_append_drop _ _
    _ = state.watch.spikes.map SpikeEvent.row := sound.rows

end SpikePlane

/-- In every run, whatever inserts fail and whatever else goes through the sink, the table of spikes
holds the first of the spikes found, each once and in order, and the others are on their way. -/
theorem spikes_stored_once (cfg : SinkConfig) (inputs : List (SpikePlaneInput ℝ)) :
    ∃ state, runPartial (SpikePlane.step cfg) .start inputs = some state ∧
      state.table ++ state.underWay = state.watch.spikes.map SpikeEvent.row := by
  obtain ⟨state, reachedState, reached⟩ := SpikePlane.exists_reached cfg inputs
  exact ⟨state, reachedState, reached.table_underWay⟩

/-! ### The query -/

/-- The series that are pushed to. -/
def seriesPushed (inputs : List (SpikeInput Value)) : List SeriesKey :=
  inputs.filterMap fun
    | .push key _ => some key
    | _ => none

/-- The ring knows the series that were pushed to. -/
theorem mem_seriesPushed [Zero Value] [Add Value] [Sub Value] [Mul Value] [NatCast Value]
    [OfScientific Value] [LT Value] [DecidableLT Value] [LE Value] [DecidableLE Value]
    [PartialArithmetic Value] {inputs : List (SpikeInput Value)} {state : SpikeWatch Value}
    (reached : runPartial SpikeWatch.step .start inputs = some state) {k : SeriesKey}
    (known : (state.ring.writer k).isSome ∨ (state.ring.snapshot.series k).isSome) :
    k ∈ seriesPushed inputs := by
  refine runPartial_history (motive := fun inputs (state : SpikeWatch Value) =>
    (state.ring.writer k).isSome ∨ (state.ring.snapshot.series k).isSome → k ∈ seriesPushed inputs)
    (fun known => absurd known (by simp [SpikeWatch.start, FastRing.new])) ?_ reached known
  intro inputs input before next _ steps pushed known
  unfold seriesPushed at pushed ⊢
  rw [List.filterMap_append]
  cases input with
  | push other s =>
    obtain rfl := Option.some.inj steps
    rw [FastRing.isSome_push_writer, FastRing.push_snapshot, or_assoc] at known
    rcases known with rfl | earlier
    · exact List.mem_append_right _ List.mem_cons_self
    · exact List.mem_append_left _ (pushed earlier)
  | publish now =>
    obtain rfl := Option.some.inj steps
    rw [FastRing.isSome_publish_series] at known
    exact List.mem_append_left _ (pushed (.inl (known.elim id id)))
  | tick order =>
    obtain ⟨_, _, rest⟩ := Option.bind_eq_some_iff.mp steps
    obtain rfl := Option.some.inj rest
    exact List.mem_append_left _ (pushed known)

/-- A spike of a window. -/
def SpikeEvent.Within (startNs endNs : UInt64) (ev : SpikeEvent Value) : Prop :=
  startNs ≤ ev.bucketStartNs ∧ ev.bucketStartNs < endNs

instance (startNs endNs : UInt64) (ev : SpikeEvent Value) : Decidable (ev.Within startNs endNs) :=
  instDecidableAnd

/-- A spike is of a series that was pushed to, and deviates as far as the query asks. -/
theorem SpikeEvent.ReportedIn.facts {inputs : List (SpikeInput ℝ)} {ev : SpikeEvent ℝ}
    (reported : ev.ReportedIn inputs) : ev.key ∈ seriesPushed inputs ∧ madZThreshold ≤ ev.zMad := by
  obtain ⟨before, order, earlier, _, _, _, snap, ⟨rest, rfl⟩, reached, _, _, series, sound⟩ :=
    reported
  refine ⟨?_, sound.atLeast⟩
  have known := mem_seriesPushed reached (k := ev.key) (.inr (by rw [series]; rfl))
  unfold seriesPushed at known ⊢
  rw [List.append_assoc, List.filterMap_append]
  exact List.mem_append_left _ known

/-- The spikes of a few series in a short window are few. -/
theorem SpikeWatch.Sound.length_within_le {inputs : List (SpikeInput ℝ)} {state : SpikeWatch ℝ}
    (sound : state.Sound inputs) (startNs endNs : UInt64) :
    (state.spikes.filter fun ev => ev.Within startNs endNs).length ≤
      (seriesPushed inputs).dedup.length *
        ((endNs.toNat - startNs.toNat) / spikePeriodNs.toNat + 1) := by
  refine @length_le_of_owned _ _ _ SpikeEvent.key _ _ _ (fun ev member => ?_) fun key => ?_
  · exact List.mem_dedup.mpr ((sound.reported ev (List.mem_filter.mp member).1).facts).1
  · have own : ownedBy SpikeEvent.key key (state.spikes.filter fun ev => ev.Within startNs endNs) =
        (ownedBy SpikeEvent.key key state.spikes).filter fun ev => ev.Within startNs endNs :=
      List.filter_comm _ _ _
    have spaced : SpacedWithin spikePeriodNs.toNat startNs.toNat endNs.toNat
        (((ownedBy SpikeEvent.key key state.spikes).filter fun ev =>
          ev.Within startNs endNs).map fun ev => ev.bucketStartNs.toNat) := by
      refine ⟨List.pairwise_map.mpr ((sound.tracks key).spaced.sublist List.filter_sublist), ?_⟩
      intro time member
      obtain ⟨ev, inWindow, rfl⟩ := List.mem_map.mp member
      obtain ⟨atLeast, below⟩ := of_decide_eq_true (List.mem_filter.mp inWindow).2
      exact ⟨UInt64.le_iff_toNat_le.mp atLeast, UInt64.lt_iff_toNat_lt.mp below⟩
    have few := spaced.length_le (by decide)
    rw [List.length_map] at few
    rw [own]
    exact few

/-- A query that its limit does not cut returns the stored spikes of its window, by time. -/
theorem perm_spikesQuery {spikes : List (SpikeEvent ℝ)} {startNs endNs : UInt64}
    (deviate : ∀ ev ∈ spikes, madZThreshold ≤ ev.zMad)
    (few : (spikes.filter fun ev => ev.Within startNs endNs).length ≤ 1000) :
    (spikesQuery (spikes.map SpikeEvent.row) startNs endNs).Perm
        ((spikes.filter fun ev => ev.Within startNs endNs).map SpikeEvent.row) ∧
      (spikesQuery (spikes.map SpikeEvent.row) startNs endNs).Pairwise fun first second =>
        first.bucketStartNs ≤ second.bucketStartNs := by
  have selected : ((spikes.map SpikeEvent.row).filter fun row => startNs ≤ row.bucketStartNs ∧
        row.bucketStartNs < endNs ∧ madZThreshold ≤ row.zMad) =
      (spikes.filter fun ev => ev.Within startNs endNs).map SpikeEvent.row := by
    rw [List.filter_map]
    refine congrArg _ (List.filter_congr fun ev member => decide_eq_decide.mpr ?_)
    show startNs ≤ ev.bucketStartNs ∧ ev.bucketStartNs < endNs ∧ madZThreshold ≤ ev.zMad ↔
      startNs ≤ ev.bucketStartNs ∧ ev.bucketStartNs < endNs
    rw [and_iff_left (deviate ev member)]
  have ordered := @List.pairwise_mergeSort _
    (fun first second : SpikeRow ℝ => decide (first.bucketStartNs ≤ second.bucketStartNs))
    (fun first second third lower upper => decide_eq_true
      (UInt64.le_trans (of_decide_eq_true lower) (of_decide_eq_true upper)))
    (fun first second => by
      rw [Bool.or_eq_true, decide_eq_true_iff, decide_eq_true_iff]
      exact UInt64.le_total _ _)
    ((spikes.filter fun ev => ev.Within startNs endNs).map SpikeEvent.row)
  unfold spikesQuery
  rw [selected, List.take_of_length_le (by rw [List.length_mergeSort, List.length_map]; exact few)]
  exact ⟨List.mergeSort_perm _ _, ordered.imp of_decide_eq_true⟩

/-- Sixteen readings of a series that go up and down and one far above, each published and looked
at; what the detector finds is stored. -/
def oneOutlier : List (SpikePlaneInput ℝ) :=
  ((List.range 17).flatMap fun second =>
    [.watch (.push ⟨1, 0, 7⟩ ⟨UInt64.ofNat ((second + 1) * 1000000000),
        if second = 16 then 1000 else if second % 2 = 0 then 0 else 1⟩),
      .watch (.publish (UInt64.ofNat ((second + 1) * 1000000000))),
      .watch (.tick [⟨1, 0, 7⟩])]) ++
    [.pushSpike, .recv (fun _ => 0) fun _ => true, .tick fun _ => true]

end PerfWeave
