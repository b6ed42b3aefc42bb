/-
This file models how the timeline names the bar under the cursor: the effects of
`web/src/timeline/Timeline.tsx` that give the renderer its bars, the table `kernelsByBatchRef` that
stands beside the bars of the live kernels, and the lookup of `onMouseMove`. The lanes are fixed, so
there is one renderer. A load that was started comes back at any later time, or not at all, whatever
the mode is by then.

The effect for the live kernels fills the table together with the renderer; a load only fills the
renderer, so what stands in the table may be left from other bars.
-/

import PerfWeave.Web.ActivityBatches

namespace PerfWeave

/-! ### The timeline -/

/-- `NUM_GPUS`. -/
def numGpus : Nat := 2

/-- `ACTIVITY_LANES_PER_GPU`. -/
def activityLanesPerGpu : Nat := 3

/-- `LANES_PER_GPU`. -/
def lanesPerGpu : Nat := metricSlots + activityLanesPerGpu

/-- `METRIC_LANE_HEIGHT`. -/
def metricLaneHeight : ℚ := 34

/-- `ACTIVITY_LANE_HEIGHT`. -/
def activityLaneHeight : ℚ := 16

/-- `lanes`, by their heights. -/
def timelineLanes : List ℚ :=
  (List.replicate numGpus (List.replicate metricSlots metricLaneHeight ++
    List.replicate activityLanesPerGpu activityLaneHeight)).flatten

/-- What the effects of `Timeline` work on: the renderer, `kernelsByBatchRef`, and the number of
loads under way. -/
structure Timeline where
  renderer : BarRenderer
  kernelsByBatch : List (List LiveKernel)
  fetching : Nat

/-- The timeline on a new canvas. -/
def Timeline.mounted (canvasWidth : ℕ+) : Timeline :=
  ⟨BarRenderer.step (.created canvasWidth) (.setLanes timelineLanes), [], 0⟩

/-- What happens to a timeline: the effect that loads data runs with its properties, or that for the
live kernels with its own, a load comes back with its activity or fails, the canvas is resized. -/
inductive TimelineEvent where
  | load (startNs : Int) (liveSeries : Bool) (synthetic : List BarBatch) (clientWidth : Nat)
  | rebuild (liveKernels : Option (List LiveKernel)) (clientWidth : Nat)
  | fetched (activity : List ActivityRow) (clientWidth : Nat)
  | fetchFailed
  | resize (widthPx dpr : ℚ) (clientWidth : Nat)

namespace Timeline

/-- The effect that loads data. -/
def load (t : Timeline) (useSynthetic : Bool) (startNs : Int) (liveSeries : Bool)
    (synthetic : List BarBatch) (clientWidth : Nat) : Timeline :=
  let r := t.renderer.step (.setBaseline startNs)
  if useSynthetic then { t with renderer := r.setActivity synthetic clientWidth }
  else if liveSeries then { t with renderer := r }
  else { t with renderer := r, fetching := t.fetching + 1 }

/-- The effect for the live kernels. -/
def rebuild (t : Timeline) (useSynthetic : Bool) (liveKernels : Option (List LiveKernel))
    (clientWidth : Nat) : Timeline :=
  if useSynthetic then t
  else
    match liveKernels with
    | none => t
    | some kernels =>
      let built := liveKernelsToBatches kernels lanesPerGpu
      { t with
        renderer := t.renderer.setActivity (built.batches.map InstanceBatch.barBatch) clientWidth
        kernelsByBatch := built.kernelsByBatch }

/-- A load that was under way comes back. -/
def fetched (t : Timeline) (activity : List ActivityRow) (clientWidth : Nat) : Timeline :=
  if t.fetching = 0 then t
  else
    { t with
      renderer := t.renderer.setActivity (arrowToBatches activity lanesPerGpu) clientWidth
      fetching := t.fetching - 1 }

/-- The timeline after an event. -/
def step (useSynthetic : Bool) (t : Timeline) : TimelineEvent → Timeline
  | .load startNs liveSeries synthetic clientWidth =>
    t.load useSynthetic startNs liveSeries synthetic clientWidth
  | .rebuild liveKernels clientWidth => t.rebuild useSynthetic liveKernels clientWidth
  | .fetched activity clientWidth => t.fetched activity clientWidth
  | .fetchFailed => { t with fetching := t.fetching - 1 }
  | .resize widthPx dpr clientWidth =>
    { t with renderer := t.renderer.resize widthPx dpr clientWidth }

/-- The kernel in the table for a hit. -/
def kernelAt (t : Timeline) (hit : Hit) : Option LiveKernel :=
  t.kernelsByBatch[hit.batch]?.bind fun refs => refs[hit.index]?

/-- `onMouseMove` off a drag: the kernel of the tooltip. -/
def hoverKernel (t : Timeline) (viewport : Viewport) (xPx yPx : ℚ) : Option LiveKernel :=
  (t.renderer.pick viewport xPx yPx).bind t.kernelAt

end Timeline

/-! ### What the bars are made of -/

/-- What the bars of the renderer were built from: the live kernels of a rebuild, or no kernels. -/
inductive BarSource where
  | loaded
  | live (kernels : List LiveKernel)

/-- The kernel that a bar was built from: those of a GPU in their order, the GPUs in the order in
which they first occur. -/
def BarSource.kernelOf : BarSource → Hit → Option LiveKernel
  | .loaded, _ => none
  | .live kernels, hit =>
    (kernels.map LiveKernel.gpuId).eraseDups[hit.batch]?.bind fun gpuId =>
      (kernels.filter fun k => k.gpuId = gpuId)[hit.index]?

/-- A timeline with what its bars were built from. -/
structure ObservedTimeline where
  timeline : Timeline
  source : BarSource

namespace ObservedTimeline

/-- An event that is observed. -/
def step (useSynthetic : Bool) (o : ObservedTimeline) (event : TimelineEvent) :
    ObservedTimeline where
  timeline := o.timeline.step useSynthetic event
  source :=
    match event with
    | .load .. => if useSynthetic then .loaded else o.source
    | .rebuild (some kernels) _ => if useSynthetic then o.source else .live kernels
    | .fetched .. => if o.timeline.fetching = 0 then o.source else .loaded
    | _ => o.source

/-- A kernel is the one that the bar of a hit was built from. -/
structure BuiltFrom (o : ObservedTimeline) (hit : Hit) (k : LiveKernel) : Prop where
  kernel : o.source.kernelOf hit = some k
  bar : ∃ batch, o.timeline.renderer.currentBatches[hit.batch]? = some batch ∧
    batch.bars[hit.index]? = some k.bar

/-- Whatever bar is hit, the kernel that the table has for it is the one it was built from. -/
def NamesBars (o : ObservedTimeline) : Prop :=
  ∀ viewport xPx yPx hit, o.timeline.renderer.pick viewport xPx yPx = some hit →
    ∀ k, o.timeline.kernelAt hit = some k → o.BuiltFrom hit k

end ObservedTimeline

/-- The timeline after the events, and what its bars were built from. -/
def timelineAfter (useSynthetic : Bool) (canvasWidth : ℕ+) (events : List TimelineEvent) :
    ObservedTimeline :=
  run (ObservedTimeline.step useSynthetic) ⟨.mounted canvasWidth, .loaded⟩ events

/-- A load that comes back shows no batch, among as many as the table is long, in a lane that the
timeline has. -/
def Timeline.LoadsOutside (t : Timeline) : TimelineEvent → Prop
  | .fetched activity _ => t.fetching = 0 ∨
      ∀ lane ∈ (activityLanes lanesPerGpu activity).take t.kernelsByBatch.length,
        timelineLanes.length ≤ lane
  | _ => True

/-! ### One event -/

namespace ObservedTimeline

/-- What holds of every timeline: its lanes, a table without empty rows, and no table at all beside
synthetic bars. -/
structure Sound (useSynthetic : Bool) (o : ObservedTimeline) : Prop where
  lanes : o.timeline.renderer.laneHeights = timelineLanes
  rows : ∀ refs ∈ o.timeline.kernelsByBatch, refs ≠ []
  synthetic : useSynthetic = true → o.timeline.kernelsByBatch = []

theorem laneHeights_resize (r : BarRenderer) (widthPx dpr : ℚ) (clientWidth : Nat) :
    (r.resize widthPx dpr clientWidth).laneHeights = r.laneHeights := by
  unfold BarRenderer.resize
  dsimp only
  split <;> rfl

theorem currentBatches_resize (r : BarRenderer) (widthPx dpr : ℚ) (clientWidth : Nat) :
    (r.resize widthPx dpr clientWidth).currentBatches = r.currentBatches := by
  unfold BarRenderer.resize
  dsimp only
  split <;> rfl

/-- The table of a rebuild has a row of kernels for every GPU that occurs. -/
theorem ne_nil_of_mem_kernelsByBatch {kernels refs : List LiveKernel}
    (member : refs ∈ (liveKernelsToBatches kernels lanesPerGpu).kernelsByBatch) : refs ≠ [] := by
  rw [kernelsByBatch_eq] at member
  obtain ⟨gpuId, isGpu, rfl⟩ := List.mem_map.mp member
  obtain ⟨k, isKernel, same⟩ := List.mem_map.mp (kernelGrouping.mem_keys.mp isGpu)
  exact List.ne_nil_of_mem (List.mem_filter.mpr ⟨isKernel, decide_eq_true same⟩)

theorem Sound.step {useSynthetic : Bool} {o : ObservedTimeline} (sound : o.Sound useSynthetic)
    (event : TimelineEvent) : (o.step useSynthetic event).Sound useSynthetic := by
  obtain ⟨lanes, rows, synthetic⟩ := sound
  cases event with
  | load startNs liveSeries bars clientWidth =>
    simp only [ObservedTimeline.step, Timeline.step, Timeline.load]
    split_ifs <;> exact ⟨lanes, rows, synthetic⟩
  | rebuild liveKernels clientWidth =>
    simp only [ObservedTimeline.step, Timeline.step, Timeline.rebuild]
    split
    · exact ⟨lanes, rows, synthetic⟩
    next real =>
      cases liveKernels with
      | none => exact ⟨lanes, rows, synthetic⟩
      | some kernels =>
        exact ⟨lanes, fun refs member => ne_nil_of_mem_kernelsByBatch member,
          fun isSynthetic => absurd isSynthetic real⟩
  | fetched activity clientWidth =>
    simp only [ObservedTimeline.step, Timeline.step, Timeline.fetched]
    split_ifs <;> exact ⟨lanes, rows, synthetic⟩
  | fetchFailed => exact ⟨lanes, rows, synthetic⟩
  | resize widthPx dpr clientWidth =>
    exact ⟨(laneHeights_resize _ _ _ _).trans lanes, rows, synthetic⟩

/-- With the same bars, table and source, the bars are named alike. -/
theorem NamesBars.congr {o other : ObservedTimeline} (named : o.NamesBars)
    (lanes : other.timeline.renderer.laneHeights = o.timeline.renderer.laneHeights)
    (batches : other.timeline.renderer.currentBatches = o.timeline.renderer.currentBatches)
    (table : other.timeline.kernelsByBatch = o.timeline.kernelsByBatch)
    (source : other.source = o.source) : other.NamesBars := by
  intro viewport xPx yPx hit picked k isKernel
  rw [BarRenderer.pick_congr lanes batches] at picked
  rw [Timeline.kernelAt, table] at isKernel
  obtain ⟨kernel, bar⟩ := named viewport xPx yPx hit picked k isKernel
  exact ⟨source ▸ kernel, batches ▸ bar⟩

/-- A tooltip on named bars is that of the bar under the cursor. -/
theorem NamesBars.hoverKernel {o : ObservedTimeline} (named : o.NamesBars) {viewport : Viewport}
    {xPx yPx : ℚ} {k : LiveKernel} (shown : o.timeline.hoverKernel viewport xPx yPx = some k) :
    ∃ hit, o.timeline.renderer.pick viewport xPx yPx = some hit ∧ o.BuiltFrom hit k := by
  obtain ⟨hit, picked, isKernel⟩ := Option.bind_eq_some_iff.mp shown
  exact ⟨hit, picked, named viewport xPx yPx hit picked k isKernel⟩

/-- A timeline without a table names no bar. -/
theorem namesBars_of_nil {o : ObservedTimeline} (none : o.timeline.kernelsByBatch = []) :
    o.NamesBars := by
  intro viewport xPx yPx hit _ k isKernel
  rw [Timeline.kernelAt, none] at isKernel
  cases isKernel

/-- Live bars are named by the table that was built with them. -/
theorem namesBars_of_rebuild {o : ObservedTimeline} {kernels : List LiveKernel}
    (batches : o.timeline.renderer.currentBatches =
      (liveKernelsToBatches kernels lanesPerGpu).batches.map InstanceBatch.barBatch)
    (table : o.timeline.kernelsByBatch =
      (liveKernelsToBatches kernels lanesPerGpu).kernelsByBatch)
    (source : o.source = .live kernels) : o.NamesBars := by
  intro viewport xPx yPx hit _ k isKernel
  rw [Timeline.kernelAt, table] at isKernel
  obtain ⟨refs, isRefs, isKernel⟩ := Option.bind_eq_some_iff.mp isKernel
  constructor
  · rw [source]
    rw [kernelsByBatch_eq, List.getElem?_map, Option.map_eq_some_iff] at isRefs
    obtain ⟨gpuId, isGpu, rfl⟩ := isRefs
    exact Option.bind_eq_some_iff.mpr ⟨gpuId, isGpu, isKernel⟩
  · have bars := congrArg (fun columns => columns[hit.batch]?)
      (bars_liveKernelsToBatches kernels lanesPerGpu)
    simp only [List.getElem?_map, isRefs, Option.map_some, Option.map_eq_some_iff] at bars
    obtain ⟨batch, isBatch, bars⟩ := bars
    refine ⟨batch.barBatch, ?_, ?_⟩
    · rw [batches, List.getElem?_map, isBatch, Option.map_some]
    · rw [bars, List.getElem?_map, isKernel, Option.map_some]

theorem timelineLanes_nonneg : ∀ heightPx ∈ timelineLanes, 0 ≤ heightPx := by
  decide +kernel

/-- The lanes of the first batches of a load, by their places. -/
theorem forall_mem_take_activityLanes_iff (activity : List ActivityRow) (count : Nat)
    (outside : Nat → Prop) :
    (∀ lane ∈ (activityLanes lanesPerGpu activity).take count, outside lane) ↔
      ∀ b < count, ∀ batch, (arrowToBatches activity lanesPerGpu)[b]? = some batch →
        outside batch.lane := by
  rw [← lane_arrowToBatches]
  constructor
  · intro all b inCount batch isBatch
    refine all batch.lane (List.mem_of_getElem? (?_ : _[b]? = _))
    rw [List.getElem?_take_of_lt inCount, List.getElem?_map, isBatch, Option.map_some]
  · intro all lane member
    obtain ⟨b, inTake, isLane⟩ := List.mem_take_iff_getElem.mp member
    rw [List.getElem_map] at isLane
    rw [← isLane]
    exact all b (lt_min_iff.mp inTake).1 _ (List.getElem?_eq_getElem _)

/-- Where a batch of a load is in a lane and has a row in the table, some hit is looked up there:
the first bar of the first such batch, before which nothing can be hit. -/
theorem exists_lookup_of_inLane {useSynthetic : Bool} {o : ObservedTimeline}
    (sound : o.Sound useSynthetic) {activity : List ActivityRow}
    (batches : o.timeline.renderer.currentBatches = arrowToBatches activity lanesPerGpu)
    {b : Nat} (inTable : b < o.timeline.kernelsByBatch.length) {batch : BarBatch}
    (isBatch : o.timeline.renderer.currentBatches[b]? = some batch)
    (inLane : batch.lane < o.timeline.renderer.laneHeights.length)
    (first : ∀ earlier < b, ∀ other, o.timeline.renderer.currentBatches[earlier]? = some other →
      o.timeline.renderer.laneHeights.length ≤ other.lane) :
    ∃ viewport xPx yPx hit k, o.timeline.renderer.pick viewport xPx yPx = some hit ∧
      o.timeline.kernelAt hit = some k := by
  have nonneg : ∀ heightPx ∈ o.timeline.renderer.laneHeights, 0 ≤ heightPx :=
    sound.lanes ▸ timelineLanes_nonneg
  have member : batch ∈ arrowToBatches activity lanesPerGpu :=
    batches ▸ List.mem_of_getElem? isBatch
  obtain ⟨nonempty, widths⟩ := bars_arrowToBatches member
  obtain ⟨bar, rest, bars⟩ := List.exists_cons_of_ne_nil nonempty
  obtain ⟨viewport, xPx, yPx, picked⟩ := BarRenderer.exists_pick_first isBatch
    (List.getElem?_eq_getElem inLane) (nonneg _ (List.getElem_mem inLane)) bars
    (widths bar (by simp [bars])) first
  obtain ⟨k, others, isRow⟩ := List.exists_cons_of_ne_nil
    (sound.rows _ (List.getElem_mem inTable))
  refine ⟨viewport, xPx, yPx, _, k, picked, ?_⟩
  rw [Timeline.kernelAt, List.getElem?_eq_getElem inTable, Option.bind_some, isRow]
  rfl

/-- The bars of a load are named by no kernel exactly when none of the batches that have a row in
the table is in a lane. -/
theorem namesBars_of_loaded_iff {useSynthetic : Bool} {o : ObservedTimeline}
    (sound : o.Sound useSynthetic) {activity : List ActivityRow}
    (batches : o.timeline.renderer.currentBatches = arrowToBatches activity lanesPerGpu)
    (source : o.source = .loaded) :
    o.NamesBars ↔
      ∀ lane ∈ (activityLanes lanesPerGpu activity).take o.timeline.kernelsByBatch.length,
        timelineLanes.length ≤ lane := by
  rw [forall_mem_take_activityLanes_iff, ← batches, ← sound.lanes]
  constructor
  · intro named b
    induction b using Nat.strongRecOn with
    | ind b earlier =>
      intro inTable batch isBatch
      by_contra! inLane
      obtain ⟨viewport, xPx, yPx, hit, k, picked, isKernel⟩ :=
        exists_lookup_of_inLane sound batches inTable isBatch inLane
          fun before less => earlier before less (less.trans inTable)
      have built := (named viewport xPx yPx hit picked k isKernel).kernel
      rw [source] at built
      cases built
  · intro outside viewport xPx yPx hit picked k isKernel
    obtain ⟨batch, bar, isBatch, inLane, _⟩ := BarRenderer.bar_of_pick picked
    obtain ⟨refs, isRow, _⟩ := Option.bind_eq_some_iff.mp isKernel
    have inTable := (List.getElem?_eq_some_iff.mp isRow).1
    exact absurd inLane (not_lt.mpr (outside hit.batch inTable batch isBatch))

/-- After an event, the bars are named as before, unless it is a load that shows its first batches
in the lanes. -/
theorem namesBars_step_iff {useSynthetic : Bool} {o : ObservedTimeline}
    (sound : o.Sound useSynthetic) (named : o.NamesBars) (event : TimelineEvent) :
    (o.step useSynthetic event).NamesBars ↔ o.timeline.LoadsOutside event := by
  have after := sound.step event
  cases event with
  | load startNs liveSeries bars clientWidth =>
    refine iff_of_true ?_ trivial
    cases useSynthetic with
    | true => exact namesBars_of_nil (after.synthetic rfl)
    | false => cases liveSeries <;> exact named.congr rfl rfl rfl rfl
  | rebuild liveKernels clientWidth =>
    refine iff_of_true ?_ trivial
    cases useSynthetic with
    | true => exact namesBars_of_nil (after.synthetic rfl)
    | false =>
      cases liveKernels with
      | none => exact named.congr rfl rfl rfl rfl
      | some kernels => exact namesBars_of_rebuild rfl rfl rfl
  | fetched activity clientWidth =>
    by_cases idle : o.timeline.fetching = 0
    · have same : o.step useSynthetic (.fetched activity clientWidth) = o := by
        simp only [ObservedTimeline.step, Timeline.step, Timeline.fetched, idle, if_true]
      rw [same]
      exact iff_of_true named (.inl idle)
    · have shown : o.step useSynthetic (.fetched activity clientWidth) =
          ⟨⟨o.timeline.renderer.setActivity (arrowToBatches activity lanesPerGpu) clientWidth,
            o.timeline.kernelsByBatch, o.timeline.fetching - 1⟩, .loaded⟩ := by
        simp only [ObservedTimeline.step, Timeline.step, Timeline.fetched, idle, if_false]
      rw [shown] at after ⊢
      exact (namesBars_of_loaded_iff after rfl rfl).trans (or_iff_right idle).symm
  | fetchFailed => exact iff_of_true (named.congr rfl rfl rfl rfl) trivial
  | resize widthPx dpr clientWidth =>
    exact iff_of_true (named.congr (laneHeights_resize _ _ _ _) (currentBatches_resize _ _ _ _)
      rfl rfl) trivial

end ObservedTimeline

/-! ### Runs -/

/-- The bars are named throughout a run exactly when every load that comes back shows its first
batches, as many as the table is long, outside the lanes of the timeline. -/
theorem hover_namesBars_iff (useSynthetic : Bool) (canvasWidth : ℕ+)
    (events : List TimelineEvent) :
    (∀ before, before <+: events →
        (timelineAfter useSynthetic canvasWidth before).NamesBars) ↔
      ∀ before event, before ++ [event] <+: events →
        (timelineAfter useSynthetic canvasWidth before).timeline.LoadsOutside event :=
  @run_always_iff _ _ _ _ (fun _ => True) (ObservedTimeline.Sound useSynthetic)
    ObservedTimeline.NamesBars (fun o event => o.timeline.LoadsOutside event)
    ⟨rfl, fun _ absent => absurd absent List.not_mem_nil, fun _ => rfl⟩
    (ObservedTimeline.namesBars_of_nil rfl) (fun _ event _ sound => sound.step event)
    (fun _ event _ sound named => ObservedTimeline.namesBars_step_iff sound named event) events
    fun _ _ => trivial

/-- A kernel of the first GPU, of 50 ms from second 20 on. -/
def staleKernel : LiveKernel := ⟨20000000000, 50000000, 1, 0, ['7'], ['8']⟩

/-- A tile of kernels on the first GPU, of the second from 30 on. -/
def kernelTile : ActivityRow := ⟨30000000000, 1000000000, 0, 3, 9⟩

/-- On a view of a minute the live mode is left after a rebuild, and the tile of the load is named
by the kernel. -/
theorem exists_stale_hover :
    ∃ (events : List TimelineEvent) (viewport : Viewport) (xPx yPx : ℚ) (hit : Hit)
      (k : LiveKernel), viewport.startNs < viewport.endNs ∧ 0 < viewport.widthPx ∧
        (timelineAfter false 600 events).timeline.renderer.pick viewport xPx yPx = some hit ∧
        (timelineAfter false 600 events).timeline.hoverKernel viewport xPx yPx = some k ∧
        ¬ (timelineAfter false 600 events).BuiltFrom hit k := by
  let events : List TimelineEvent :=
    [.load 0 true [] 600, .rebuild (some [staleKernel]) 600, .load 0 false [] 600,
      .rebuild none 600, .fetched [kernelTile] 600]
  refine ⟨events, ⟨0, 60000000000, 600⟩, 305, 210, ⟨6, 0, 0⟩, staleKernel, by decide, by norm_num,
    ?_, ?_, fun built => ?_⟩
  · decide +kernel
  · decide +kernel
  · cases built.kernel

end PerfWeave
