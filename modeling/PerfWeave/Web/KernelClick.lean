/-
This file models what a click on a bar of the live kernels leads to: the rings and batches of
`web/src/timeline/Timeline.tsx`, the hit test of `renderer.ts` and the query of
`web/src/panels/SidePanel.tsx`. A bar carries the low word of its kernel's name id, as a 32-bit
float, and the panel takes what a click finds there for a correlation id. The positions on the
canvas are exact numbers; the timestamps of the ring are integers, which `Math.floor` leaves alone.
An id is written out in full, as JavaScript does below `2 ^ 53`.
-/

import PerfWeave.Server.Ingest
import PerfWeave.Web.LiveIds

namespace PerfWeave

/-! ### The ring -/

/-- `LiveKernel`: a kernel as the browser keeps it, its ids as texts. -/
structure LiveKernel where
  tsNs : Nat
  durationNs : Nat
  nodeId : Nat
  gpuId : Nat
  correlationId : List Char
  nameId : List Char
  deriving DecidableEq

/-- The listener for `kernel`: what it makes of an event of the live stream. -/
def LiveKernel.ofEvent (e : LiveKernelEvent) : LiveKernel where
  tsNs := parseInteger (jsonInteger e.tsNs.toNat)
  durationNs := parseInteger (jsonInteger e.durationNs.toNat)
  nodeId := parseInteger (jsonInteger e.nodeId.toNat)
  gpuId := parseInteger (jsonInteger e.gpuId.toNat)
  correlationId := numberToString (parseInteger (jsonInteger e.correlationId.toNat))
  nameId := numberToString (parseInteger (jsonInteger e.nameId.toNat))

/-- `KERNEL_RING_SIZE`. -/
def kernelRingSize : Nat := 200000

/-- The ring after an event. -/
def handleKernel (ring : List LiveKernel) (e : LiveKernelEvent) : List LiveKernel :=
  (ring ++ [LiveKernel.ofEvent e]).rtake kernelRingSize

/-! ### The bars -/

/-- `InstanceBatch`: the bars of one lane. -/
structure InstanceBatch where
  lane : Nat
  colorId : Nat
  starts : List Nat
  widths : List Nat
  corrLo : List Nat
  deriving DecidableEq

/-- `METRIC_SLOTS`. -/
def metricSlots : Nat := 6

/-- The low word of the name id of a kernel; zero when the id is not a number. -/
def LiveKernel.nameLo (k : LiveKernel) : Nat :=
  match bigInt k.nameId with
  | some nameId => nameId &&& 0xffffffff
  | none => 0

/-- A 32-bit float that holds an integer. -/
def float32 (n : Nat) : Nat := roundSignificant 24 n

/-- The kernels of one GPU, as `liveKernelsToBatches` collects them. -/
structure GpuBars where
  gpuId : Nat
  s : List Nat
  w : List Nat
  nameLo : List Nat
  refs : List LiveKernel

namespace GpuBars

/-- A GPU without kernels. -/
def empty (gpuId : Nat) : GpuBars := ⟨gpuId, [], [], [], []⟩

/-- One more kernel of the GPU. -/
def push (g : GpuBars) (k : LiveKernel) : GpuBars where
  gpuId := g.gpuId
  s := g.s ++ [k.tsNs]
  w := g.w ++ [max 1 k.durationNs]
  nameLo := g.nameLo ++ [k.nameLo]
  refs := g.refs ++ [k]

/-- The batch of the GPU. -/
def batch (lanesPerGpu : Nat) (g : GpuBars) : InstanceBatch where
  lane := g.gpuId * lanesPerGpu + metricSlots + 0
  colorId := 0
  starts := g.s
  widths := g.w
  corrLo := g.nameLo.map float32

end GpuBars

/-- The loop of `liveKernelsToBatches` over one kernel; the GPUs stand in the order of their
first kernels. -/
def addKernel (perGpu : List GpuBars) (k : LiveKernel) : List GpuBars :=
  if perGpu.any (·.gpuId = k.gpuId) then
    perGpu.map fun g => if g.gpuId = k.gpuId then g.push k else g
  else perGpu ++ [(GpuBars.empty k.gpuId).push k]

/-- What `liveKernelsToBatches` returns: the batches and, beside them, the kernels of their bars. -/
structure KernelBatches where
  batches : List InstanceBatch
  kernelsByBatch : List (List LiveKernel)

/-- `liveKernelsToBatches`. -/
def liveKernelsToBatches (kernels : List LiveKernel) (lanesPerGpu : Nat) : KernelBatches :=
  let perGpu := kernels.foldl addKernel []
  ⟨perGpu.map (GpuBars.batch lanesPerGpu), perGpu.map GpuBars.refs⟩

/-! ### The hit test -/

/-- The renderer as far as a click reads it: the heights of its lanes, the origin of its time axis
and the bars it shows. -/
structure TimelineRenderer where
  laneHeights : List ℚ
  baselineNs : Int
  currentBatches : List InstanceBatch

/-- `laneTopPx`. -/
def laneTopPx (laneHeights : List ℚ) (laneIndex : Nat) : ℚ :=
  ((List.range laneIndex).map fun i => laneHeights[i]?.getD 22).sum

/-- A click: the viewport it is made in, its place, and what decides what it means. -/
structure Click where
  startNs : Int
  endNs : Int
  widthPx : ℚ
  xPx : ℚ
  yPx : ℚ
  lastDragMoved : Bool
  shiftKey : Bool
  measureAnchor : Option Int

/-- The bar a click hits. -/
structure Hit where
  lane : Nat
  index : Nat
  batch : Nat
  deriving DecidableEq

/-- The first bar of a batch that a time falls into. -/
def hitBar (baseline tsHit : ℚ) (b : InstanceBatch) : Option Nat :=
  (b.starts.zip b.widths).findIdx? fun bar =>
    let s := bar.1 - baseline
    tsHit ≥ s && tsHit ≤ s + bar.2

/-- `pick`: the first bar at the place of a click. -/
def TimelineRenderer.pick (r : TimelineRenderer) (click : Click) : Option Hit :=
  let baseline : ℚ := r.baselineNs
  let startF := click.startNs - baseline
  let endF := click.endNs - baseline
  let tsHit := startF + click.xPx / click.widthPx * (endF - startF)
  r.currentBatches.zipIdx.findSome? fun b =>
    match r.laneHeights[b.1.lane]? with
    | none => none
    | some heightPx =>
      let laneTop := laneTopPx r.laneHeights b.1.lane
      if click.yPx < laneTop ∨ click.yPx > laneTop + heightPx then none
      else (hitBar baseline tsHit b.1).map fun index => ⟨b.1.lane, index, b.2⟩

/-! ### The click and the panel -/

/-- `| 0`: the conversion of an integer to a signed 32-bit one. -/
def toInt32 (n : Nat) : Int := (n : Int).bmod (2 ^ 32)

/-- `Selection`. -/
structure Selection where
  correlationLo : Int
  startNs : Int
  endNs : Int
  lane : Nat
  deriving DecidableEq

/-- What a click amounts to: the end of a drag, a measurement, a selection or, off the bars, the
end of one. -/
inductive ClickOutcome where
  | panned
  | measured (anchorNs startNs : Int)
  | selected (selection : Selection)
  | cleared
  deriving DecidableEq

/-- `onClick`. What lies outside an array reads as zero. -/
def onClick (r : TimelineRenderer) (click : Click) : ClickOutcome :=
  if click.lastDragMoved then .panned
  else
    match r.pick click with
    | none => .cleared
    | some hit =>
      match r.currentBatches[hit.batch]? with
      | none => .cleared
      | some batch =>
        let corr := toInt32 (batch.corrLo[hit.index]?.getD 0)
        let startNs : Int := batch.starts[hit.index]?.getD 0
        let endNs := startNs + batch.widths[hit.index]?.getD 0
        match click.shiftKey, click.measureAnchor with
        | true, some anchor => .measured anchor startNs
        | _, _ => .selected ⟨corr, startNs, endNs, hit.lane⟩

/-- The id the panel passes to `fetchCorrelated`, if it asks for correlated events. -/
def correlatedQuery (useSynthetic : Bool) (selection : Option Selection) : Option Int :=
  if useSynthetic then none else selection.map Selection.correlationLo

/-- The kernel of a bar, by the table that stands beside the batches. -/
def KernelBatches.kernelAt (built : KernelBatches) (hit : Hit) : Option LiveKernel :=
  built.kernelsByBatch[hit.batch]?.bind fun refs => refs[hit.index]?

/-! ### What a bar carries -/

/-- The arrays of a GPU run parallel to its kernels, which are kernels of the ring. -/
structure GpuBars.Built (kernels : List LiveKernel) (g : GpuBars) : Prop where
  s : g.s = g.refs.map LiveKernel.tsNs
  w : g.w = g.refs.map fun k => max 1 k.durationNs
  nameLo : g.nameLo = g.refs.map LiveKernel.nameLo
  refs : ∀ k ∈ g.refs, k ∈ kernels

theorem GpuBars.Built.mono {kernels more : List LiveKernel} {g : GpuBars}
    (built : g.Built kernels) (subset : kernels ⊆ more) : g.Built more :=
  { built with refs := fun k member => subset (built.refs k member) }

theorem GpuBars.Built.push {kernels : List LiveKernel} {g : GpuBars} (built : g.Built kernels)
    {k : LiveKernel} (member : k ∈ kernels) : (g.push k).Built kernels where
  s := by
    rw [GpuBars.push, built.s, List.map_append, List.map_singleton]
  w := by
    rw [GpuBars.push, built.w, List.map_append, List.map_singleton]
  nameLo := by
    rw [GpuBars.push, built.nameLo, List.map_append, List.map_singleton]
  refs := by
    intro other inRefs
    rcases List.mem_append.mp inRefs with before | last
    · exact built.refs other before
    · exact List.mem_singleton.mp last ▸ member

theorem built_addKernel {kernels : List LiveKernel} {perGpu : List GpuBars}
    (built : ∀ g ∈ perGpu, g.Built kernels) {k : LiveKernel} (member : k ∈ kernels) :
    ∀ g ∈ addKernel perGpu k, g.Built kernels := by
  intro g inResult
  unfold addKernel at inResult
  split at inResult
  · obtain ⟨source, inPerGpu, rfl⟩ := List.mem_map.mp inResult
    split
    · exact (built source inPerGpu).push member
    · exact built source inPerGpu
  · rcases List.mem_append.mp inResult with before | last
    · exact built g before
    · rw [List.mem_singleton.mp last]
      have empty : (GpuBars.empty k.gpuId).Built kernels := ⟨rfl, rfl, rfl, List.forall_mem_nil _⟩
      exact empty.push member

/-- Every GPU of the loop is built from kernels of the ring. -/
theorem built_perGpu (kernels : List LiveKernel) :
    ∀ g ∈ kernels.foldl addKernel [], g.Built kernels := by
  induction kernels using List.reverseRecOn with
  | nil => exact List.forall_mem_nil _
  | append_singleton kernels last inductionHypothesis =>
    rw [List.foldl_append, List.foldl_cons, List.foldl_nil]
    refine built_addKernel (fun g member => ?_) (List.mem_append_right _ List.mem_cons_self)
    exact (inductionHypothesis g member).mono (List.subset_append_left _ _)

/-- A bar is that of a kernel of the ring, and carries the low word of its name id as a float. -/
theorem corrLo_of_bar {kernels : List LiveKernel} {lanesPerGpu : Nat} {hit : Hit}
    {batch : InstanceBatch}
    (isBatch : (liveKernelsToBatches kernels lanesPerGpu).batches[hit.batch]? = some batch)
    (inBatch : hit.index < batch.starts.length) :
    ∃ k, (liveKernelsToBatches kernels lanesPerGpu).kernelAt hit = some k ∧ k ∈ kernels ∧
      batch.corrLo[hit.index]? = some (float32 k.nameLo) := by
  unfold liveKernelsToBatches at isBatch
  simp only [List.getElem?_map, Option.map_eq_some_iff] at isBatch
  obtain ⟨g, isGpu, rfl⟩ := isBatch
  have built := built_perGpu kernels g (List.mem_of_getElem? isGpu)
  have inRefs : hit.index < g.refs.length := by
    rwa [GpuBars.batch, built.s, List.length_map] at inBatch
  refine ⟨g.refs[hit.index], ?_, built.refs _ (List.getElem_mem inRefs), ?_⟩
  · unfold KernelBatches.kernelAt liveKernelsToBatches
    simp only [List.getElem?_map, isGpu, Option.map_some, Option.bind_some]
    exact List.getElem?_eq_getElem inRefs
  · rw [GpuBars.batch, built.nameLo, List.getElem?_map, List.getElem?_map,
      List.getElem?_eq_getElem inRefs]
    rfl

/-- A hit is a bar that the renderer shows. -/
theorem bar_of_pick {r : TimelineRenderer} {click : Click} {hit : Hit}
    (picked : r.pick click = some hit) :
    ∃ batch, r.currentBatches[hit.batch]? = some batch ∧ hit.index < batch.starts.length := by
  unfold TimelineRenderer.pick at picked
  obtain ⟨⟨batch, number⟩, inBatches, found⟩ := List.exists_of_findSome?_eq_some picked
  cases lane : r.laneHeights[batch.lane]? with
  | none =>
    simp only [lane] at found
    exact absurd found nofun
  | some heightPx =>
    simp only [lane] at found
    split at found
    · exact absurd found nofun
    · obtain ⟨index, isBar, rfl⟩ := Option.map_eq_some_iff.mp found
      refine ⟨batch, List.mem_zipIdx_iff_getElem?.mp inBatches, ?_⟩
      obtain ⟨inRange, _⟩ := List.findIdx?_eq_some_iff_getElem.mp isBar
      rw [List.length_zip] at inRange
      exact inRange.trans_le (min_le_left _ _)

/-! ### The id that is asked for -/

/-- The low word of a name id that is a correlation id: rounded to 24 significant bits it is the
correlation id and below `2^31`, or it is `2^32` and the correlation id zero. -/
def LiveKernel.NameIsCorrelation (k : LiveKernel) : Prop :=
  (roundSignificant 24 k.nameLo < 2 ^ 31 ∧
      bigInt k.correlationId = some (roundSignificant 24 k.nameLo)) ∨
    (roundSignificant 24 k.nameLo = 2 ^ 32 ∧ bigInt k.correlationId = some 0)

theorem toInt32_eq_iff {n : Nat} (bounded : n ≤ 2 ^ 32) (correlationId : Nat) :
    toInt32 n = correlationId ↔
      n < 2 ^ 31 ∧ correlationId = n ∨ n = 2 ^ 32 ∧ correlationId = 0 := by
  unfold toInt32
  rw [Int.bmod_def]
  split_ifs <;> omega

theorem LiveKernel.nameLo_lt (k : LiveKernel) : k.nameLo < 2 ^ 32 := by
  unfold nameLo
  cases bigInt k.nameId with
  | none => exact Nat.two_pow_pos 32
  | some nameId => exact Nat.and_lt_two_pow nameId (by decide)

theorem LiveKernel.toInt32_nameLo_iff (k : LiveKernel) :
    some (toInt32 (float32 k.nameLo)) = (bigInt k.correlationId).map Int.ofNat ↔
      k.NameIsCorrelation := by
  have bounded : roundSignificant 24 k.nameLo ≤ 2 ^ 32 :=
    roundSignificant_le_of_fitsIn (by decide) ⟨1, 32, by decide, rfl⟩ k.nameLo_lt.le
  unfold NameIsCorrelation float32
  cases bigInt k.correlationId with
  | none => simp
  | some correlationId =>
    rw [Option.map_some, Option.some.injEq, Option.some.injEq, Option.some.injEq]
    exact toInt32_eq_iff bounded correlationId

/-- A click that selects has hit a bar, and takes its id from there. -/
theorem hit_of_onClick {r : TimelineRenderer} {click : Click} {selection : Selection}
    (selects : onClick r click = .selected selection) :
    ∃ hit batch, r.pick click = some hit ∧ r.currentBatches[hit.batch]? = some batch ∧
      selection.correlationLo = toInt32 (batch.corrLo[hit.index]?.getD 0) := by
  unfold onClick at selects
  split at selects
  · exact absurd selects nofun
  · cases picked : r.pick click with
    | none =>
      simp only [picked] at selects
      exact absurd selects nofun
    | some hit =>
      simp only [picked] at selects
      cases isBatch : r.currentBatches[hit.batch]? with
      | none =>
        simp only [isBatch] at selects
        exact absurd selects nofun
      | some batch =>
        simp only [isBatch] at selects
        refine ⟨hit, batch, rfl, isBatch, ?_⟩
        split at selects
        · exact absurd selects nofun
        · rw [← ClickOutcome.selected.inj selects]

/-- A click that selects a bar of the live kernels hits the bar of some kernel of the ring, and the
panel then asks for the correlation id of that kernel exactly when the low word of its name id is
its correlation id. -/
theorem click_asks_correlation_iff (kernels : List LiveKernel) (lanesPerGpu : Nat)
    (laneHeights : List ℚ) (baselineNs : Int) (click : Click) (selection : Selection)
    (selects : onClick ⟨laneHeights, baselineNs,
      (liveKernelsToBatches kernels lanesPerGpu).batches⟩ click = .selected selection) :
    ∃ hit k, TimelineRenderer.pick ⟨laneHeights, baselineNs,
        (liveKernelsToBatches kernels lanesPerGpu).batches⟩ click = some hit ∧
      (liveKernelsToBatches kernels lanesPerGpu).kernelAt hit = some k ∧ k ∈ kernels ∧
      (correlatedQuery false (some selection) = (bigInt k.correlationId).map Int.ofNat ↔
        k.NameIsCorrelation) := by
  obtain ⟨hit, batch, picked, isBatch, corr⟩ := hit_of_onClick selects
  obtain ⟨shown, sameBatch, inBatch⟩ := bar_of_pick picked
  obtain rfl := Option.some.inj (isBatch.symm.trans sameBatch)
  obtain ⟨k, isKernel, inRing, corrLo⟩ := corrLo_of_bar isBatch inBatch
  refine ⟨hit, k, picked, isKernel, inRing, ?_⟩
  rw [correlatedQuery, if_neg Bool.false_ne_true, Option.map_some, corr, corrLo, Option.getD_some]
  exact k.toInt32_nameLo_iff

/-- A kernel of GPU 0 with the given texts of its ids. -/
def kernelWithIds (correlationId nameId : String) : LiveKernel :=
  ⟨10, 10, 1, 0, correlationId.toList, nameId.toList⟩

/-- A click on the kernel lane of GPU 0, at its fifteenth nanosecond. -/
def clickOnKernel : Click := ⟨0, 100, 100, 15, 100, false, false, none⟩

theorem click_asks_correlation_seven :
    ∃ hit k, TimelineRenderer.pick ⟨List.replicate 9 16, 0,
        (liveKernelsToBatches [kernelWithIds "7" "7"] 9).batches⟩ clickOnKernel = some hit ∧
      (liveKernelsToBatches [kernelWithIds "7" "7"] 9).kernelAt hit = some k ∧
      k ∈ [kernelWithIds "7" "7"] ∧
      (correlatedQuery false (some ⟨7, 10, 20, 6⟩) = (bigInt k.correlationId).map Int.ofNat ↔
        k.NameIsCorrelation) :=
  click_asks_correlation_iff [kernelWithIds "7" "7"] 9 (List.replicate 9 16) 0 clickOnKernel
    ⟨7, 10, 20, 6⟩ (by decide +kernel)

/-- A click on a kernel with the correlation id 7 asks for its name id. -/
theorem exists_click_asks_other_correlation :
    ¬ ∀ (kernels : List LiveKernel) (lanesPerGpu : Nat) (laneHeights : List ℚ) (baselineNs : Int)
        (click : Click) (selection : Selection) (hit : Hit) (k : LiveKernel),
      onClick ⟨laneHeights, baselineNs, (liveKernelsToBatches kernels lanesPerGpu).batches⟩ click =
          .selected selection →
        TimelineRenderer.pick ⟨laneHeights, baselineNs,
          (liveKernelsToBatches kernels lanesPerGpu).batches⟩ click = some hit →
        (liveKernelsToBatches kernels lanesPerGpu).kernelAt hit = some k →
        correlatedQuery false (some selection) = (bigInt k.correlationId).map Int.ofNat := by
  intro asks
  have asked := asks [kernelWithIds "7" "12345"] 9 (List.replicate 9 16) 0 clickOnKernel
    ⟨12345, 10, 20, 6⟩ ⟨6, 0, 0⟩ (kernelWithIds "7" "12345") (by decide +kernel)
    (by decide +kernel) (by decide +kernel)
  exact absurd asked (by decide +kernel)

end PerfWeave
