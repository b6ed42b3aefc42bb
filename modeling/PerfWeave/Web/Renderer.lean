/-
This file models the activity bars of `web/src/timeline/renderer.ts` over any sequence of calls:
the instance buffer `setActivity` uploads and `resize` uploads again, the place where the vertex
shader of `shaders.ts` puts a bar, and the time test of `pick`. Positions are exact numbers; a
quotient by zero has no value, and no place on the canvas is one.

The buffer holds times since the baseline of the upload, while the uniforms and the hit test take
the baseline of the call, so the two agree as long as the baseline is that of the last upload.
-/

import PerfWeave.Library.Run
import PerfWeave.Web.KernelClick

namespace PerfWeave

/-! ### The renderer -/

/-- A quotient of numbers, where it exists. -/
def quotient (numerator denominator : ℚ) : Option ℚ :=
  if denominator = 0 then none else some (numerator / denominator)

/-- `Viewport`, without its height. -/
structure Viewport where
  startNs : Int
  endNs : Int
  widthPx : ℚ

/-- One bar of an `InstanceBatch`. -/
structure Bar where
  startNs : ℚ
  widthNs : ℚ
  corrLo : ℚ

/-- `InstanceBatch`, its arrays read bar by bar. -/
structure BarBatch where
  lane : Nat
  colorId : Nat
  bars : List Bar

/-- The five floats of a bar in the instance buffer. -/
structure BarInstance where
  start : ℚ
  width : ℚ
  yTopDevicePx : Option ℚ
  colorId : Nat
  corrLo : ℚ

/-- The fields of `TimelineRenderer` that concern the bars. -/
structure BarRenderer where
  laneHeights : List ℚ
  baselineNs : Int
  currentBatches : List BarBatch
  instances : List BarInstance
  lastUploadDpr : Option ℚ
  canvasWidth : ℕ+

/-- The renderer of a new canvas. -/
def BarRenderer.created (canvasWidth : ℕ+) : BarRenderer where
  laneHeights := []
  baselineNs := 0
  currentBatches := []
  instances := []
  lastUploadDpr := some 0
  canvasWidth := canvasWidth

/-- What `setActivity` writes for a batch. -/
def BarBatch.instances (batch : BarBatch) (baselineNs : Int) (yTopDevicePx : Option ℚ) :
    List BarInstance :=
  batch.bars.map fun bar =>
    ⟨bar.startNs - baselineNs, bar.widthNs, yTopDevicePx, batch.colorId, bar.corrLo⟩

namespace BarRenderer

/-- `dpr()`; none stands for the infinite ratio of a canvas that has no width on the page. -/
def dpr (r : BarRenderer) (clientWidth : Nat) : Option ℚ := quotient r.canvasWidth clientWidth

/-- `setActivity`. -/
def setActivity (r : BarRenderer) (batches : List BarBatch) (clientWidth : Nat) : BarRenderer :=
  let dpr := r.dpr clientWidth
  { r with
    currentBatches := batches
    instances := batches.flatMap fun batch =>
      batch.instances r.baselineNs (dpr.map (laneTopPx r.laneHeights batch.lane * ·))
    lastUploadDpr := dpr }

/-- Whether `resize` finds that the ratio has changed since the last upload. -/
def dprFlipped (r : BarRenderer) (dpr : ℚ) : Bool :=
  let flipped := match r.lastUploadDpr with
    | none => true
    | some last => last ≠ 0 && |last - dpr| > 1 / 1000
  flipped && !r.currentBatches.isEmpty

/-- `resize`. -/
def resize (r : BarRenderer) (widthPx dpr : ℚ) (clientWidth : Nat) : BarRenderer :=
  let resized := { r with canvasWidth := Nat.toPNat' ⌊widthPx * dpr⌋.toNat }
  if r.dprFlipped dpr then resized.setActivity r.currentBatches clientWidth else resized

/-! ### Drawing and picking -/

/-- The uniform `u_view_range_ns`. -/
def viewRange (r : BarRenderer) (viewport : Viewport) : ℚ × ℚ :=
  (viewport.startNs - r.baselineNs, viewport.endNs - r.baselineNs)

end BarRenderer

/-- The vertex shader: the horizontal place of a corner of a bar, from -1 to 1 over the canvas. -/
def BarInstance.xClip (bar : BarInstance) (viewRange : ℚ × ℚ) (cornerX : ℚ) : Option ℚ :=
  let width := max bar.width 0
  let xNs := bar.start + cornerX * width
  let range := viewRange.2 - viewRange.1
  (quotient (xNs - viewRange.1) range).map fun xNorm => xNorm * 2 - 1

/-- The pixel of a place on the canvas. -/
def Viewport.pixel (viewport : Viewport) (xClip : ℚ) : ℚ := (xClip + 1) / 2 * viewport.widthPx

namespace BarRenderer

/-- The pixels between which a bar is drawn. -/
def drawn (r : BarRenderer) (viewport : Viewport) (bar : BarInstance) : Option (ℚ × ℚ) := do
  let left ← bar.xClip (r.viewRange viewport) 0
  let right ← bar.xClip (r.viewRange viewport) 1
  return (viewport.pixel left, viewport.pixel right)

/-- `render`: the bars of the instance buffer. -/
def render (r : BarRenderer) (viewport : Viewport) : List (Option (ℚ × ℚ)) :=
  r.instances.map (r.drawn viewport)

/-- The time under a pixel, since the baseline. -/
def tsHit (r : BarRenderer) (viewport : Viewport) (xPx : ℚ) : Option ℚ := do
  let (startF, endF) := r.viewRange viewport
  let range := endF - startF
  let share ← quotient xPx viewport.widthPx
  return startF + share * range

/-- The time test of `pick`; a comparison with what is no number fails. -/
def accepts (r : BarRenderer) (viewport : Viewport) (xPx : ℚ) (bar : Bar) : Bool :=
  match r.tsHit viewport xPx with
  | none => false
  | some tsHit =>
    let s := bar.startNs - r.baselineNs
    tsHit ≥ s && tsHit ≤ s + bar.widthNs

/-- `pick`. -/
def pick (r : BarRenderer) (viewport : Viewport) (xPx yPx : ℚ) : Option Hit :=
  r.currentBatches.zipIdx.findSome? fun b =>
    match r.laneHeights[b.1.lane]? with
    | none => none
    | some heightPx =>
      let laneTop := laneTopPx r.laneHeights b.1.lane
      if yPx < laneTop ∨ yPx > laneTop + heightPx then none
      else (b.1.bars.findIdx? (r.accepts viewport xPx)).map fun index => ⟨b.1.lane, index, b.2⟩

end BarRenderer

/-! ### Calls -/

/-- A call on the renderer, with the width of the canvas on the page where it is read. -/
inductive RendererCall where
  | setLanes (laneHeights : List ℚ)
  | setBaseline (baselineNs : Int)
  | setActivity (batches : List BarBatch) (clientWidth : Nat)
  | resize (widthPx dpr : ℚ) (clientWidth : Nat)
  | render (viewport : Viewport)
  | pick (viewport : Viewport) (xPx yPx : ℚ)

/-- The renderer after a call. -/
def BarRenderer.step (r : BarRenderer) : RendererCall → BarRenderer
  | .setLanes laneHeights => { r with laneHeights := laneHeights }
  | .setBaseline baselineNs => { r with baselineNs := baselineNs }
  | .setActivity batches clientWidth => r.setActivity batches clientWidth
  | .resize widthPx dpr clientWidth => r.resize widthPx dpr clientWidth
  | .render _ | .pick .. => r

/-- Whether a call fills the instance buffer. -/
def BarRenderer.uploads (r : BarRenderer) : RendererCall → Bool
  | .setActivity .. => true
  | .resize _ dpr _ => r.dprFlipped dpr
  | _ => false

/-- A renderer with the baseline of its last upload. -/
structure ObservedRenderer where
  renderer : BarRenderer
  uploadBaselineNs : Int

/-- A call that is observed. -/
def ObservedRenderer.step (o : ObservedRenderer) (call : RendererCall) : ObservedRenderer where
  renderer := o.renderer.step call
  uploadBaselineNs :=
    if o.renderer.uploads call then o.renderer.baselineNs else o.uploadBaselineNs

/-- The renderer after the calls. -/
def rendererAfter (canvasWidth : ℕ+) (calls : List RendererCall) : BarRenderer :=
  run BarRenderer.step (.created canvasWidth) calls

/-- The baseline at the last of the calls that filled the instance buffer. -/
def uploadBaselineAfter (canvasWidth : ℕ+) (calls : List RendererCall) : Int :=
  (run ObservedRenderer.step ⟨.created canvasWidth, 0⟩ calls).uploadBaselineNs

theorem observed_renderer (canvasWidth : ℕ+) (calls : List RendererCall) :
    (run ObservedRenderer.step ⟨.created canvasWidth, 0⟩ calls).renderer =
      rendererAfter canvasWidth calls :=
  run_simulation (motive := fun (o : ObservedRenderer) r => o.renderer = r) rfl
    (fun _ _ call same => congrArg (BarRenderer.step · call) same) calls

/-! ### The instance buffer -/

/-- The buffer holds the bars of the current batches, by their times since a baseline. -/
def BarRenderer.Holds (r : BarRenderer) (baselineNs : Int) : Prop :=
  r.instances.map (fun bar => (bar.start, bar.width)) =
    r.currentBatches.flatMap fun batch => batch.bars.map fun bar =>
      (bar.startNs - (baselineNs : ℚ), bar.widthNs)

theorem BarRenderer.setActivity_holds (r : BarRenderer) (batches : List BarBatch)
    (clientWidth : Nat) : (r.setActivity batches clientWidth).Holds r.baselineNs := by
  simp only [Holds, setActivity, List.map_flatMap, BarBatch.instances, List.map_map]
  rfl

/-- A call keeps what the buffer holds, as long as the baseline of the upload is kept with it. -/
theorem ObservedRenderer.step_holds (o : ObservedRenderer) (call : RendererCall)
    (holds : o.renderer.Holds o.uploadBaselineNs) :
    (o.step call).renderer.Holds (o.step call).uploadBaselineNs := by
  cases call with
  | setLanes | setBaseline | render | pick => exact holds
  | setActivity batches clientWidth =>
    exact o.renderer.setActivity_holds batches clientWidth
  | resize widthPx dpr clientWidth =>
    by_cases flipped : o.renderer.dprFlipped dpr
    · simp only [step, BarRenderer.step, BarRenderer.resize, BarRenderer.uploads, flipped, if_true]
      exact BarRenderer.setActivity_holds _ _ clientWidth
    · simp only [step, BarRenderer.step, BarRenderer.resize, BarRenderer.uploads, flipped]
      exact holds

theorem rendererAfter_holds (canvasWidth : ℕ+) (calls : List RendererCall) :
    (rendererAfter canvasWidth calls).Holds (uploadBaselineAfter canvasWidth calls) := by
  have initial : (BarRenderer.created canvasWidth).Holds 0 := rfl
  rw [← observed_renderer]
  exact run_induction (motive := fun _ (o : ObservedRenderer) =>
    o.renderer.Holds o.uploadBaselineNs) initial
    (fun _ call holds => ObservedRenderer.step_holds _ call holds) calls

/-- The place of a bar in the instance buffer. -/
def BarRenderer.instanceIndex (r : BarRenderer) (batch bar : Nat) : Nat :=
  ((r.currentBatches.take batch).map fun batch => batch.bars.length).sum + bar

theorem getElem?_flatMap_map {First Second Third : Type} (parts : First → List Second)
    (image : Second → Third) (items : List First) (outer inner : Nat) {item : First}
    {part : Second} (isItem : items[outer]? = some item)
    (isPart : (parts item)[inner]? = some part) :
    (items.flatMap fun item => (parts item).map image)[
      ((items.take outer).map fun item => (parts item).length).sum + inner]? =
      some (image part) := by
  induction items generalizing outer with
  | nil => cases isItem
  | cons first rest inductionHypothesis =>
    cases outer with
    | zero =>
      obtain rfl := Option.some.inj isItem
      have inside : inner < ((parts first).map image).length := by
        rw [List.length_map]
        exact (List.getElem?_eq_some_iff.mp isPart).1
      rw [List.flatMap_cons, List.take_zero, List.map_nil, List.sum_nil, Nat.zero_add,
        List.getElem?_append_left inside, List.getElem?_map, isPart, Option.map_some]
    | succ outer =>
      rw [List.flatMap_cons, List.take_succ_cons, List.map_cons, List.sum_cons, Nat.add_assoc,
        List.getElem?_append_right (by rw [List.length_map]; exact Nat.le_add_right _ _),
        List.length_map, Nat.add_sub_cancel_left]
      exact inductionHypothesis outer isItem

/-- The instance of a bar has the time of the bar since the baseline of the upload. -/
theorem BarRenderer.Holds.instance_eq {r : BarRenderer} {baselineNs : Int}
    (holds : r.Holds baselineNs) {b i : Nat} {batch : BarBatch} {bar : Bar}
    (isBatch : r.currentBatches[b]? = some batch) (isBar : batch.bars[i]? = some bar) :
    ∃ drawn, r.instances[r.instanceIndex b i]? = some drawn ∧
      drawn.start = bar.startNs - baselineNs ∧ drawn.width = bar.widthNs := by
  have found := getElem?_flatMap_map BarBatch.bars
    (fun bar : Bar => (bar.startNs - (baselineNs : ℚ), bar.widthNs)) r.currentBatches b i isBatch
    isBar
  rw [← holds, List.getElem?_map, Option.map_eq_some_iff] at found
  obtain ⟨drawn, isDrawn, same⟩ := found
  exact ⟨drawn, isDrawn, (Prod.ext_iff.mp same).1, (Prod.ext_iff.mp same).2⟩

/-! ### Places -/

/-- The linear map of a viewport from times to pixels. -/
def Viewport.place (viewport : Viewport) (timeNs : ℚ) : ℚ :=
  (timeNs - viewport.startNs) / (viewport.endNs - viewport.startNs) * viewport.widthPx

/-- A viewport on which times have places: it spans some time and some pixels. -/
structure Viewport.IsProper (viewport : Viewport) : Prop where
  spansTime : viewport.endNs ≠ viewport.startNs
  spansPixels : viewport.widthPx ≠ 0

theorem Viewport.IsProper.range_ne_zero {viewport : Viewport} (proper : viewport.IsProper) :
    (viewport.endNs : ℚ) - viewport.startNs ≠ 0 :=
  sub_ne_zero.mpr (Int.cast_injective.ne proper.spansTime)

theorem Viewport.IsProper.place_injective {viewport : Viewport} (proper : viewport.IsProper)
    {first second : ℚ} (same : viewport.place first = viewport.place second) : first = second := by
  have range := proper.range_ne_zero
  have pixels := proper.spansPixels
  simp only [place] at same
  field_simp at same
  linarith

theorem BarRenderer.viewRange_sub (r : BarRenderer) (viewport : Viewport) :
    (r.viewRange viewport).2 - (r.viewRange viewport).1 = viewport.endNs - viewport.startNs :=
  sub_sub_sub_cancel_right _ _ _

/-- A corner is drawn at its time, as the current baseline reads the buffer. -/
theorem BarRenderer.pixel_xClip (r : BarRenderer) {viewport : Viewport}
    (spansTime : viewport.endNs ≠ viewport.startNs) (bar : BarInstance) (cornerX : ℚ) :
    (bar.xClip (r.viewRange viewport) cornerX).map viewport.pixel =
      some (viewport.place (bar.start + r.baselineNs + cornerX * max bar.width 0)) := by
  have range : (viewport.endNs : ℚ) - viewport.startNs ≠ 0 :=
    sub_ne_zero.mpr (Int.cast_injective.ne spansTime)
  rw [BarInstance.xClip, r.viewRange_sub, quotient, if_neg range, Option.map_some,
    Option.map_some, Option.some.injEq, Viewport.pixel, Viewport.place, viewRange]
  ring

theorem BarRenderer.drawn_eq (r : BarRenderer) {viewport : Viewport}
    (spansTime : viewport.endNs ≠ viewport.startNs) (bar : BarInstance) :
    r.drawn viewport bar = some (viewport.place (bar.start + r.baselineNs),
      viewport.place (bar.start + r.baselineNs + max bar.width 0)) := by
  obtain ⟨left, isLeft, leftPlace⟩ :=
    Option.map_eq_some_iff.mp (r.pixel_xClip spansTime bar 0)
  obtain ⟨right, isRight, rightPlace⟩ :=
    Option.map_eq_some_iff.mp (r.pixel_xClip spansTime bar 1)
  rw [zero_mul, add_zero] at leftPlace
  rw [one_mul] at rightPlace
  rw [drawn, isLeft, isRight, ← leftPlace, ← rightPlace]
  rfl

/-- Without a span of time nothing has a place. -/
theorem BarRenderer.drawn_eq_none (r : BarRenderer) {viewport : Viewport}
    (noTime : viewport.endNs = viewport.startNs) (bar : BarInstance) :
    r.drawn viewport bar = none := by
  have range : (viewport.endNs : ℚ) - viewport.startNs = 0 := by rw [noTime, sub_self]
  rw [drawn, BarInstance.xClip, r.viewRange_sub, quotient, if_pos range]
  rfl

/-- The time test accepts the times of a bar, whatever the baseline. -/
theorem BarRenderer.accepts_iff (r : BarRenderer) {viewport : Viewport}
    (spansPixels : viewport.widthPx ≠ 0) (xPx : ℚ) (bar : Bar) :
    r.accepts viewport xPx bar ↔
      viewport.startNs + xPx * ((viewport.endNs - viewport.startNs) / viewport.widthPx) ∈
        Set.Icc bar.startNs (bar.startNs + bar.widthNs) := by
  have hit : r.tsHit viewport xPx = some (viewport.startNs - r.baselineNs +
      xPx * ((viewport.endNs - viewport.startNs) / viewport.widthPx)) := by
    simp only [tsHit, quotient, if_neg spansPixels, Option.bind_eq_bind,
      Option.bind_some, viewRange, Option.pure_def, Option.some.injEq]
    ring
  simp only [accepts, hit, ge_iff_le, Bool.and_eq_true, decide_eq_true_eq, Set.mem_Icc]
  constructor <;> rintro ⟨low, high⟩ <;> constructor <;> linarith

theorem BarRenderer.not_accepts (r : BarRenderer) {viewport : Viewport}
    (noPixels : viewport.widthPx = 0) (xPx : ℚ) (bar : Bar) :
    r.accepts viewport xPx bar = false := by
  rw [accepts, tsHit, quotient, if_pos noPixels]
  rfl

/-- The times of a bar are under the pixels between its places. -/
theorem Viewport.IsProper.mem_uIcc_place_iff {viewport : Viewport} (proper : viewport.IsProper)
    (xPx first last : ℚ) :
    xPx ∈ Set.uIcc (viewport.place first) (viewport.place last) ↔
      viewport.startNs + xPx * ((viewport.endNs - viewport.startNs) / viewport.widthPx) ∈
        Set.uIcc first last := by
  have scale : ((viewport.endNs : ℚ) - viewport.startNs) / viewport.widthPx ≠ 0 :=
    div_ne_zero proper.range_ne_zero proper.spansPixels
  have place : ∀ timeNs, viewport.place timeNs =
      (timeNs - viewport.startNs) / ((viewport.endNs - viewport.startNs) / viewport.widthPx) :=
    fun timeNs => by rw [Viewport.place, div_div_eq_mul_div, div_mul_eq_mul_div]
  rw [place, place, ← Set.preimage_mul_const_uIcc scale, ← Set.preimage_const_add_uIcc]
  rfl

/-! ### Agreement -/

/-- A bar is drawn between the places of its start and its end, and the time test accepts exactly
the pixels between them. -/
def BarRenderer.DrawnWherePicked (r : BarRenderer) (viewport : Viewport) (b i : Nat) (bar : Bar) :
    Prop :=
  ∃ left right, (r.render viewport)[r.instanceIndex b i]? = some (some (left, right)) ∧
    left = viewport.place bar.startNs ∧ right = viewport.place (bar.startNs + bar.widthNs) ∧
    ∀ xPx, r.accepts viewport xPx bar ↔ xPx ∈ Set.uIcc left right

/-- With a buffer that was filled under some baseline, a bar is drawn where it is picked exactly
when the viewport is proper, the bar has no negative width, and the baseline is still the same. -/
theorem BarRenderer.Holds.agrees_iff {r : BarRenderer} {uploadNs : Int}
    (holds : r.Holds uploadNs) (viewport : Viewport) {b i : Nat} {batch : BarBatch} {bar : Bar}
    (isBatch : r.currentBatches[b]? = some batch) (isBar : batch.bars[i]? = some bar) :
    r.DrawnWherePicked viewport b i bar ↔
      viewport.IsProper ∧ 0 ≤ bar.widthNs ∧ uploadNs = r.baselineNs := by
  obtain ⟨drawn, isDrawn, startEq, widthEq⟩ := holds.instance_eq isBatch isBar
  have rendered : (r.render viewport)[r.instanceIndex b i]? = some (r.drawn viewport drawn) := by
    rw [render, List.getElem?_map, isDrawn, Option.map_some]
  constructor
  · rintro ⟨left, right, isPlaced, rfl, rfl, accepts⟩
    rw [rendered, Option.some.injEq] at isPlaced
    have spansTime : viewport.endNs ≠ viewport.startNs := by
      intro noTime
      rw [r.drawn_eq_none noTime] at isPlaced
      exact Option.some_ne_none _ isPlaced.symm
    have atLeft := (accepts _).mpr Set.left_mem_uIcc
    have spansPixels : viewport.widthPx ≠ 0 := by
      intro noPixels
      rw [r.not_accepts noPixels] at atLeft
      exact Bool.false_ne_true atLeft
    have proper : viewport.IsProper := ⟨spansTime, spansPixels⟩
    have inside := (r.accepts_iff spansPixels _ bar).mp atLeft
    rw [r.drawn_eq spansTime, Option.some.injEq, Prod.mk.injEq] at isPlaced
    have sameStart := proper.place_injective isPlaced.1
    rw [startEq] at sameStart
    refine ⟨proper, by linarith [inside.1.trans inside.2], ?_⟩
    have same : (uploadNs : ℚ) = r.baselineNs := by linarith
    exact_mod_cast same
  · rintro ⟨proper, nonneg, rfl⟩
    refine ⟨_, _, ?_, rfl, rfl, fun xPx => ?_⟩
    · rw [rendered, r.drawn_eq proper.spansTime, startEq, widthEq, sub_add_cancel,
        max_eq_left nonneg]
    · rw [proper.mem_uIcc_place_iff, Set.uIcc_of_le (by linarith),
        r.accepts_iff proper.spansPixels]

/-- After any calls, a bar is drawn where it is picked exactly when the viewport is proper, the bar
has no negative width, and the baseline is that of the last upload. -/
theorem drawnWherePicked_iff (canvasWidth : ℕ+) (calls : List RendererCall) (viewport : Viewport)
    {b i : Nat} {batch : BarBatch} {bar : Bar}
    (isBatch : (rendererAfter canvasWidth calls).currentBatches[b]? = some batch)
    (isBar : batch.bars[i]? = some bar) :
    (rendererAfter canvasWidth calls).DrawnWherePicked viewport b i bar ↔
      viewport.IsProper ∧ 0 ≤ bar.widthNs ∧
        uploadBaselineAfter canvasWidth calls = (rendererAfter canvasWidth calls).baselineNs :=
  (rendererAfter_holds canvasWidth calls).agrees_iff viewport isBatch isBar

/-- A bar that was just uploaded is drawn where it is picked. -/
theorem drawnWherePicked_upload :
    (rendererAfter 300 [.setActivity [⟨0, 0, [⟨100, 10, 0⟩]⟩] 300]).DrawnWherePicked
      ⟨0, 200, 200⟩ 0 0 ⟨100, 10, 0⟩ :=
  (drawnWherePicked_iff 300 _ _ rfl rfl).mpr ⟨⟨by decide, by norm_num⟩, by norm_num, rfl⟩

/-- A baseline that is set after the upload moves the bars that are drawn, and not those that are
picked. -/
theorem exists_drawn_elsewhere :
    ∃ (calls : List RendererCall) (viewport : Viewport) (bar : Bar),
      viewport.startNs < viewport.endNs ∧ 0 < viewport.widthPx ∧ 0 < bar.widthNs ∧
        ((rendererAfter 300 calls).currentBatches.map BarBatch.bars) = [[bar]] ∧
        ¬ (rendererAfter 300 calls).DrawnWherePicked viewport 0 0 bar := by
  let calls : List RendererCall :=
    [.setActivity [⟨0, 0, [⟨100, 10, 0⟩]⟩] 300, .setBaseline 50]
  refine ⟨calls, ⟨0, 200, 200⟩, ⟨100, 10, 0⟩, by decide, by norm_num, by norm_num, rfl, ?_⟩
  rw [(rendererAfter_holds 300 calls).agrees_iff ⟨0, 200, 200⟩ rfl rfl]
  rintro ⟨-, -, same⟩
  exact absurd same (by decide)

/-! ### Hits -/

/-- A hit is a bar of a batch in one of the lanes. -/
theorem BarRenderer.bar_of_pick {r : BarRenderer} {viewport : Viewport} {xPx yPx : ℚ} {hit : Hit}
    (picked : r.pick viewport xPx yPx = some hit) :
    ∃ batch bar, r.currentBatches[hit.batch]? = some batch ∧ batch.lane < r.laneHeights.length ∧
      batch.bars[hit.index]? = some bar := by
  obtain ⟨⟨batch, number⟩, inBatches, found⟩ := List.exists_of_findSome?_eq_some picked
  cases lane : r.laneHeights[batch.lane]? with
  | none =>
    simp only [lane] at found
    cases found
  | some heightPx =>
    simp only [lane] at found
    split at found
    · cases found
    · obtain ⟨index, isBar, rfl⟩ := Option.map_eq_some_iff.mp found
      obtain ⟨inRange, _⟩ := List.findIdx?_eq_some_iff_getElem.mp isBar
      exact ⟨batch, batch.bars[index], List.mem_zipIdx_iff_getElem?.mp inBatches,
        (List.getElem?_eq_some_iff.mp lane).1, List.getElem?_eq_getElem inRange⟩

/-- The baseline is nothing to the hit test. -/
theorem BarRenderer.pick_congr {r other : BarRenderer} (lanes : r.laneHeights = other.laneHeights)
    (batches : r.currentBatches = other.currentBatches) : r.pick = other.pick := by
  have accepts : r.accepts = other.accepts := by
    funext viewport xPx bar
    by_cases noPixels : viewport.widthPx = 0
    · rw [r.not_accepts noPixels, other.not_accepts noPixels]
    · exact Bool.eq_iff_iff.mpr
        ((r.accepts_iff noPixels xPx bar).trans (other.accepts_iff noPixels xPx bar).symm)
  funext viewport xPx yPx
  rw [pick, pick, lanes, batches, accepts]

/-- The first bar of the first batch in a lane can be hit, at its start. -/
theorem BarRenderer.exists_pick_first {r : BarRenderer} {b : Nat} {batch : BarBatch} {heightPx : ℚ}
    {bar : Bar} {rest : List Bar} (isBatch : r.currentBatches[b]? = some batch)
    (isLane : r.laneHeights[batch.lane]? = some heightPx) (heightNonneg : 0 ≤ heightPx)
    (bars : batch.bars = bar :: rest) (widthNonneg : 0 ≤ bar.widthNs)
    (first : ∀ earlier < b, ∀ other, r.currentBatches[earlier]? = some other →
      r.laneHeights.length ≤ other.lane) :
    ∃ viewport xPx yPx, r.pick viewport xPx yPx = some ⟨batch.lane, 0, b⟩ := by
  let viewport : Viewport := ⟨⌊bar.startNs⌋, ⌊bar.startNs⌋ + 1, 1⟩
  have spansPixels : viewport.widthPx ≠ 0 := one_ne_zero
  have accepted : r.accepts viewport (bar.startNs - ⌊bar.startNs⌋) bar := by
    rw [r.accepts_iff spansPixels]
    dsimp only [viewport]
    push_cast
    constructor <;> linarith
  refine ⟨viewport, bar.startNs - ⌊bar.startNs⌋, laneTopPx r.laneHeights batch.lane, ?_⟩
  obtain ⟨inRange, rfl⟩ := List.getElem?_eq_some_iff.mp isBatch
  have bound : b < r.currentBatches.zipIdx.length := by rwa [List.length_zipIdx]
  have here : r.currentBatches.zipIdx[b] = (r.currentBatches[b], b) := by simp
  refine List.findSome?_eq_some_iff.mpr ⟨r.currentBatches.zipIdx.take b,
    (r.currentBatches[b], b), r.currentBatches.zipIdx.drop (b + 1), ?_, ?_, ?_⟩
  · rw [← here, List.getElem_cons_drop, List.take_append_drop]
  · have above : ¬ (laneTopPx r.laneHeights r.currentBatches[b].lane <
          laneTopPx r.laneHeights r.currentBatches[b].lane ∨
        laneTopPx r.laneHeights r.currentBatches[b].lane >
          laneTopPx r.laneHeights r.currentBatches[b].lane + heightPx) := by
      rw [not_or]
      constructor <;> linarith
    simp only [isLane, if_neg above, bars, List.findIdx?_cons, accepted, if_true, Option.map_some]
  · intro pair member
    obtain ⟨earlier, inTake, same⟩ := List.mem_iff_getElem.mp member
    rw [List.length_take, lt_min_iff] at inTake
    rw [List.getElem_take, List.getElem_zipIdx] at same
    subst same
    have outside := first earlier inTake.1 _ (List.getElem?_eq_getElem (by simpa using inTake.2))
    simp only [List.getElem?_eq_none outside]

/-! ### Clicks -/

/-- A batch of live kernels, its bars as numbers. -/
def InstanceBatch.toBars (b : InstanceBatch) : BarBatch where
  lane := b.lane
  colorId := b.colorId
  bars := (b.starts.zip b.widths).map fun bar => ⟨bar.1, bar.2, 0⟩

/-- The renderer a click reads, as far as `pick` reads it. -/
def TimelineRenderer.toBars (r : TimelineRenderer) : BarRenderer where
  laneHeights := r.laneHeights
  baselineNs := r.baselineNs
  currentBatches := r.currentBatches.map InstanceBatch.toBars
  instances := []
  lastUploadDpr := some 0
  canvasWidth := 1

theorem hitBar_eq (r : BarRenderer) {viewport : Viewport} {xPx tsHit : ℚ}
    (isHit : r.tsHit viewport xPx = some tsHit) (b : InstanceBatch) :
    hitBar r.baselineNs tsHit b = b.toBars.bars.findIdx? (r.accepts viewport xPx) := by
  have test : (fun bar : Nat × Nat => r.accepts viewport xPx ⟨bar.1, bar.2, 0⟩) = fun bar =>
      let s := bar.1 - (r.baselineNs : ℚ)
      tsHit ≥ s && tsHit ≤ s + bar.2 := by
    funext bar
    rw [BarRenderer.accepts, isHit]
  rw [InstanceBatch.toBars, List.findIdx?_map, hitBar, ← test]
  rfl

/-- On a canvas of some width, a click hits the bar that the hit test finds. -/
theorem TimelineRenderer.pick_eq (r : TimelineRenderer) (click : Click)
    (spansPixels : click.widthPx ≠ 0) :
    r.pick click =
      r.toBars.pick ⟨click.startNs, click.endNs, click.widthPx⟩ click.xPx click.yPx := by
  have isHit : r.toBars.tsHit ⟨click.startNs, click.endNs, click.widthPx⟩ click.xPx =
      some (click.startNs - (r.baselineNs : ℚ) + click.xPx / click.widthPx *
        (click.endNs - r.baselineNs - (click.startNs - r.baselineNs))) := by
    rw [BarRenderer.tsHit, quotient, if_neg spansPixels]
    rfl
  have zipped : r.toBars.currentBatches.zipIdx =
      r.currentBatches.zipIdx.map (Prod.map InstanceBatch.toBars id) := List.zipIdx_map
  rw [pick, BarRenderer.pick, zipped, List.findSome?_map]
  congr 1
  funext b
  have bars := hitBar_eq r.toBars isHit b.1
  simp only [Function.comp_apply, Prod.map_fst, Prod.map_snd, ← bars]
  rfl

end PerfWeave
