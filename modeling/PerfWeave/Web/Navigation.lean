/-
This file models how a user moves about the timeline: the wheel, drag, click and double-click
handlers and the virtual clock of `web/src/timeline/Timeline.tsx`, with the state of
`web/src/App.tsx` they set and the mode of `web/src/panels/SidePanel.tsx`. An event finds the state
rendered that the event before it left. Positions are exact numbers, and what a double operation
makes of its exact result is a parameter.
-/

import PerfWeave.Library.SignificantBits
import PerfWeave.Web.KernelClick
import PerfWeave.Web.LiveClock

namespace PerfWeave

/-! ### Windows -/

/-- A viewport: a window of time. -/
structure TimeWindow where
  startNs : Int
  endNs : Int
  deriving DecidableEq

namespace TimeWindow

/-- The width of a window. -/
def rangeNs (window : TimeWindow) : Int := window.endNs - window.startNs

/-- A window, moved. -/
def shifted (window : TimeWindow) (dNs : Int) : TimeWindow :=
  ⟨window.startNs + dNs, window.endNs + dNs⟩

@[simp]
theorem rangeNs_shifted (window : TimeWindow) (dNs : Int) :
    (window.shifted dNs).rangeNs = window.rangeNs := by
  exact add_sub_add_right_eq_sub _ _ _

end TimeWindow

/-- `LIVE_WINDOW_NS`. -/
def liveWindowNs : Int := 60000000000

/-- `MIN_RANGE_NS`. -/
def minRangeNs : Int := 1000000

/-- `MAX_RANGE_NS`. -/
def maxRangeNs : Int := 24 * 60 * 60 * 1000000000

/-- `Number` of a `bigint`. -/
def numberOfBigInt (n : Int) : ℚ := n.sign * roundSignificant 53 n.natAbs

/-! ### The state -/

/-- `dragRef`: where the pointer went down, on which window, and whether it has moved. -/
structure Drag where
  x : ℚ
  window : TimeWindow
  moved : Bool

/-- What navigation sets: live mode, the viewport, the virtual clock, the drag under way and whether
the last one moved, the anchor of a measurement, the selection and the measurement. -/
structure Navigation where
  live : Bool
  viewport : TimeWindow
  nowNs : Int
  drag : Option Drag
  lastDragMoved : Bool
  measureAnchor : Option Int
  selection : Option Selection
  measurement : Option TimeWindow

/-- A turn of the wheel, with its position on a canvas that has a width. -/
structure WheelEvent where
  ctrlOrMeta : Bool
  shiftKey : Bool
  deltaX : ℚ
  deltaY : ℚ
  xPx : ℚ
  rectWidth : ℚ
  positive : 0 < rectWidth

/-- What can happen: the pointer's events, the button for live mode, and an animation frame. -/
inductive NavigationEvent where
  | wheel (e : WheelEvent)
  | mouseDown (clientX : ℚ)
  | mouseMove (clientX : ℚ) (clientWidth : ℕ+)
  | mouseUp
  | mouseLeave
  | doubleClick (dateNowMs : Int)
  | click (r : TimelineRenderer) (click : Click)
  | pressLive
  | frame (frame : LiveFrame)

namespace Navigation

/-- The page as it opens, with the times at which the application and its timeline do. -/
def mounted (useSynthetic : Bool) (appNowMs timelineNowMs : Int) : Navigation where
  live := !useSynthetic
  viewport := ⟨appNowMs * 1000000 - liveWindowNs, appNowMs * 1000000⟩
  nowNs := timelineNowMs * 1000000
  drag := none
  lastDragMoved := false
  measureAnchor := none
  selection := none
  measurement := none

/-- `effViewport`: the window on the screen. -/
def effViewport (state : Navigation) : TimeWindow :=
  if state.live then ⟨state.nowNs - state.viewport.rangeNs, state.nowNs⟩ else state.viewport

/-- `onViewportChange`. -/
def onViewportChange (state : Navigation) (window : TimeWindow) : Navigation :=
  { state with viewport := window, live := false }

section

variable (fl : ℚ → ℚ)

/-- Where the wheel turns, as a part of the canvas. -/
def centerRatio (e : WheelEvent) : ℚ := max 0 (min 1 (fl (e.xPx / e.rectWidth)))

/-- The time a part of the way into a window. -/
def timeAt (ratio : ℚ) (window : TimeWindow) : Int :=
  window.startNs + ⌊fl (numberOfBigInt window.rangeNs * ratio)⌋

/-- The width of the window after zooming. -/
def zoomedRange (e : WheelEvent) (range : Int) : Int :=
  let factor := if e.deltaY > 0 then 5 / 4 else fl (4 / 5)
  let newRange := max minRangeNs ⌊fl (numberOfBigInt range * factor)⌋
  if newRange > maxRangeNs then maxRangeNs else newRange

/-- `onWheel`. -/
def onWheel (state : Navigation) (e : WheelEvent) : Navigation :=
  let window := state.effViewport
  if e.ctrlOrMeta then
    let ratio := centerRatio fl e
    let centerNs := timeAt fl ratio window
    let newRange := zoomedRange fl e window.rangeNs
    let newStart := centerNs - ⌊fl (numberOfBigInt newRange * ratio)⌋
    state.onViewportChange ⟨newStart, newStart + newRange⟩
  else
    let deltaPx := if e.shiftKey then e.deltaY else fl (e.deltaY + e.deltaX)
    let dNs := ⌊fl (fl (deltaPx / e.rectWidth) * numberOfBigInt window.rangeNs)⌋
    if dNs = 0 then state else state.onViewportChange (window.shifted dNs)

/-- How far a drag to a position moves its window. -/
def dragShift (drag : Drag) (clientX : ℚ) (clientWidth : ℕ+) : Int :=
  -⌊fl (fl (fl (clientX - drag.x) / (clientWidth : ℕ)) * numberOfBigInt drag.window.rangeNs)⌋

/-- `onMouseMove` during a drag. -/
def onMouseMove (state : Navigation) (clientX : ℚ) (clientWidth : ℕ+) : Navigation :=
  match state.drag with
  | none => state
  | some drag =>
    let moved := drag.moved || |fl (clientX - drag.x)| > 2
    { state with drag := some { drag with moved } }.onViewportChange
      (drag.window.shifted (dragShift fl drag clientX clientWidth))

end

/-- `onMouseUp`, and `onMouseLeave`. -/
def onMouseUp (state : Navigation) : Navigation :=
  { state with lastDragMoved := (state.drag.map Drag.moved).getD false, drag := none }

/-- A click, as it meets the state. -/
def clickHere (state : Navigation) (click : Click) : Click :=
  let window := state.effViewport
  { click with
    startNs := window.startNs
    endNs := window.endNs
    lastDragMoved := state.lastDragMoved
    measureAnchor := state.measureAnchor }

/-- `onClick`, with what the application makes of it. -/
def onClick (state : Navigation) (r : TimelineRenderer) (click : Click) : Navigation :=
  match PerfWeave.onClick r (state.clickHere click) with
  | .panned => { state with lastDragMoved := false }
  | .measured anchorNs startNs =>
    { state with
      measurement := some ⟨min anchorNs startNs, max anchorNs startNs⟩
      measureAnchor := none }
  | .selected selection =>
    { state with measureAnchor := some selection.startNs, selection := some selection }
  | .cleared => { state with selection := none }

/-- One event. -/
def step (fl : ℚ → ℚ) (useSynthetic : Bool) (state : Navigation) : NavigationEvent → Navigation
  | .wheel e => state.onWheel fl e
  | .mouseDown clientX => { state with drag := some ⟨clientX, state.effViewport, false⟩ }
  | .mouseMove clientX clientWidth => state.onMouseMove fl clientX clientWidth
  | .mouseUp => state.onMouseUp
  | .mouseLeave => state.onMouseUp
  | .doubleClick dateNowMs =>
    let endNs := if state.live then state.nowNs else dateNowMs * 1000000
    state.onViewportChange ⟨endNs - liveWindowNs, endNs⟩
  | .click r click => state.onClick r click
  | .pressLive => if useSynthetic then state else { state with live := !state.live }
  | .frame frame =>
    if state.live then { state with nowNs := advanceClock state.nowNs frame } else state

end Navigation

/-- What the side panel shows: a measurement, a selected event, or the summary of the viewport. -/
inductive PanelMode where
  | measurement (measurement : TimeWindow)
  | event (selection : Selection)
  | summary

/-- `SidePanel`: the first of the three that there is. -/
def Navigation.panelMode (state : Navigation) : PanelMode :=
  match state.measurement, state.selection with
  | some measurement, _ => .measurement measurement
  | none, some selection => .event selection
  | none, none => .summary

/-- The page after its events. -/
def navigationRun (fl : ℚ → ℚ) (useSynthetic : Bool) (appNowMs timelineNowMs : Int)
    (events : List NavigationEvent) : Navigation :=
  run (Navigation.step fl useSynthetic) (.mounted useSynthetic appNowMs timelineNowMs) events

/-! ### The width of the window -/

/-- A window is between the narrowest and the widest. -/
def TimeWindow.InBounds (window : TimeWindow) : Prop :=
  minRangeNs ≤ window.rangeNs ∧ window.rangeNs ≤ maxRangeNs

/-- The widths that occur are exact as doubles. -/
theorem TimeWindow.InBounds.number_eq {window : TimeWindow} (inBounds : window.InBounds) :
    numberOfBigInt window.rangeNs = window.rangeNs := by
  obtain ⟨atLeast, atMost⟩ := inBounds
  unfold minRangeNs at atLeast
  unfold maxRangeNs at atMost
  have small : window.rangeNs.natAbs < 2 ^ 53 := by omega
  rw [numberOfBigInt, roundSignificant_of_lt (by decide) small,
    Int.sign_eq_one_of_pos (by omega), Int.cast_one, one_mul, Nat.cast_natAbs,
    abs_of_nonneg (by omega)]

namespace Navigation

variable {fl : ℚ → ℚ} {useSynthetic : Bool} {state : Navigation}

@[simp]
theorem rangeNs_effViewport (state : Navigation) :
    state.effViewport.rangeNs = state.viewport.rangeNs := by
  unfold effViewport
  split
  · exact sub_sub_cancel _ _
  · rfl

theorem zoomedRange_inBounds (e : WheelEvent) (range : Int) :
    minRangeNs ≤ zoomedRange fl e range ∧ zoomedRange fl e range ≤ maxRangeNs := by
  have order : minRangeNs ≤ maxRangeNs := by decide
  have capped : ∀ width, minRangeNs ≤ width →
      minRangeNs ≤ (if width > maxRangeNs then maxRangeNs else width) ∧
        (if width > maxRangeNs then maxRangeNs else width) ≤ maxRangeNs := by
    intro width atLeast
    split
    · exact ⟨order, le_refl _⟩
    · rename_i small
      exact ⟨atLeast, not_lt.mp small⟩
  exact capped _ (le_max_left _ _)

/-- The wheel does nothing, or shows another window, in bounds when the one before was. -/
theorem onWheel_cases (state : Navigation) (e : WheelEvent) :
    state.onWheel fl e = state ∨ ∃ window, state.onWheel fl e = state.onViewportChange window ∧
      (state.effViewport.InBounds → window.InBounds) := by
  unfold onWheel
  simp only
  split
  · refine .inr ⟨_, rfl, fun _ => ?_⟩
    unfold TimeWindow.InBounds TimeWindow.rangeNs
    rw [add_sub_cancel_left]
    exact zoomedRange_inBounds e _
  · have panned : ∀ dNs : Int, (if dNs = 0 then state
        else state.onViewportChange (state.effViewport.shifted dNs)) = state ∨
        ∃ window, (if dNs = 0 then state
          else state.onViewportChange (state.effViewport.shifted dNs)) =
            state.onViewportChange window ∧ (state.effViewport.InBounds → window.InBounds) := by
      intro dNs
      split
      · exact .inl rfl
      · refine .inr ⟨_, rfl, fun inBounds => ?_⟩
        unfold TimeWindow.InBounds
        rw [TimeWindow.rangeNs_shifted]
        exact inBounds
    exact panned _

theorem step_pressLive (state : Navigation) :
    ∃ live, state.step fl useSynthetic .pressLive = { state with live } := by
  rw [step]
  split
  · exact ⟨state.live, rfl⟩
  · exact ⟨_, rfl⟩

theorem step_frame (state : Navigation) (frame : LiveFrame) :
    ∃ nowNs, state.step fl useSynthetic (.frame frame) = { state with nowNs } := by
  rw [step]
  split
  · exact ⟨_, rfl⟩
  · exact ⟨state.nowNs, rfl⟩

/-- The viewport is in bounds, and so is the window of a drag under way. -/
structure Bounded (state : Navigation) : Prop where
  viewport : state.viewport.InBounds
  drag : ∀ drag, state.drag = some drag → drag.window.InBounds

theorem mounted_bounded (useSynthetic : Bool) (appNowMs timelineNowMs : Int) :
    (mounted useSynthetic appNowMs timelineNowMs).Bounded := by
  refine ⟨?_, fun drag isDrag => absurd isDrag.symm (Option.some_ne_none drag)⟩
  unfold mounted TimeWindow.InBounds TimeWindow.rangeNs
  rw [sub_sub_cancel]
  decide

theorem Bounded.change (bounded : state.Bounded) {window : TimeWindow}
    (inBounds : window.InBounds) : (state.onViewportChange window).Bounded :=
  ⟨inBounds, bounded.drag⟩

theorem Bounded.effViewport (bounded : state.Bounded) : state.effViewport.InBounds := by
  unfold TimeWindow.InBounds
  rw [rangeNs_effViewport]
  exact bounded.viewport

theorem Bounded.onWheel (bounded : state.Bounded) (e : WheelEvent) :
    (state.onWheel fl e).Bounded := by
  rcases @onWheel_cases fl state e with kept | ⟨window, changed, inBounds⟩
  · rwa [kept]
  · rw [changed]
    exact bounded.change (inBounds bounded.effViewport)

theorem Bounded.onMouseMove (bounded : state.Bounded) (clientX : ℚ) (clientWidth : ℕ+) :
    (state.onMouseMove fl clientX clientWidth).Bounded := by
  unfold Navigation.onMouseMove
  split
  · exact bounded
  · rename_i drag isDrag
    have window := bounded.drag drag isDrag
    refine ⟨?_, fun other isOther => ?_⟩
    · show (drag.window.shifted _).InBounds
      unfold TimeWindow.InBounds
      rw [TimeWindow.rangeNs_shifted]
      exact window
    · rw [← Option.some.inj isOther]
      exact window

theorem onClick_keeps (state : Navigation) (r : TimelineRenderer) (click : Click) :
    (state.onClick r click).live = state.live ∧
      (state.onClick r click).viewport = state.viewport ∧
      (state.onClick r click).nowNs = state.nowNs ∧ (state.onClick r click).drag = state.drag := by
  unfold Navigation.onClick
  split <;> exact ⟨rfl, rfl, rfl, rfl⟩

theorem Bounded.step (bounded : state.Bounded) (event : NavigationEvent) :
    (state.step fl useSynthetic event).Bounded := by
  cases event with
  | wheel e => exact bounded.onWheel e
  | mouseDown clientX =>
    refine ⟨bounded.viewport, fun drag isDrag => ?_⟩
    rw [← Option.some.inj isDrag]
    exact bounded.effViewport
  | mouseMove clientX clientWidth => exact bounded.onMouseMove clientX clientWidth
  | mouseUp =>
    exact ⟨bounded.viewport, fun drag isDrag => absurd isDrag.symm (Option.some_ne_none drag)⟩
  | mouseLeave =>
    exact ⟨bounded.viewport, fun drag isDrag => absurd isDrag.symm (Option.some_ne_none drag)⟩
  | doubleClick dateNowMs =>
    refine bounded.change ?_
    unfold TimeWindow.InBounds TimeWindow.rangeNs
    rw [sub_sub_cancel]
    decide
  | click r click =>
    obtain ⟨_, viewport, _, drag⟩ := state.onClick_keeps r click
    refine ⟨?_, fun other isOther => bounded.drag other (drag.symm.trans isOther)⟩
    show (state.onClick r click).viewport.InBounds
    rw [viewport]
    exact bounded.viewport
  | pressLive =>
    obtain ⟨live, next⟩ := @step_pressLive fl useSynthetic state
    rw [next]
    exact ⟨bounded.viewport, bounded.drag⟩
  | frame frame =>
    obtain ⟨nowNs, next⟩ := @step_frame fl useSynthetic state frame
    rw [next]
    exact ⟨bounded.viewport, bounded.drag⟩

end Navigation

/-- However a user wheels, drags and clicks, in live mode or not, the window on the screen is never
narrower than a millisecond nor wider than a day, and the handlers read its width exactly. -/
theorem visible_range_bounded (fl : ℚ → ℚ) (useSynthetic : Bool) (appNowMs timelineNowMs : Int)
    (events : List NavigationEvent) :
    (navigationRun fl useSynthetic appNowMs timelineNowMs events).effViewport.InBounds ∧
      numberOfBigInt
          (navigationRun fl useSynthetic appNowMs timelineNowMs events).effViewport.rangeNs =
        (navigationRun fl useSynthetic appNowMs timelineNowMs events).effViewport.rangeNs := by
  have bounded : (navigationRun fl useSynthetic appNowMs timelineNowMs events).Bounded :=
    run_invariant (Navigation.mounted_bounded useSynthetic appNowMs timelineNowMs)
      (fun _ event _ bounded => bounded.step event) events fun _ _ => trivial
  exact ⟨bounded.effViewport, bounded.effViewport.number_eq⟩

/-! ### Zooming -/

namespace Navigation

variable {fl : ℚ → ℚ} {useSynthetic : Bool} {state : Navigation}

/-- An event of zooming at a place of the canvas: a turn of the wheel there, or a frame. -/
def ZoomsAt (fl : ℚ → ℚ) (ratio : ℚ) : NavigationEvent → Prop
  | .wheel e => e.ctrlOrMeta = true ∧ centerRatio fl e = ratio
  | .frame _ => True
  | _ => False

/-- A zoom keeps the time under the cursor and leaves live mode. -/
theorem zoom_timeAt (state : Navigation) {e : WheelEvent} (zooms : e.ctrlOrMeta = true) :
    (state.onWheel fl e).live = false ∧
      timeAt fl (centerRatio fl e) (state.onWheel fl e).effViewport =
        timeAt fl (centerRatio fl e) state.effViewport := by
  unfold onWheel
  rw [if_pos zooms]
  refine ⟨rfl, ?_⟩
  have range : ∀ first width : Int, (⟨first, first + width⟩ : TimeWindow).rangeNs = width :=
    fun first width => add_sub_cancel_left first width
  show timeAt fl (centerRatio fl e) ⟨_, _⟩ = _
  rw [timeAt, range]
  exact sub_add_cancel _ _

end Navigation

/-- However often the wheel zooms at one place of the canvas, the time under it stays the same to
the nanosecond, whatever the double operations make of their results. -/
theorem zoom_keeps_cursor (fl : ℚ → ℚ) (useSynthetic : Bool) (state : Navigation)
    (first : WheelEvent) (zooms : first.ctrlOrMeta = true) (events : List NavigationEvent)
    (rest : ∀ event ∈ events, Navigation.ZoomsAt fl (Navigation.centerRatio fl first) event) :
    Navigation.timeAt fl (Navigation.centerRatio fl first)
        (run (Navigation.step fl useSynthetic) state (.wheel first :: events)).effViewport =
      Navigation.timeAt fl (Navigation.centerRatio fl first) state.effViewport := by
  obtain ⟨paused, same⟩ := @Navigation.zoom_timeAt fl state _ zooms
  rw [run_cons]
  refine (run_invariant (motive := fun reached : Navigation => reached.live = false ∧
    Navigation.timeAt fl (Navigation.centerRatio fl first) reached.effViewport =
      Navigation.timeAt fl (Navigation.centerRatio fl first) state.effViewport)
    ⟨paused, same⟩ ?_ events rest).2
  rintro reached event here ⟨paused, kept⟩
  cases event with
  | wheel e =>
    obtain ⟨zoomsAgain, ratio⟩ := here
    obtain ⟨pausedAgain, again⟩ := @Navigation.zoom_timeAt fl reached _ zoomsAgain
    rw [ratio] at again
    exact ⟨pausedAgain, again.trans kept⟩
  | frame frame =>
    have still : reached.step fl useSynthetic (.frame frame) = reached := by
      rw [Navigation.step, if_neg (by rw [paused]; exact Bool.false_ne_true)]
    rw [still]
    exact ⟨paused, kept⟩
  | _ => exact absurd here id

/-- A zoom in at the middle of the canvas. -/
def zoomInMiddle : WheelEvent := ⟨true, false, 0, -1, 500, 1000, by norm_num⟩

theorem zoom_keeps_cursor_twice :
    Navigation.timeAt id (Navigation.centerRatio id zoomInMiddle)
        (run (Navigation.step id false) (.mounted false 1000000 1000000)
          [.wheel zoomInMiddle, .frame ⟨1000016, none, 0⟩, .wheel zoomInMiddle]).effViewport =
      Navigation.timeAt id (Navigation.centerRatio id zoomInMiddle)
        (Navigation.mounted false 1000000 1000000).effViewport :=
  zoom_keeps_cursor id false (.mounted false 1000000 1000000) zoomInMiddle rfl
    [.frame ⟨1000016, none, 0⟩, .wheel zoomInMiddle] (by
      refine List.forall_mem_cons.mpr ⟨trivial, List.forall_mem_singleton.mpr ⟨rfl, rfl⟩⟩)

/-! ### Dragging -/

/-- An event that neither takes hold of the timeline nor lets go of it. -/
def NavigationEvent.KeepsHold : NavigationEvent → Prop
  | .mouseDown _ => False
  | .mouseUp => False
  | .mouseLeave => False
  | _ => True

/-- A move of the pointer by more than two pixels from where it took hold. -/
def NavigationEvent.MovesFrom (fl : ℚ → ℚ) (x : ℚ) : NavigationEvent → Prop
  | .mouseMove clientX _ => |fl (clientX - x)| > 2
  | _ => False

namespace Navigation

variable {fl : ℚ → ℚ} {useSynthetic : Bool}

/-- What a drag is after one more event. -/
theorem drag_step {state : Navigation} {drag : Drag} (isDrag : state.drag = some drag)
    {event : NavigationEvent} (keeps : event.KeepsHold) :
    ∃ moved, (state.step fl useSynthetic event).drag = some { drag with moved } ∧
      (moved = true ↔ drag.moved = true ∨ event.MovesFrom fl drag.x) := by
  have same : ∀ next : Navigation, next.drag = state.drag → ¬ event.MovesFrom fl drag.x →
      ∃ moved, next.drag = some { drag with moved } ∧
        (moved = true ↔ drag.moved = true ∨ event.MovesFrom fl drag.x) := by
    refine fun next kept still => ⟨drag.moved, kept.trans isDrag, ?_⟩
    rw [or_iff_left still]
  cases event with
  | wheel e =>
    refine same _ ?_ id
    show (state.onWheel fl e).drag = state.drag
    rcases @onWheel_cases fl state e with kept | ⟨window, changed, _⟩
    · rw [kept]
    · rw [changed]
      rfl
  | mouseMove clientX clientWidth =>
    refine ⟨drag.moved || |fl (clientX - drag.x)| > 2, ?_, ?_⟩
    · show (state.onMouseMove fl clientX clientWidth).drag = _
      unfold onMouseMove
      simp only [isDrag]
      rfl
    · rw [Bool.or_eq_true, decide_eq_true_iff]
      rfl
  | doubleClick dateNowMs => exact same _ rfl id
  | click r click => exact same _ (state.onClick_keeps r click).2.2.2 id
  | pressLive =>
    obtain ⟨live, next⟩ := @step_pressLive fl useSynthetic state
    exact same _ (by rw [next]) id
  | frame frame =>
    obtain ⟨nowNs, next⟩ := @step_frame fl useSynthetic state frame
    exact same _ (by rw [next]) id
  | _ => exact absurd keeps id

/-- A drag is where it took hold, and has moved when one of its moves did. -/
theorem drag_run {state : Navigation} {drag : Drag} (isDrag : state.drag = some drag)
    {events : List NavigationEvent} (keeps : ∀ event ∈ events, event.KeepsHold) :
    ∃ moved, (run (step fl useSynthetic) state events).drag = some { drag with moved } ∧
      (moved = true ↔ drag.moved = true ∨ ∃ event ∈ events, event.MovesFrom fl drag.x) := by
  induction events using List.reverseRecOn with
  | nil => exact ⟨drag.moved, isDrag, by simp⟩
  | append_singleton events event inductionHypothesis =>
    obtain ⟨moved, isMoved, before⟩ := inductionHypothesis fun other member =>
      keeps other (List.mem_append_left _ member)
    obtain ⟨movedNext, isNext, next⟩ := @drag_step fl useSynthetic _ _ isMoved event
      (keeps event (List.mem_append_right _ List.mem_cons_self))
    refine ⟨movedNext, ?_, ?_⟩
    · rw [run_concat]
      exact isNext
    · rw [next, before, or_assoc]
      simp only [List.mem_append, List.mem_singleton, or_and_right, exists_or, exists_eq_left]

/-- Only the end of a drag that has moved swallows a click. -/
theorem onClick_eq_panned_iff (r : TimelineRenderer) (click : Click) :
    PerfWeave.onClick r click = .panned ↔ click.lastDragMoved = true := by
  constructor
  · intro panned
    by_contra still
    unfold PerfWeave.onClick at panned
    rw [if_neg still] at panned
    split at panned
    · exact absurd panned (by simp)
    · split at panned
      · exact absurd panned (by simp)
      · simp only at panned
        split at panned <;> exact absurd panned (by simp)
  · intro moved
    unfold PerfWeave.onClick
    rw [if_pos moved]

/-- After a click, no drag is remembered. -/
theorem lastDragMoved_onClick (state : Navigation) (r : TimelineRenderer) (click : Click) :
    (state.onClick r click).lastDragMoved = false := by
  have kept : PerfWeave.onClick r (state.clickHere click) ≠ .panned →
      state.lastDragMoved = false := by
    intro other
    rw [Ne, onClick_eq_panned_iff] at other
    exact Bool.eq_false_of_not_eq_true other
  unfold Navigation.onClick
  split
  · rfl
  · rename_i outcome
    exact kept (by simp [outcome])
  · rename_i outcome
    exact kept (by simp [outcome])
  · rename_i outcome
    exact kept (by simp [outcome])

end Navigation

/-- While the pointer holds the timeline, a move of it shows the window it took hold of, shifted by
where the pointer stands alone: whatever its way there, the wheel, the clock and live mode have done
meanwhile. Back where it took hold, the window is the one from then. -/
theorem drag_shows (fl : ℚ → ℚ) (useSynthetic : Bool) (state : Navigation) (x : ℚ)
    (events : List NavigationEvent) (keeps : ∀ event ∈ events, event.KeepsHold) (clientX : ℚ)
    (clientWidth : ℕ+) :
    let grabbed := state.effViewport
    let reached := run (Navigation.step fl useSynthetic) state
      (.mouseDown x :: (events ++ [.mouseMove clientX clientWidth]))
    reached.live = false ∧
      reached.effViewport =
        grabbed.shifted (Navigation.dragShift fl ⟨x, grabbed, false⟩ clientX clientWidth) ∧
      (fl 0 = 0 → clientX = x → reached.effViewport = grabbed) := by
  intro grabbed reached
  obtain ⟨moved, isDrag, _⟩ := @Navigation.drag_run fl useSynthetic
    (state.step fl useSynthetic (.mouseDown x)) _ rfl _ keeps
  have shown : reached.live = false ∧ reached.effViewport =
      grabbed.shifted (Navigation.dragShift fl ⟨x, grabbed, false⟩ clientX clientWidth) := by
    have last : reached = (run (Navigation.step fl useSynthetic)
        (state.step fl useSynthetic (.mouseDown x)) events).onMouseMove fl clientX clientWidth := by
      show run _ state (_ :: _) = _
      rw [run_cons, run_concat]
      rfl
    rw [last, Navigation.onMouseMove]
    simp only [isDrag]
    exact ⟨rfl, rfl⟩
  refine ⟨shown.1, shown.2, fun exactZero back => ?_⟩
  rw [shown.2, Navigation.dragShift, back, sub_self, exactZero, zero_div, exactZero, zero_mul,
    exactZero, Int.floor_zero, neg_zero]
  exact congrArg₂ TimeWindow.mk (add_zero _) (add_zero _)

theorem drag_shows_there_and_back :
    let grabbed := (Navigation.mounted false 1000000 1000000).effViewport
    let reached := run (Navigation.step id false) (.mounted false 1000000 1000000)
      (.mouseDown 500 :: ([.mouseMove 300 1000, .pressLive] ++ [.mouseMove 500 1000]))
    reached.live = false ∧
      reached.effViewport =
        grabbed.shifted (Navigation.dragShift id ⟨500, grabbed, false⟩ 500 1000) ∧
      (id (0 : ℚ) = 0 → (500 : ℚ) = 500 → reached.effViewport = grabbed) :=
  drag_shows id false (.mounted false 1000000 1000000) 500 [.mouseMove 300 1000, .pressLive]
    (List.forall_mem_cons.mpr ⟨trivial, List.forall_mem_singleton.mpr trivial⟩) 500 1000

/-- The click that ends a drag is swallowed exactly when some move of the drag was more than two
pixels from where it took hold, even one it came back from; the click after that never is. -/
theorem click_swallowed_iff (fl : ℚ → ℚ) (useSynthetic : Bool) (state : Navigation) (x : ℚ)
    (events : List NavigationEvent) (keeps : ∀ event ∈ events, event.KeepsHold)
    (r : TimelineRenderer) (click : Click) :
    let reached := run (Navigation.step fl useSynthetic) state
      (.mouseDown x :: (events ++ [.mouseUp]))
    (onClick r (reached.clickHere click) = .panned ↔
        ∃ event ∈ events, event.MovesFrom fl x) ∧
      ∀ other, onClick r ((reached.onClick r click).clickHere other) ≠ .panned := by
  intro reached
  obtain ⟨moved, isDrag, iffMoved⟩ := @Navigation.drag_run fl useSynthetic
    (state.step fl useSynthetic (.mouseDown x)) _ rfl _ keeps
  constructor
  · have last : reached.lastDragMoved = moved := by
      have released : reached = (run (Navigation.step fl useSynthetic)
          (state.step fl useSynthetic (.mouseDown x)) events).onMouseUp := by
        show run _ state (_ :: _) = _
        rw [run_cons, run_concat]
        rfl
      rw [released, Navigation.onMouseUp]
      simp only [isDrag]
      rfl
    rw [Navigation.onClick_eq_panned_iff]
    show reached.lastDragMoved = true ↔ _
    rw [last, iffMoved]
    exact or_iff_right Bool.false_ne_true
  · intro other swallowed
    rw [Navigation.onClick_eq_panned_iff] at swallowed
    have forgotten : (reached.onClick r click).lastDragMoved = true := swallowed
    rw [Navigation.lastDragMoved_onClick] at forgotten
    exact Bool.false_ne_true forgotten

theorem click_swallowed_there_and_back :
    let reached := run (Navigation.step id false) (.mounted false 1000000 1000000)
      (.mouseDown 500 :: ([.mouseMove 300 1000, .mouseMove 500 1000] ++ [.mouseUp]))
    (onClick ⟨[], 0, []⟩ (reached.clickHere clickOnKernel) = .panned ↔
        ∃ event ∈ [NavigationEvent.mouseMove 300 1000, .mouseMove 500 1000],
          event.MovesFrom id 500) ∧
      ∀ other, onClick ⟨[], 0, []⟩
        ((reached.onClick ⟨[], 0, []⟩ clickOnKernel).clickHere other) ≠ .panned :=
  click_swallowed_iff id false (.mounted false 1000000 1000000) 500
    [.mouseMove 300 1000, .mouseMove 500 1000]
    (List.forall_mem_cons.mpr ⟨trivial, List.forall_mem_singleton.mpr trivial⟩) ⟨[], 0, []⟩
    clickOnKernel

/-! ### Measuring -/

/-- An event that measures: a click with the shift key on a bar, with an anchor set. -/
def Navigation.Measures (state : Navigation) : NavigationEvent → Prop
  | .click r click => ∃ anchorNs startNs,
      PerfWeave.onClick r (state.clickHere click) = .measured anchorNs startNs
  | _ => False

namespace Navigation

variable {fl : ℚ → ℚ} {useSynthetic : Bool}

/-- A measurement runs from its earlier end to its later one. -/
def Measured (state : Navigation) : Prop :=
  ∃ window, state.measurement = some window ∧ window.startNs ≤ window.endNs

/-- No event ends a measurement, and only a click that measures makes one. -/
theorem measurement_step (state : Navigation) (event : NavigationEvent) :
    (state.Measures event ∧ (state.step fl useSynthetic event).Measured) ∨
      (¬ state.Measures event ∧
        (state.step fl useSynthetic event).measurement = state.measurement) := by
  cases event with
  | wheel e =>
    refine .inr ⟨id, ?_⟩
    show (state.onWheel fl e).measurement = state.measurement
    rcases @onWheel_cases fl state e with kept | ⟨window, changed, _⟩
    · rw [kept]
    · rw [changed]
      rfl
  | mouseMove clientX clientWidth =>
    refine .inr ⟨id, ?_⟩
    show (state.onMouseMove fl clientX clientWidth).measurement = _
    unfold onMouseMove
    split <;> rfl
  | click r click =>
    show (state.Measures (.click r click) ∧ (state.onClick r click).Measured) ∨
      (¬ state.Measures (.click r click) ∧
        (state.onClick r click).measurement = state.measurement)
    have outside : (∀ anchorNs startNs, PerfWeave.onClick r (state.clickHere click) ≠
        .measured anchorNs startNs) → ¬ state.Measures (.click r click) :=
      fun never ⟨anchorNs, startNs, measures⟩ => never anchorNs startNs measures
    unfold Navigation.onClick
    split
    · rename_i outcome
      exact .inr ⟨outside (by simp [outcome]), rfl⟩
    · rename_i anchorNs startNs outcome
      exact .inl ⟨⟨anchorNs, startNs, outcome⟩, _, rfl, min_le_max⟩
    · rename_i outcome
      exact .inr ⟨outside (by simp [outcome]), rfl⟩
    · rename_i outcome
      exact .inr ⟨outside (by simp [outcome]), rfl⟩
  | pressLive =>
    obtain ⟨live, next⟩ := @step_pressLive fl useSynthetic state
    exact .inr ⟨id, by rw [next]⟩
  | frame frame =>
    obtain ⟨nowNs, next⟩ := @step_frame fl useSynthetic state frame
    exact .inr ⟨id, by rw [next]⟩
  | _ => exact .inr ⟨id, rfl⟩

theorem panelMode_eq_measurement_iff (state : Navigation) (window : TimeWindow) :
    state.panelMode = .measurement window ↔ state.measurement = some window := by
  unfold panelMode
  cases state.measurement with
  | none => cases state.selection <;> simp
  | some other => simp

end Navigation

/-- The panel shows a measurement exactly when some click so far has measured: no click elsewhere,
selection or change of the window ever clears it. What it shows runs from its earlier end to its
later one. -/
theorem measurement_shown_iff (fl : ℚ → ℚ) (useSynthetic : Bool) (appNowMs timelineNowMs : Int)
    (events : List NavigationEvent) :
    ((∃ window,
        (navigationRun fl useSynthetic appNowMs timelineNowMs events).panelMode =
          .measurement window) ↔
      ∃ before event, before ++ [event] <+: events ∧
        (navigationRun fl useSynthetic appNowMs timelineNowMs before).Measures event) ∧
    ∀ window, (navigationRun fl useSynthetic appNowMs timelineNowMs events).panelMode =
      .measurement window → window.startNs ≤ window.endNs := by
  have history : (∀ window,
        (navigationRun fl useSynthetic appNowMs timelineNowMs events).measurement = some window →
          window.startNs ≤ window.endNs) ∧
      ((navigationRun fl useSynthetic appNowMs timelineNowMs events).measurement = none ↔
        ∀ before event, before ++ [event] <+: events →
          ¬ (navigationRun fl useSynthetic appNowMs timelineNowMs before).Measures event) := by
    refine run_induction (motive := fun (events : List NavigationEvent) (state : Navigation) =>
      (∀ window, state.measurement = some window → window.startNs ≤ window.endNs) ∧
      (state.measurement = none ↔ ∀ before event, before ++ [event] <+: events →
        ¬ (navigationRun fl useSynthetic appNowMs timelineNowMs before).Measures event))
      ⟨fun window isWindow => absurd isWindow.symm (Option.some_ne_none window),
        fun _ => forall_step_nil, fun _ => rfl⟩ ?_ events
    rintro events event ⟨ordered, before⟩
    rw [forall_step_concat_iff, ← before]
    rcases @Navigation.measurement_step fl useSynthetic
      (run (Navigation.step fl useSynthetic) (.mounted useSynthetic appNowMs timelineNowMs) events)
      event with ⟨measures, window, isWindow, here⟩ | ⟨otherwise, kept⟩
    · rw [isWindow]
      refine ⟨fun other same => Option.some.inj same ▸ here,
        fun none => absurd none (Option.some_ne_none window), fun both => absurd measures both.2⟩
    · rw [kept]
      exact ⟨ordered, fun none => ⟨none, otherwise⟩, And.left⟩
  simp only [Navigation.panelMode_eq_measurement_iff]
  refine ⟨?_, history.1⟩
  rw [← Option.isSome_iff_exists, ← not_iff_not, Bool.not_eq_true, Option.isSome_eq_false_iff,
    Option.isNone_iff_eq_none, history.2]
  simp only [not_exists, not_and]

/-! ### Pausing -/

/-- An event that leaves the viewport alone: the button, a frame, a click, and a move of the pointer
that drags nothing. -/
def Navigation.LeavesViewport (state : Navigation) : NavigationEvent → Prop
  | .wheel _ => False
  | .doubleClick _ => False
  | .mouseMove _ _ => state.drag = none
  | _ => True

namespace Navigation

variable {fl : ℚ → ℚ} {useSynthetic : Bool}

theorem viewport_step {state : Navigation} {event : NavigationEvent}
    (leaves : state.LeavesViewport event) :
    (state.step fl useSynthetic event).viewport = state.viewport := by
  cases event with
  | mouseMove clientX clientWidth =>
    have noDrag : state.drag = none := leaves
    show (state.onMouseMove fl clientX clientWidth).viewport = state.viewport
    rw [onMouseMove, noDrag]
  | click r click => exact (state.onClick_keeps r click).2.1
  | pressLive =>
    obtain ⟨live, next⟩ := @step_pressLive fl useSynthetic state
    rw [next]
  | frame frame =>
    obtain ⟨nowNs, next⟩ := @step_frame fl useSynthetic state frame
    rw [next]
  | wheel e => exact absurd leaves id
  | doubleClick dateNowMs => exact absurd leaves id
  | _ => rfl

end Navigation

/-- What watching the page comes to: whether it is live, and the frames that came while it was. -/
structure Watched where
  live : Bool
  frames : List LiveFrame

/-- One event, watched. -/
def Watched.step (watched : Watched) : NavigationEvent → Watched
  | .pressLive => { watched with live := !watched.live }
  | .frame frame =>
    if watched.live then { watched with frames := watched.frames ++ [frame] } else watched
  | _ => watched

/-- What the state of the page is to one who watches it. -/
structure Navigation.Follows (timelineNowMs : Int) (state : Navigation) (watched : Watched) :
    Prop where
  live : state.live = watched.live
  nowNs : state.nowNs = clockAfter (timelineNowMs * 1000000) watched.frames

theorem Navigation.Follows.step {fl : ℚ → ℚ} {timelineNowMs : Int} {state : Navigation}
    {watched : Watched} (follows : state.Follows timelineNowMs watched) {event : NavigationEvent}
    (leaves : state.LeavesViewport event) :
    (state.step fl false event).Follows timelineNowMs (watched.step event) := by
  cases event with
  | mouseMove clientX clientWidth =>
    have noDrag : state.drag = none := leaves
    show (state.onMouseMove fl clientX clientWidth).Follows timelineNowMs watched
    rw [onMouseMove, noDrag]
    exact follows
  | click r click =>
    obtain ⟨live, _, nowNs, _⟩ := state.onClick_keeps r click
    exact ⟨live.trans follows.live, nowNs.trans follows.nowNs⟩
  | pressLive => exact ⟨congrArg not follows.live, follows.nowNs⟩
  | frame frame =>
    by_cases live : watched.live = true
    · rw [Navigation.step, Watched.step, if_pos (follows.live.trans live), if_pos live]
      refine ⟨follows.live, ?_⟩
      show advanceClock state.nowNs frame = _
      rw [clockAfter_concat, follows.nowNs]
    · have paused : ¬ state.live = true := fun isLive => live (follows.live.symm.trans isLive)
      rw [Navigation.step, Watched.step, if_neg paused, if_neg live]
      exact follows
  | wheel e => exact absurd leaves id
  | doubleClick dateNowMs => exact absurd leaves id
  | _ => exact ⟨follows.live, follows.nowNs⟩

/-- As long as nothing moves the window, the page shows the minute up to its clock while it is live,
which has stood still whenever it was not; paused, it shows the minute before it was opened, however
long ago that is. -/
theorem paused_shows_opening (fl : ℚ → ℚ) (appNowMs timelineNowMs : Int)
    (events : List NavigationEvent)
    (leaves : ∀ before event, before ++ [event] <+: events →
      (navigationRun fl false appNowMs timelineNowMs before).LeavesViewport event) :
    (navigationRun fl false appNowMs timelineNowMs events).effViewport =
      let watched := run Watched.step ⟨true, []⟩ events
      let endNs :=
        if watched.live then clockAfter (timelineNowMs * 1000000) watched.frames
        else appNowMs * 1000000
      ⟨endNs - liveWindowNs, endNs⟩ := by
  have history : (navigationRun fl false appNowMs timelineNowMs events).viewport =
        (Navigation.mounted false appNowMs timelineNowMs).viewport ∧
      (navigationRun fl false appNowMs timelineNowMs events).Follows timelineNowMs
        (run Watched.step ⟨true, []⟩ events) := by
    induction events using List.reverseRecOn with
    | nil => exact ⟨rfl, rfl, rfl⟩
    | append_singleton events event inductionHypothesis =>
      obtain ⟨viewport, follows⟩ := inductionHypothesis fun before other isPrefix =>
        leaves before other (isPrefix.trans (List.prefix_append _ _))
      have here := leaves events event List.prefix_rfl
      unfold navigationRun at here viewport follows ⊢
      rw [run_concat, run_concat, Navigation.viewport_step here]
      exact ⟨viewport, follows.step here⟩
  obtain ⟨viewport, live, nowNs⟩ := history
  have range : (Navigation.mounted false appNowMs timelineNowMs).viewport.rangeNs =
      liveWindowNs := sub_sub_cancel _ _
  rw [Navigation.effViewport, viewport, range, live, nowNs]
  dsimp only
  split <;> rfl

theorem paused_shows_opening_after_frame :
    (navigationRun id false 1000000 1000000
        [.frame ⟨2000000, none, 0⟩, .mouseMove 10 1000, .pressLive]).effViewport =
      let watched := run Watched.step ⟨true, []⟩
        [.frame ⟨2000000, none, 0⟩, .mouseMove 10 1000, .pressLive]
      let endNs :=
        if watched.live then clockAfter (1000000 * 1000000) watched.frames else 1000000 * 1000000
      ⟨endNs - liveWindowNs, endNs⟩ :=
  paused_shows_opening id 1000000 1000000
    [.frame ⟨2000000, none, 0⟩, .mouseMove 10 1000, .pressLive] (by
      refine (forall_step_cons_iff _ _).mpr ⟨trivial, (forall_step_cons_iff _ _).mpr ⟨rfl, ?_⟩⟩
      exact (forall_step_cons_iff _ _).mpr ⟨trivial, forall_step_nil⟩)

end PerfWeave
