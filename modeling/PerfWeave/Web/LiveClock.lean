/-
This file models the virtual clock of live mode, the animation loop of
`web/src/timeline/Timeline.tsx`: each frame snaps the clock to the anchored server time when that
is ahead of it, and else moves it by a fixed step. The clock never stands still and never falls
behind an anchored time; how far it runs ahead of all of them depends on two frames in a row.
-/

import PerfWeave.Library.Run

namespace PerfWeave

/-! ### Frames -/

/-- What a frame of live mode reads: `Date.now()` in whole milliseconds, the skew when it is
finite, and the time of the newest sample. -/
structure LiveFrame where
  dateNowMs : Int
  skewNs : Option ℚ
  liveLastTsNs : Int

/-- `Math.round`: to the nearest integer, and up from the middle. -/
def mathRound (number : ℚ) : Int := ⌊number + 1 / 2⌋

/-- The server's wall clock, as far as the skew is known. -/
def LiveFrame.serverWall (frame : LiveFrame) : Int :=
  let clientWall := frame.dateNowMs * 1000000
  match frame.skewNs with
  | some skew => clientWall + mathRound skew
  | none => clientWall

/-- The time a frame is anchored at. -/
def LiveFrame.anchored (frame : LiveFrame) : Int :=
  let last := frame.liveLastTsNs
  if last > 0 ∧ last > frame.serverWall then last else frame.serverWall

/-- The step of a frame that does not snap, in nanoseconds. -/
def frameStepNs : Int := 16666666

/-- The clock after a frame. -/
def advanceClock (nowNs : Int) (frame : LiveFrame) : Int :=
  if frame.anchored > nowNs then frame.anchored else nowNs + frameStepNs

/-- The clock after frames. -/
def clockAfter (initialNs : Int) (frames : List LiveFrame) : Int :=
  run advanceClock initialNs frames

/-- The largest anchored time of the frames, or the initial value. -/
def largestAnchored (initialNs : Int) (frames : List LiveFrame) : Int :=
  run (fun largest frame => max largest frame.anchored) initialNs frames

/-- A frame that moves the clock by a step. -/
def Idles (nowNs : Int) (frame : LiveFrame) : Prop := frame.anchored ≤ nowNs

/-! ### The clock and the anchored times -/

theorem advanceClock_of_idles {nowNs : Int} {frame : LiveFrame} (idles : Idles nowNs frame) :
    advanceClock nowNs frame = nowNs + frameStepNs :=
  if_neg (not_lt.mpr idles)

theorem advanceClock_of_not_idles {nowNs : Int} {frame : LiveFrame}
    (snaps : ¬ Idles nowNs frame) : advanceClock nowNs frame = frame.anchored :=
  if_pos (not_le.mp snaps)

/-- A frame moves the clock forward. -/
theorem lt_advanceClock (nowNs : Int) (frame : LiveFrame) : nowNs < advanceClock nowNs frame := by
  by_cases idles : Idles nowNs frame
  · rw [advanceClock_of_idles idles, frameStepNs]
    omega
  · rw [advanceClock_of_not_idles idles]
    exact not_le.mp idles

/-- The clock is never behind an anchored time. -/
theorem largestAnchored_le_clockAfter (initialNs : Int) (frames : List LiveFrame) :
    largestAnchored initialNs frames ≤ clockAfter initialNs frames := by
  refine run_simulation (motive := fun largest now => largest ≤ now) le_rfl ?_ frames
  intro largest now frame notBehind
  have forward := lt_advanceClock now frame
  refine max_le (notBehind.trans forward.le) ?_
  by_cases idles : Idles now frame
  · exact le_trans idles forward.le
  · exact (advanceClock_of_not_idles idles).ge

theorem clockAfter_concat (initialNs : Int) (frames : List LiveFrame) (frame : LiveFrame) :
    clockAfter initialNs (frames ++ [frame]) = advanceClock (clockAfter initialNs frames) frame :=
  run_concat _ _ _ _

theorem largestAnchored_concat (initialNs : Int) (frames : List LiveFrame) (frame : LiveFrame) :
    largestAnchored initialNs (frames ++ [frame]) =
      max (largestAnchored initialNs frames) frame.anchored :=
  run_concat _ _ _ _

/-- A frame that snaps leaves the clock at the largest anchored time. -/
theorem clockAfter_of_not_idles {initialNs : Int} {frames : List LiveFrame} {frame : LiveFrame}
    (snaps : ¬ Idles (clockAfter initialNs frames) frame) :
    clockAfter initialNs (frames ++ [frame]) = largestAnchored initialNs (frames ++ [frame]) := by
  have ahead : clockAfter initialNs frames < frame.anchored := not_le.mp snaps
  rw [clockAfter_concat, advanceClock_of_not_idles snaps, largestAnchored_concat, max_eq_right]
  exact (largestAnchored_le_clockAfter initialNs frames).trans ahead.le

/-- A frame that does not snap leaves the clock ahead of every anchored time. -/
theorem largestAnchored_lt_of_idles {initialNs : Int} {frames : List LiveFrame}
    {frame : LiveFrame} (idles : Idles (clockAfter initialNs frames) frame) :
    largestAnchored initialNs (frames ++ [frame]) < clockAfter initialNs (frames ++ [frame]) := by
  rw [clockAfter_concat, largestAnchored_concat]
  exact lt_of_le_of_lt (max_le (largestAnchored_le_clockAfter initialNs frames) idles)
    (lt_advanceClock _ frame)

/-! ### The lead of the clock -/

/-- The clock is ahead of the anchored times by no more than a step. -/
def IsAnchored (initialNs : Int) (frames : List LiveFrame) : Prop :=
  clockAfter initialNs frames ≤ largestAnchored initialNs frames + frameStepNs

/-- There is a last frame, and it did not snap. -/
def LastIdled (initialNs : Int) (frames : List LiveFrame) : Prop :=
  ∃ earlier last, frames = earlier ++ [last] ∧ Idles (clockAfter initialNs earlier) last

/-- Unless the last frame did not snap, the clock is at the largest anchored time. -/
theorem clockAfter_of_not_lastIdled {initialNs : Int} {frames : List LiveFrame}
    (snapped : ¬ LastIdled initialNs frames) :
    clockAfter initialNs frames = largestAnchored initialNs frames := by
  induction frames using List.reverseRecOn with
  | nil => rfl
  | append_singleton earlier last =>
    exact clockAfter_of_not_idles fun idles => snapped ⟨earlier, last, rfl, idles⟩

/-- A frame leaves the clock anchored exactly when it snaps, comes after one that did, or finds the
clock at its anchored time. -/
theorem isAnchored_concat_iff (initialNs : Int) (before : List LiveFrame) (frame : LiveFrame) :
    IsAnchored initialNs (before ++ [frame]) ↔
      (LastIdled initialNs before → clockAfter initialNs before ≤ frame.anchored) := by
  by_cases idles : Idles (clockAfter initialNs before) frame
  · rw [IsAnchored, clockAfter_concat, advanceClock_of_idles idles, add_le_add_iff_right,
      largestAnchored_concat, le_max_iff]
    constructor
    · rintro (behind | atAnchor) ⟨earlier, last, rfl, lastIdles⟩
      · exact absurd behind (not_le.mpr (largestAnchored_lt_of_idles lastIdles))
      · exact atAnchor
    · intro clean
      by_cases lastIdled : LastIdled initialNs before
      · exact Or.inr (clean lastIdled)
      · exact Or.inl (clockAfter_of_not_lastIdled lastIdled).le
  · refine iff_of_true ?_ fun _ => (not_le.mp idles).le
    rw [IsAnchored, clockAfter_of_not_idles idles, frameStepNs]
    omega

/-- In any run of frames, every frame moves the clock forward and leaves it anchored exactly when
each frame after one that did not snap finds an anchored time that is not behind the clock. -/
theorem clock_staysAnchored_iff (initialNs : Int) (frames : List LiveFrame) :
    (∀ before frame, before ++ [frame] <+: frames →
        clockAfter initialNs before < clockAfter initialNs (before ++ [frame]) ∧
          IsAnchored initialNs (before ++ [frame])) ↔
      ∀ before frame, before ++ [frame] <+: frames → LastIdled initialNs before →
        clockAfter initialNs before ≤ frame.anchored := by
  refine forall₃_congr fun before frame _ => ?_
  have forward : clockAfter initialNs before < clockAfter initialNs (before ++ [frame]) := by
    rw [clockAfter_concat]
    exact lt_advanceClock _ frame
  rw [and_iff_right forward, isAnchored_concat_iff]

/-- Two frames of a display that draws every 16 milliseconds, without a skew or a sample. -/
def sixteenMsFrames : List LiveFrame := [⟨1000, none, 0⟩, ⟨1016, none, 0⟩]

/-- After them a clock that has started at the time of the first is more than a step ahead. -/
theorem exists_unanchored :
    ∃ (initialNs : Int) (frames : List LiveFrame),
      frames.Pairwise (fun first second => first.dateNowMs ≤ second.dateNowMs) ∧
        largestAnchored initialNs frames + frameStepNs < clockAfter initialNs frames :=
  ⟨1000000000, sixteenMsFrames, by decide, by decide⟩

end PerfWeave
