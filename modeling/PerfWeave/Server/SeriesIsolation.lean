/-
This file proves that the series do not influence each other. The abstract system knows one
series only: its ring, the tails of it that were published last, the detector's entry and the
spikes. It is the part of the full system that the series can see: on the pushes to the series
and the moments of publishes and ticks it goes where the full system goes, so two runs with the
same view of a series agree on it, whatever else was pushed and in whatever order the maps are
iterated.
-/

import PerfWeave.Server.SpikeRuns

namespace PerfWeave

variable {Value : Type}

/-! ### One series on its own -/

/-- What one series can see of an input. -/
inductive SeriesInput (Value : Type) where
  | push (s : Sample Value)
  | publish
  | tick

/-- The view of a series: the pushes to it, and the moments of the publishes and ticks. -/
def SpikeInput.viewOf (key : SeriesKey) : SpikeInput Value → Option (SeriesInput Value)
  | .push other s => if other = key then some (.push s) else none
  | .publish _ => some .publish
  | .tick _ => some .tick

/-- One series: its ring, its published tails, what the detector remembers and its spikes. -/
structure SeriesWatch (Value : Type) where
  writer : Option (SeriesRing Value)
  published : Option (SeriesSnapshot Value)
  entry : SeriesEntry Value
  spikes : List (SpikeEvent Value)

/-- The part of the system that belongs to a series. -/
def SpikeWatch.project (key : SeriesKey) (state : SpikeWatch Value) : SeriesWatch Value where
  writer := state.ring.writer key
  published := state.ring.snapshot.series key
  entry := state.detector.entries key
  spikes := ownedBy SpikeEvent.key key state.spikes

/-- The order of a tick is one in which the snapshot's map can iterate its keys: each of them
once, and no other. -/
def SpikeInput.Iterates (state : SpikeWatch Value) : SpikeInput Value → Prop
  | .tick order => order.Nodup ∧ ∀ k, k ∈ order ↔ (state.ring.snapshot.series k).isSome
  | _ => True

section Run

variable [Zero Value] [Add Value] [Sub Value] [Mul Value] [NatCast Value] [OfScientific Value]
  [LT Value] [DecidableLT Value] [LE Value] [DecidableLE Value] [PartialArithmetic Value]

/-- One input to a series on its own. -/
def SeriesWatch.step (key : SeriesKey) (state : SeriesWatch Value) :
    SeriesInput Value → Option (SeriesWatch Value)
  | .push s => some { state with writer := some ((state.writer.getD .new).push s) }
  | .publish => some { state with published := state.writer.map SeriesRing.snapshot }
  | .tick => do
    let (entry, emitted) ← state.entry.visit (state.published.bind SeriesSnapshot.latest) key
    return { state with entry, spikes := state.spikes ++ emitted }

/-- What a tick can do to a series: nothing when no sample of it is published, else learn the newest
one and report the spike that fires on it. -/
theorem SeriesWatch.step_tick_cases {key : SeriesKey} {state next : SeriesWatch Value}
    (steps : state.step key .tick = some next) :
    ((state.published.bind fun snap => snap.fast.getLast?) = none ∧ next = state) ∨
      ∃ snap s w fired, state.published = some snap ∧ snap.fast.getLast? = some s ∧
        (state.entry.welford.getD .default).update s.value = some w ∧
        spikeAt key s.value snap w state.entry.lastFiredTs = some fired ∧
        next = { state with
          entry := ⟨some w, (fired.map SpikeEvent.bucketStartNs).or state.entry.lastFiredTs⟩
          spikes := state.spikes ++ fired.toList } := by
  obtain ⟨⟨entry, emitted⟩, visited, same⟩ := Option.bind_eq_some_iff.mp steps
  obtain rfl := Option.some.inj same
  have unread (unread : (state.published.bind SeriesSnapshot.latest) = none) :
      ({ state with entry, spikes := state.spikes ++ emitted } : SeriesWatch Value) = state := by
    rw [unread] at visited
    obtain ⟨rfl, rfl⟩ := Prod.mk.inj (Option.some.inj visited)
    rw [List.append_nil]
  cases shown : state.published with
  | none =>
    refine .inl ⟨rfl, ?_⟩
    rw [shown] at unread
    exact unread rfl
  | some snap =>
    cases latest : snap.fast.getLast? with
    | none =>
      refine .inl ⟨latest, ?_⟩
      rw [shown, Option.bind_some, SeriesSnapshot.latest, latest] at unread
      exact unread rfl
    | some s =>
      rw [shown, Option.bind_some, SeriesSnapshot.latest, latest] at visited
      obtain ⟨w, fired, updates, fires, rfl, rfl⟩ := SeriesEntry.judge_eq_some_iff.mp visited
      exact .inr ⟨snap, s, w, fired, rfl, latest, updates, fires, rfl⟩

/-- A tick does to a series what a visit does to it, whether or not the snapshot has it. -/
theorem SpikeDetector.visit_of_tickOnce {d after : SpikeDetector Value}
    {snapshot : FastRingSnapshot Value} {order : List SeriesKey}
    {emitted : List (SpikeEvent Value)} (once : order.Nodup)
    (all : ∀ k, k ∈ order ↔ (snapshot.series k).isSome)
    (ticked : d.tickOnce snapshot order = some (after, emitted)) (key : SeriesKey) :
    (d.entries key).visit (snapshot.latest key) key =
      some (after.entries key, ownedBy SpikeEvent.key key emitted) := by
  have passed := d.tickOnce_entries snapshot order
  rw [ticked, Option.map_some, eq_comm] at passed
  have owned := fun k entry next emitted =>
    @SeriesEntry.visit_key Value _ _ _ _ _ _ _ _ _ _ _ (snapshot.latest k) k entry next emitted
  by_cases visited : key ∈ order
  · exact pass_of_mem owned passed once visited
  · obtain ⟨kept, silent⟩ := pass_of_not_mem owned passed visited
    rw [all, Option.not_isSome_iff_eq_none] at visited
    have unread : snapshot.latest key = none := by
      rw [FastRingSnapshot.latest, visited, Option.bind_none]
    rw [unread, kept, silent]
    rfl

/-- What a series cannot see leaves its part alone. -/
theorem SpikeWatch.project_of_hidden {key : SeriesKey} {state next : SpikeWatch Value}
    {input : SpikeInput Value} (steps : state.step input = some next)
    (hidden : input.viewOf key = none) : next.project key = state.project key := by
  cases input with
  | publish now => exact absurd hidden nofun
  | tick order => exact absurd hidden nofun
  | push other s =>
    have differs : key ≠ other := by
      rintro rfl
      exact absurd hidden (by rw [SpikeInput.viewOf, if_pos rfl]; nofun)
    have same := Option.some.inj steps
    subst same
    unfold project
    simp only [FastRing.push_writer_of_ne _ differs, FastRing.push_snapshot]

/-- What a series sees moves its part as it moves a series on its own. -/
theorem SpikeWatch.step_project {key : SeriesKey} {state next : SpikeWatch Value}
    {input : SpikeInput Value} {seen : SeriesInput Value} (iterates : input.Iterates state)
    (steps : state.step input = some next) (view : input.viewOf key = some seen) :
    (state.project key).step key seen = some (next.project key) := by
  cases input with
  | push other s =>
    rw [SpikeInput.viewOf] at view
    split at view
    · rename_i same
      subst same
      obtain rfl := Option.some.inj view
      obtain rfl := Option.some.inj steps
      unfold project SeriesWatch.step
      rw [FastRing.push_writer_self, FastRing.push_snapshot]
    · exact absurd view nofun
  | publish now =>
    obtain rfl := Option.some.inj view
    obtain rfl := Option.some.inj steps
    rfl
  | tick order =>
    obtain rfl := Option.some.inj view
    obtain ⟨⟨detector, emitted⟩, ticked, same⟩ := Option.bind_eq_some_iff.mp steps
    obtain rfl := Option.some.inj same
    have visited := SpikeDetector.visit_of_tickOnce iterates.1 iterates.2 ticked key
    unfold project SeriesWatch.step
    simp only [ownedBy_append]
    rw [← FastRingSnapshot.latest, visited]
    rfl

/-- Every tick of a run iterates the snapshot that it sees. -/
def RunIterates (inputs : List (SpikeInput Value)) : Prop :=
  ∀ before input, before ++ [input] <+: inputs → ∀ state,
    runPartial SpikeWatch.step .start before = some state → input.Iterates state

/-- A run whose only tick is its last input iterates as soon as that tick does. -/
theorem runIterates_concat {inputs : List (SpikeInput Value)} {last : SpikeInput Value}
    (noTick : ∀ order, .tick order ∉ inputs)
    (iterates : ∀ state, runPartial SpikeWatch.step .start inputs = some state →
      last.Iterates state) : RunIterates (inputs ++ [last]) := by
  refine (forall_step_concat_iff inputs last).mpr
    ⟨fun before input isPrefix state _ => ?_, iterates⟩
  have member := isPrefix.subset (List.mem_append_right _ (List.mem_singleton_self input))
  cases input with
  | push key s => exact trivial
  | publish now => exact trivial
  | tick order => exact absurd member (noTick order)

/-- The part of the system that belongs to a series goes where the series on its own goes on its
view of the inputs. -/
theorem SpikeWatch.run_project (key : SeriesKey) {inputs : List (SpikeInput Value)}
    (iterates : RunIterates inputs) {state : SpikeWatch Value}
    (reached : runPartial SpikeWatch.step .start inputs = some state) :
    runPartial (SeriesWatch.step key) (SpikeWatch.start.project key)
      (inputs.filterMap (SpikeInput.viewOf key)) = some (state.project key) := by
  refine @runPartial_project _ _ _ _ step start (SeriesWatch.step key) (project key)
    (SpikeInput.viewOf key) (fun state input => input.Iterates state) ?_ ?_ inputs iterates state
    reached
  · exact fun _ _ _ _ steps hidden => project_of_hidden steps hidden
  · exact fun _ _ _ _ admissible steps view => step_project admissible steps view

end Run

/-! ### Two runs -/

/-- Two runs in exact arithmetic with the same view of a series, each iterating the maps in an
order of its own, agree on its statistics and on the spikes reported for it. -/
theorem series_isolated (key : SeriesKey) (first second : List (SpikeInput ℝ))
    (firstIterates : RunIterates first) (secondIterates : RunIterates second)
    (sameView : first.filterMap (SpikeInput.viewOf key) =
      second.filterMap (SpikeInput.viewOf key)) :
    ∃ firstState secondState, runPartial SpikeWatch.step .start first = some firstState ∧
      runPartial SpikeWatch.step .start second = some secondState ∧
      firstState.detector.welford key = secondState.detector.welford key ∧
      firstState.detector.lastFiredTs key = secondState.detector.lastFiredTs key ∧
      ownedBy SpikeEvent.key key firstState.spikes =
        ownedBy SpikeEvent.key key secondState.spikes := by
  obtain ⟨firstState, firstReached, _⟩ := SpikeWatch.run_sound first
  obtain ⟨secondState, secondReached, _⟩ := SpikeWatch.run_sound second
  have firstPart := SpikeWatch.run_project key firstIterates firstReached
  have secondPart := SpikeWatch.run_project key secondIterates secondReached
  rw [sameView, secondPart, Option.some.injEq] at firstPart
  have entries := congrArg SeriesWatch.entry firstPart
  exact ⟨firstState, secondState, firstReached, secondReached,
    (congrArg SeriesEntry.welford entries).symm, (congrArg SeriesEntry.lastFiredTs entries).symm,
    (congrArg SeriesWatch.spikes firstPart).symm⟩

/-- The series `⟨0, 0, 42⟩` alone. -/
def loneSeries : List (SpikeInput ℝ) :=
  [.push ⟨0, 0, 42⟩ ⟨1000000000, 7⟩, .publish 5] ++ [.tick [⟨0, 0, 42⟩]]

/-- The same series beside one of another GPU. -/
def sharedRing : List (SpikeInput ℝ) :=
  [.push ⟨0, 1, 42⟩ ⟨1000000000, 9⟩, .push ⟨0, 0, 42⟩ ⟨1000000000, 7⟩, .publish 6] ++
    [.tick [⟨0, 1, 42⟩, ⟨0, 0, 42⟩]]

/-- A series is learned the same way beside another one. -/
theorem loneSeries_sharedRing_agree :
    ∃ firstState secondState, runPartial SpikeWatch.step .start loneSeries = some firstState ∧
      runPartial SpikeWatch.step .start sharedRing = some secondState ∧
      firstState.detector.welford ⟨0, 0, 42⟩ = secondState.detector.welford ⟨0, 0, 42⟩ ∧
      firstState.detector.lastFiredTs ⟨0, 0, 42⟩ = secondState.detector.lastFiredTs ⟨0, 0, 42⟩ ∧
      ownedBy SpikeEvent.key ⟨0, 0, 42⟩ firstState.spikes =
        ownedBy SpikeEvent.key ⟨0, 0, 42⟩ secondState.spikes := by
  refine series_isolated ⟨0, 0, 42⟩ loneSeries sharedRing ?_ ?_ rfl
  · refine runIterates_concat (by simp) fun state reached => ?_
    obtain rfl := Option.some.inj reached
    refine ⟨by decide, fun k => ?_⟩
    rw [FastRing.isSome_publish_series, FastRing.isSome_push_writer, List.mem_singleton]
    exact (or_iff_left nofun).symm
  · refine runIterates_concat (by simp) fun state reached => ?_
    obtain rfl := Option.some.inj reached
    refine ⟨by decide, fun k => ?_⟩
    rw [FastRing.isSome_publish_series, FastRing.isSome_push_writer,
      FastRing.isSome_push_writer, List.mem_cons, List.mem_singleton, or_left_comm]
    exact or_congr_right (or_iff_left nofun).symm

end PerfWeave
