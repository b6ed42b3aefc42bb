/-
This file is about how a run of the collector can go on. Whatever one series is to see next, there
are inputs of the whole collector that show it exactly that, with the ticks iterating the maps as
they are then: a snapshot has finitely many series. And a series on its own remembers of its past
the samples pushed to it, the samples learned and, of its spikes, the time of the last one, which
is that of a learned sample.
-/

import PerfWeave.Server.LearnedSamples

namespace PerfWeave

variable {Value : Type} [Zero Value] [Add Value] [Sub Value] [Mul Value] [NatCast Value]
  [OfScientific Value] [LT Value] [DecidableLT Value] [LE Value] [DecidableLE Value]
  [PartialArithmetic Value]

/-! ### What a series remembers -/

/-- The ring of a series has taken the samples pushed to it. -/
theorem SeriesWatch.writer_of_run {key : SeriesKey} {start state : SeriesWatch Value}
    (unpushed : start.writer = none) {inputs : List (SeriesInput Value)}
    (reached : runPartial (SeriesWatch.step key) start inputs = some state) :
    state.writer.getD .new =
      run SeriesRing.push .new (inputs.filterMap SeriesInput.sample) := by
  refine runPartial_history (motive := fun inputs (state : SeriesWatch Value) =>
    state.writer.getD .new = run SeriesRing.push .new (inputs.filterMap SeriesInput.sample))
    (by rw [unpushed]; rfl) ?_ reached
  intro inputs input before next _ steps same
  rw [List.filterMap_append]
  cases input with
  | push s =>
    obtain rfl := Option.some.inj steps
    rw [same, Option.getD_some]
    exact (run_concat _ _ _ s).symm
  | publish =>
    obtain rfl := Option.some.inj steps
    exact same.trans (congrArg _ (List.append_nil _).symm)
  | tick =>
    obtain ⟨_, _, rest⟩ := Option.bind_eq_some_iff.mp steps
    obtain rfl := Option.some.inj rest
    exact same.trans (congrArg _ (List.append_nil _).symm)

/-- A run appends to the spikes of a series. -/
theorem SeriesWatch.spikes_prefix {key : SeriesKey} {start state : SeriesWatch Value}
    {inputs : List (SeriesInput Value)}
    (reached : runPartial (SeriesWatch.step key) start inputs = some state) :
    start.spikes <+: state.spikes := by
  refine runPartial_history (motive := fun _ (state : SeriesWatch Value) =>
    start.spikes <+: state.spikes) List.prefix_rfl ?_ reached
  intro _ input before next _ steps grown
  cases input with
  | push s =>
    obtain rfl := Option.some.inj steps
    exact grown
  | publish =>
    obtain rfl := Option.some.inj steps
    exact grown
  | tick =>
    obtain ⟨_, _, rest⟩ := Option.bind_eq_some_iff.mp steps
    obtain rfl := Option.some.inj rest
    exact grown.trans (List.prefix_append _ _)

/-- The time of the last spike of a series is that of a learned sample. -/
theorem SeriesWatch.lastFiredTs_of_run {key : SeriesKey} {start state : SeriesWatch Value}
    (initial : start.Follows .empty) (silent : start.entry.lastFiredTs = none)
    {inputs : List (SeriesInput Value)}
    (reached : runPartial (SeriesWatch.step key) start inputs = some state) :
    ∀ ts ∈ state.entry.lastFiredTs,
      ∃ s ∈ (run SampleRegister.step .empty inputs).learned, s.tsNs = ts := by
  refine runPartial_history (motive := fun inputs (state : SeriesWatch Value) =>
    ∀ ts ∈ state.entry.lastFiredTs,
      ∃ s ∈ (run SampleRegister.step .empty inputs).learned, s.tsNs = ts)
    (by rw [silent]; nofun) ?_ reached
  intro inputs input before next reachedBefore steps remembered
  have follows := follows_run initial inputs reachedBefore
  rw [run_concat]
  cases input with
  | push s =>
    obtain rfl := Option.some.inj steps
    exact remembered
  | publish =>
    obtain rfl := Option.some.inj steps
    exact remembered
  | tick =>
    rcases step_tick_cases steps with
      ⟨_, rfl⟩ | ⟨snap, s, w, fired, shown, latest, _, fires, rfl⟩
    · intro ts isLast
      obtain ⟨s, learned, stamp⟩ := remembered ts isLast
      exact ⟨s, List.mem_append_left _ learned, stamp⟩
    · have published := follows.published
      rw [shown, Option.bind_some, latest] at published
      intro ts isLast
      cases fired with
      | none =>
        obtain ⟨s, learned, stamp⟩ := remembered ts isLast
        exact ⟨s, List.mem_append_left _ learned, stamp⟩
      | some ev =>
        obtain ⟨_, _, _, _, _, _, _, _, rfl⟩ := spikeAt_fires fires
        refine ⟨s, ?_, ?_⟩
        · rw [SampleRegister.step, ← published]
          exact List.mem_append_right _ (List.mem_singleton_self s)
        · rw [latest] at isLast
          exact Option.some.inj isLast

/-! ### Inputs for a view -/

/-- The writer of a run, and so its snapshot, has finitely many series. -/
theorem SpikeWatch.exists_keys {inputs : List (SpikeInput Value)} {state : SpikeWatch Value}
    (reached : runPartial SpikeWatch.step .start inputs = some state) :
    ∃ keys : List SeriesKey, ∀ k,
      (state.ring.writer k).isSome ∨ (state.ring.snapshot.series k).isSome → k ∈ keys := by
  refine runPartial_history (motive := fun _ (state : SpikeWatch Value) =>
    ∃ keys : List SeriesKey, ∀ k,
      (state.ring.writer k).isSome ∨ (state.ring.snapshot.series k).isSome → k ∈ keys)
    ⟨[], fun k some => absurd some (by simp [start, FastRing.new])⟩ ?_ reached
  rintro _ input before next _ steps ⟨keys, all⟩
  cases input with
  | push other s =>
    obtain rfl := Option.some.inj steps
    refine ⟨other :: keys, fun k some => ?_⟩
    rw [FastRing.isSome_push_writer, FastRing.push_snapshot, or_assoc] at some
    exact List.mem_cons.mpr (some.imp_right (all k))
  | publish now =>
    obtain rfl := Option.some.inj steps
    refine ⟨keys, fun k some => all k (.inl ?_)⟩
    rw [FastRing.isSome_publish_series] at some
    exact some.elim id id
  | tick order =>
    obtain ⟨_, _, rest⟩ := Option.bind_eq_some_iff.mp steps
    obtain rfl := Option.some.inj rest
    exact ⟨keys, all⟩

/-- A tick of a run can iterate its snapshot. -/
theorem SpikeWatch.exists_order {inputs : List (SpikeInput Value)} {state : SpikeWatch Value}
    (reached : runPartial SpikeWatch.step .start inputs = some state) :
    ∃ order, (SpikeInput.tick order).Iterates state := by
  obtain ⟨keys, all⟩ := exists_keys reached
  refine ⟨keys.dedup.filter fun k => (state.ring.snapshot.series k).isSome,
    (List.nodup_dedup keys).filter _, fun k => ?_⟩
  rw [List.mem_filter, List.mem_dedup]
  exact ⟨fun both => both.2, fun some => ⟨all k (.inr some), some⟩⟩

/-- What a series is to see next can be shown to it by one input of a run. -/
theorem SpikeWatch.exists_input (key : SeriesKey) (inputs : List (SpikeInput Value))
    (seen : SeriesInput Value) :
    ∃ input : SpikeInput Value, input.viewOf key = some seen ∧
      (∀ k s, input = .push k s → seen = .push s) ∧
      ∀ state, runPartial SpikeWatch.step .start inputs = some state → input.Iterates state := by
  cases seen with
  | push s =>
    exact ⟨.push key s, if_pos rfl, fun _ _ same => by cases same; rfl, fun _ _ => trivial⟩
  | publish => exact ⟨.publish 0, rfl, nofun, fun _ _ => trivial⟩
  | tick =>
    cases reached : runPartial SpikeWatch.step .start inputs with
    | none => exact ⟨.tick [], rfl, nofun, nofun⟩
    | some state =>
      obtain ⟨order, iterates⟩ := exists_order reached
      exact ⟨.tick order, rfl, nofun, fun _ same => Option.some.inj same ▸ iterates⟩

/-- Whatever a series is to see next, a run can go on so that it sees just that, and nothing is
pushed but what it sees pushed. -/
theorem SpikeWatch.exists_continuation (key : SeriesKey) {history : List (SpikeInput Value)}
    (iterates : RunIterates history) (plan : List (SeriesInput Value)) :
    ∃ continuation, RunIterates (history ++ continuation) ∧
      continuation.filterMap (SpikeInput.viewOf key) = plan ∧
      ∀ k s, .push k s ∈ continuation → .push s ∈ plan := by
  induction plan using List.reverseRecOn with
  | nil =>
    refine ⟨[], ?_, rfl, fun _ _ absent => absurd absent List.not_mem_nil⟩
    rwa [List.append_nil]
  | append_singleton plan seen inductionHypothesis =>
    obtain ⟨continuation, iteratesPlan, view, pushes⟩ := inductionHypothesis
    obtain ⟨input, inputView, inputPush, inputIterates⟩ :=
      exists_input key (history ++ continuation) seen
    refine ⟨continuation ++ [input], ?_, ?_, fun k s member => ?_⟩
    · rw [← List.append_assoc]
      exact (forall_step_concat_iff _ _).mpr ⟨iteratesPlan, inputIterates⟩
    · rw [List.filterMap_append, view, List.filterMap_cons_some inputView, List.filterMap_nil]
    · rcases List.mem_append.mp member with earlier | isInput
      · exact List.mem_append_left _ (pushes k s earlier)
      · rw [inputPush k s (List.mem_singleton.mp isInput).symm]
        exact List.mem_append_right _ (List.mem_singleton_self _)

omit [Zero Value] [Add Value] [Sub Value] [Mul Value] [NatCast Value] [OfScientific Value]
  [LT Value] [DecidableLT Value] [LE Value] [DecidableLE Value] [PartialArithmetic Value]

/-- Ticks learn the published sample, each of them once more. -/
theorem SampleRegister.run_ticks {register : SampleRegister Value} {s : Sample Value}
    (published : register.published = some s) (count : Nat) :
    run step register (List.replicate count .tick) =
      { register with learned := register.learned ++ List.replicate count s } := by
  induction count generalizing register with
  | zero => rw [List.replicate_zero, run_nil, List.replicate_zero, List.append_nil]
  | succ count inductionHypothesis =>
    have here : register.step .tick = { register with learned := register.learned ++ [s] } := by
      rw [step, published]
      rfl
    rw [List.replicate_succ, run_cons, inductionHypothesis (here ▸ published), here]
    rw [List.append_assoc, List.singleton_append, ← List.replicate_succ]

/-- Pushes alone are not learned. -/
theorem SampleRegister.learned_pushes (register : SampleRegister Value)
    (samples : List (Sample Value)) :
    (run step register (samples.map .push)).learned = register.learned := by
  induction samples generalizing register with
  | nil => rfl
  | cons s rest inductionHypothesis =>
    rw [List.map_cons, run_cons, inductionHypothesis]
    rfl

end PerfWeave
