/-
This file proves which samples the detector learns. The abstract model of a series is a
register that holds the sample pushed last and the one published last; a tick appends what is
published to the samples learned, whether or not it was learned before. The running statistics
of a series are those of its learned samples, so their count is the number of ticks since the
series was first shown, whatever was pushed to it in the meantime.
-/

import PerfWeave.Server.SeriesIsolation

namespace PerfWeave

open PartialArithmetic

variable {Value : Type}

/-! ### The samples learned -/

/-- The newest samples of a series, pushed and published, and the samples learned so far. -/
structure SampleRegister (Value : Type) where
  pushed : Option (Sample Value)
  published : Option (Sample Value)
  learned : List (Sample Value)

namespace SampleRegister

/-- The register of a series that nothing was pushed to. -/
def empty : SampleRegister Value := ⟨none, none, []⟩

/-- One input to the register. -/
def step (register : SampleRegister Value) : SeriesInput Value → SampleRegister Value
  | .push s => { register with pushed := some s }
  | .publish => { register with published := register.pushed }
  | .tick => { register with learned := register.learned ++ register.published.toList }

end SampleRegister

namespace SeriesInput

/-- The sample of a push. -/
def sample : SeriesInput Value → Option (Sample Value)
  | .push s => some s
  | _ => none

/-- A publish. -/
def isPublish : SeriesInput Value → Bool
  | .publish => true
  | _ => false

/-- A tick. -/
def isTick : SeriesInput Value → Bool
  | .tick => true
  | _ => false

/-- What happens to a series from its first push on. -/
def sincePushed (inputs : List (SeriesInput Value)) : List (SeriesInput Value) :=
  inputs.dropWhile fun input => input.sample.isNone

/-- What happens to a series from the first publish that shows it on. -/
def sinceShown (inputs : List (SeriesInput Value)) : List (SeriesInput Value) :=
  (sincePushed inputs).dropWhile fun input => !input.isPublish

/-- Dropping a prefix of a list that grows at its end. -/
theorem dropWhile_concat {Item : Type} (drops : Item → Bool) (items : List Item) (last : Item) :
    (items ++ [last]).dropWhile drops =
      if items.dropWhile drops = [] ∧ drops last = true then []
      else items.dropWhile drops ++ [last] := by
  rw [List.dropWhile_append]
  by_cases dropped : items.dropWhile drops = []
  · cases judged : drops last <;> simp [dropped, judged]
  · rw [if_neg (by rwa [List.isEmpty_iff]), if_neg (fun both => dropped both.1)]

theorem sincePushed_push (inputs : List (SeriesInput Value)) (s : Sample Value) :
    sincePushed (inputs ++ [.push s]) = sincePushed inputs ++ [.push s] := by
  unfold sincePushed
  rw [dropWhile_concat, if_neg (fun both => absurd both.2 (by simp [sample]))]

theorem sincePushed_of_sample_eq_none (inputs : List (SeriesInput Value))
    {input : SeriesInput Value} (noSample : input.sample = none) :
    sincePushed (inputs ++ [input]) =
      if sincePushed inputs = [] then [] else sincePushed inputs ++ [input] := by
  unfold sincePushed
  rw [dropWhile_concat]
  simp only [noSample, Option.isNone_none, and_true]

/-- What is not a publish does not show a series. -/
theorem sinceShown_of_not_publish (inputs : List (SeriesInput Value)) {input : SeriesInput Value}
    (noPublish : input.isPublish = false) :
    sinceShown (inputs ++ [input]) =
      if sinceShown inputs = [] then [] else sinceShown inputs ++ [input] := by
  unfold sinceShown
  cases input with
  | push s =>
    rw [sincePushed_push, dropWhile_concat]
    simp only [noPublish, Bool.not_false, and_true]
  | publish => exact absurd noPublish (by simp [isPublish])
  | tick =>
    rw [sincePushed_of_sample_eq_none inputs rfl]
    split
    · rename_i unpushed
      rw [unpushed]
      rfl
    · rw [dropWhile_concat]
      simp only [noPublish, Bool.not_false, and_true]

/-- A publish shows a series that was pushed to. -/
theorem sinceShown_publish (inputs : List (SeriesInput Value)) :
    sinceShown (inputs ++ [.publish]) =
      if sincePushed inputs = [] then [] else sinceShown inputs ++ [.publish] := by
  unfold sinceShown
  rw [sincePushed_of_sample_eq_none inputs rfl]
  split
  · rfl
  · rw [dropWhile_concat, if_neg (fun both => absurd both.2 (by simp [isPublish]))]

end SeriesInput

/-- The register holds a pushed sample from the first push on and a published one from the first
publish after it on, and learns one sample a tick since then. -/
structure SampleRegister.Counts (inputs : List (SeriesInput Value))
    (register : SampleRegister Value) : Prop where
  pushed : register.pushed = none ↔ SeriesInput.sincePushed inputs = []
  published : register.published = none ↔ SeriesInput.sinceShown inputs = []
  learned : register.learned.length = (SeriesInput.sinceShown inputs).countP SeriesInput.isTick

/-- Every input keeps the register's counts. -/
theorem SampleRegister.Counts.step {inputs : List (SeriesInput Value)}
    {register : SampleRegister Value} (counts : register.Counts inputs)
    (input : SeriesInput Value) : (register.step input).Counts (inputs ++ [input]) := by
  obtain ⟨pushed, published, learned⟩ := counts
  cases input with
  | push s =>
    have shown := @SeriesInput.sinceShown_of_not_publish Value inputs (.push s) rfl
    refine ⟨?_, ?_, ?_⟩
    · rw [SeriesInput.sincePushed_push]
      exact iff_of_false nofun (by simp)
    · rw [shown, SampleRegister.step, published]
      split <;> simp [*]
    · rw [shown, SampleRegister.step, learned]
      split <;> simp [*, SeriesInput.isTick]
  | publish =>
    refine ⟨?_, ?_, ?_⟩
    · rw [SeriesInput.sincePushed_of_sample_eq_none inputs rfl, SampleRegister.step, pushed]
      split <;> simp [*]
    · rw [SeriesInput.sinceShown_publish, SampleRegister.step, pushed]
      split <;> simp [*]
    · rw [SeriesInput.sinceShown_publish, SampleRegister.step, learned]
      split
      · rename_i unpushed
        rw [SeriesInput.sinceShown, unpushed]
        rfl
      · simp [SeriesInput.isTick]
  | tick =>
    have shown := @SeriesInput.sinceShown_of_not_publish Value inputs .tick rfl
    refine ⟨?_, ?_, ?_⟩
    · rw [SeriesInput.sincePushed_of_sample_eq_none inputs rfl, SampleRegister.step, pushed]
      split <;> simp [*]
    · rw [shown, SampleRegister.step, published]
      split <;> simp [*]
    · rw [shown, SampleRegister.step, List.length_append, learned]
      cases holds : register.published with
      | none =>
        rw [if_pos (published.mp holds), published.mp holds]
        rfl
      | some s =>
        rw [if_neg (fun unshown => absurd (published.mpr unshown) (by rw [holds]; nofun)),
          List.countP_append]
        rfl

theorem SampleRegister.run_counts (inputs : List (SeriesInput Value)) :
    (run step empty inputs).Counts inputs :=
  run_induction ⟨iff_of_true rfl rfl, iff_of_true rfl rfl, rfl⟩
    (fun _ input counts => counts.step input) inputs

/-! ### The detector learns what the register learns -/

/-- A push records its sample in the fast ring, whatever it does to the slow one. -/
theorem SeriesRing.push_cases (ring : SeriesRing Value) (s : Sample Value) :
    ring.push s = ⟨ring.slow.push s, ring.fast.push s, s.tsNs⟩ ∨
      ring.push s = ⟨ring.slow, ring.fast.push s, ring.lastSlowNs⟩ := by
  unfold push
  split
  · exact .inl rfl
  · exact .inr rfl

/-- The sample pushed last is the last of the fast tail. -/
theorem SeriesRing.getLast?_fast_push (ring : SeriesRing Value) (s : Sample Value) :
    (ring.push s).fast.read.getLast? = some s := by
  rcases ring.push_cases s with pushed | pushed
  · rw [pushed, RingBuffer.read_push_concat, List.getLast?_concat]
  · rw [pushed, RingBuffer.read_push_concat, List.getLast?_concat]

section Run

variable [Add Value] [Sub Value] [Mul Value] [NatCast Value] [PartialArithmetic Value]

theorem Welford.n_update {w learned : Welford Value} {x : Value}
    (updates : w.update x = some learned) : learned.n = w.n + 1 := by
  obtain ⟨_, _, same⟩ := Option.bind_eq_some_iff.mp updates
  exact (congrArg Welford.n (Option.some.inj same)).symm

variable [Zero Value]

/-- The running statistics of samples learned in order. -/
def Welford.ofSamples (samples : List (Sample Value)) : Option (Welford Value) :=
  samples.foldlM (fun w s => w.update s.value) .default

theorem Welford.ofSamples_concat (samples : List (Sample Value)) (s : Sample Value) :
    ofSamples (samples ++ [s]) = (ofSamples samples).bind fun w => w.update s.value := by
  unfold ofSamples
  rw [List.foldlM_append]
  exact bind_congr fun w => bind_pure _

/-- The count of running statistics is the number of samples learned. -/
theorem Welford.n_of_ofSamples {samples : List (Sample Value)} {w : Welford Value}
    (learned : ofSamples samples = some w) : w.n = samples.length := by
  induction samples using List.reverseRecOn generalizing w with
  | nil =>
    obtain rfl := Option.some.inj learned
    rfl
  | append_singleton samples s inductionHypothesis =>
    rw [ofSamples_concat] at learned
    obtain ⟨before, learnedBefore, updates⟩ := Option.bind_eq_some_iff.mp learned
    rw [n_update updates, inductionHypothesis learnedBefore, List.length_append,
      List.length_singleton]

variable [OfScientific Value] [LT Value] [DecidableLT Value] [LE Value] [DecidableLE Value]

/-- A series follows the register: its newest samples are the register's, and its statistics are
those of the samples the register has learned. -/
structure SeriesWatch.Follows (register : SampleRegister Value) (state : SeriesWatch Value) :
    Prop where
  pushed : (state.writer.bind fun ring => ring.fast.read.getLast?) = register.pushed
  published : (state.published.bind fun snap => snap.fast.getLast?) = register.published
  learned : Welford.ofSamples register.learned = some (state.entry.welford.getD .default)

/-- A tick of a series learns the newest published sample, if there is one, and nothing else. -/
theorem SeriesWatch.step_tick {key : SeriesKey} {state next : SeriesWatch Value}
    (steps : state.step key .tick = some next) {samples : List (Sample Value)}
    (learned : Welford.ofSamples samples = some (state.entry.welford.getD .default)) :
    next.writer = state.writer ∧ next.published = state.published ∧
      Welford.ofSamples (samples ++
        (state.published.bind fun snap => snap.fast.getLast?).toList) =
          some (next.entry.welford.getD .default) := by
  rcases step_tick_cases steps with ⟨unread, rfl⟩ | ⟨snap, s, w, _, shown, latest, updates, _, rfl⟩
  · rw [unread, Option.toList_none, List.append_nil]
    exact ⟨rfl, rfl, learned⟩
  · rw [shown, Option.bind_some, latest, Option.toList_some, Welford.ofSamples_concat, learned,
      Option.bind_some, updates]
    exact ⟨rfl, rfl, rfl⟩

/-- Every input with a result keeps a series following the register. -/
theorem SeriesWatch.Follows.step {key : SeriesKey} {register : SampleRegister Value}
    {state next : SeriesWatch Value} (follows : state.Follows register)
    {input : SeriesInput Value} (steps : state.step key input = some next) :
    next.Follows (register.step input) := by
  obtain ⟨pushed, published, learned⟩ := follows
  cases input with
  | push s =>
    obtain rfl := Option.some.inj steps
    refine ⟨?_, published, learned⟩
    rw [Option.bind_some, SeriesRing.getLast?_fast_push]
    rfl
  | publish =>
    obtain rfl := Option.some.inj steps
    refine ⟨pushed, ?_, learned⟩
    rw [SampleRegister.step, ← pushed, Option.bind_map]
    rfl
  | tick =>
    obtain ⟨sameWriter, samePublished, learnedNext⟩ := step_tick steps learned
    refine ⟨?_, ?_, ?_⟩
    · rw [sameWriter]
      exact pushed
    · rw [samePublished]
      exact published
    · rw [SampleRegister.step, ← published]
      exact learnedNext

/-- A series on its own follows the register over its run. -/
theorem SeriesWatch.follows_run {key : SeriesKey} {start : SeriesWatch Value}
    (initial : start.Follows .empty) (inputs : List (SeriesInput Value))
    {state : SeriesWatch Value}
    (reached : runPartial (SeriesWatch.step key) start inputs = some state) :
    state.Follows (run SampleRegister.step .empty inputs) := by
  refine runPartial_history (motive := fun received state =>
    state.Follows (run SampleRegister.step .empty received)) initial ?_ reached
  intro received input before next _ steps follows
  rw [run_concat]
  exact follows.step steps

/-- The samples pushed to a series, in order. -/
def samplesPushed (key : SeriesKey) (inputs : List (SpikeInput Value)) : List (Sample Value) :=
  (inputs.filterMap (SpikeInput.viewOf key)).filterMap SeriesInput.sample

/-- The samples of a series that the ticks learn, in order: at each tick the newest published
one. -/
def samplesLearned (key : SeriesKey) (inputs : List (SpikeInput Value)) : List (Sample Value) :=
  (run SampleRegister.step .empty (inputs.filterMap (SpikeInput.viewOf key))).learned

/-- The number of ticks since a series was first shown. -/
def ticksSinceShown (key : SeriesKey) (inputs : List (SpikeInput Value)) : Nat :=
  (SeriesInput.sinceShown (inputs.filterMap (SpikeInput.viewOf key))).countP SeriesInput.isTick

/-- The running statistics of a series, as a tick finds them. -/
def SpikeDetector.statistics (d : SpikeDetector Value) (key : SeriesKey) : Welford Value :=
  (d.welford key).getD .default

/-- The running statistics of a series are those of its learned samples. -/
theorem SpikeWatch.statistics_of_run {inputs : List (SpikeInput Value)}
    (iterates : RunIterates inputs) {state : SpikeWatch Value}
    (reached : runPartial SpikeWatch.step .start inputs = some state) (key : SeriesKey) :
    Welford.ofSamples (samplesLearned key inputs) = some (state.detector.statistics key) :=
  (SeriesWatch.follows_run ⟨rfl, rfl, rfl⟩ _ (run_project key iterates reached)).learned

theorem SpikeWatch.n_of_run {inputs : List (SpikeInput Value)} (iterates : RunIterates inputs)
    {state : SpikeWatch Value} (reached : runPartial SpikeWatch.step .start inputs = some state)
    (key : SeriesKey) : (state.detector.statistics key).n = ticksSinceShown key inputs := by
  rw [Welford.n_of_ofSamples (statistics_of_run iterates reached key)]
  exact (SampleRegister.run_counts _).learned

end Run

/-- What the register holds was pushed. -/
theorem SampleRegister.mem_pushed_of_run (inputs : List (SeriesInput Value)) :
    ∀ s ∈ (run step empty inputs).pushed.toList ++ (run step empty inputs).published.toList ++
      (run step empty inputs).learned, s ∈ inputs.filterMap SeriesInput.sample := by
  refine @run_induction _ _ step empty (fun inputs register =>
    ∀ s ∈ register.pushed.toList ++ register.published.toList ++ register.learned,
      s ∈ inputs.filterMap SeriesInput.sample) nofun ?_ inputs
  intro inputs input earlier s member
  rw [List.filterMap_append, List.mem_append]
  cases input with
  | push other =>
    simp only [step, List.mem_append, Option.mem_toList] at member earlier
    rcases member with (pushed | published) | learned
    · exact .inr (by simpa [SeriesInput.sample] using pushed.symm)
    · exact .inl (earlier s (.inl (.inr published)))
    · exact .inl (earlier s (.inr learned))
  | publish =>
    simp only [step, List.mem_append, or_self] at member earlier
    exact .inl (earlier s (member.imp_left .inl))
  | tick =>
    simp only [step, List.mem_append] at member earlier
    rcases member with held | learned | published
    · exact .inl (earlier s (.inl held))
    · exact .inl (earlier s (.inr learned))
    · exact .inl (earlier s (.inl (.inr published)))

/-- In a run in exact arithmetic each tick since a series was first shown learns one sample of
it, the newest published one, which was pushed to it: the running statistics are those of the
samples so learned, and their count is the number of these ticks. -/
theorem statistics_are_of_samplesLearned (inputs : List (SpikeInput ℝ))
    (iterates : RunIterates inputs) :
    ∃ state, runPartial SpikeWatch.step .start inputs = some state ∧ ∀ key,
      Welford.ofSamples (samplesLearned key inputs) = some (state.detector.statistics key) ∧
      (∀ s ∈ samplesLearned key inputs, s ∈ samplesPushed key inputs) ∧
      (state.detector.statistics key).n = ticksSinceShown key inputs := by
  obtain ⟨state, reached, _⟩ := SpikeWatch.run_sound inputs
  refine ⟨state, reached, fun key => ⟨SpikeWatch.statistics_of_run iterates reached key, ?_,
    SpikeWatch.n_of_run iterates reached key⟩⟩
  exact fun s member =>
    SampleRegister.mem_pushed_of_run _ s (List.mem_append_right _ member)

/-- One sample of a series whose agent then falls silent, and two ticks. -/
def silentSeries : List (SpikeInput ℝ) :=
  [.push ⟨0, 0, 42⟩ ⟨1000000000, 1⟩, .publish 5] ++ [.tick [⟨0, 0, 42⟩]] ++ [.tick [⟨0, 0, 42⟩]]

/-- A ring that one series was pushed to shows that series. -/
theorem FastRing.mem_singleton_iff_shown [Zero Value] (key : SeriesKey) (s : Sample Value)
    (now : UInt64) (k : SeriesKey) :
    k ∈ [key] ↔ (((FastRing.new.push key s).publish now).snapshot.series k).isSome := by
  rw [isSome_publish_series, isSome_push_writer, List.mem_singleton]
  exact (or_iff_left nofun).symm

theorem silentSeries_iterates : RunIterates silentSeries := by
  have first : RunIterates ([.push ⟨0, 0, 42⟩ ⟨1000000000, 1⟩, .publish 5] ++
      [.tick [⟨0, 0, 42⟩]] : List (SpikeInput ℝ)) := by
    refine runIterates_concat (by simp) fun state reached => ?_
    obtain rfl := Option.some.inj reached
    exact ⟨by decide, FastRing.mem_singleton_iff_shown _ _ _⟩
  refine (forall_step_concat_iff _ _).mpr ⟨first, fun state reached => ?_⟩
  rw [runPartial_concat] at reached
  obtain ⟨before, reachedBefore, ticks⟩ := Option.bind_eq_some_iff.mp reached
  obtain rfl := Option.some.inj reachedBefore
  obtain ⟨_, _, same⟩ := Option.bind_eq_some_iff.mp ticks
  obtain rfl := Option.some.inj same
  exact ⟨by decide, FastRing.mem_singleton_iff_shown _ _ _⟩

theorem statistics_of_silentSeries :
    ∃ state, runPartial SpikeWatch.step .start silentSeries = some state ∧ ∀ key,
      Welford.ofSamples (samplesLearned key silentSeries) =
        some (state.detector.statistics key) ∧
      (∀ s ∈ samplesLearned key silentSeries, s ∈ samplesPushed key silentSeries) ∧
      (state.detector.statistics key).n = ticksSinceShown key silentSeries :=
  statistics_are_of_samplesLearned silentSeries silentSeries_iterates

/-- A tick learns the sample of a silent series again: one was pushed, two are learned. -/
theorem exists_n_gt_samplesPushed :
    ¬ ∀ (inputs : List (SpikeInput ℝ)), RunIterates inputs → ∀ state,
      runPartial SpikeWatch.step .start inputs = some state →
      ∀ key, (state.detector.statistics key).n ≤ (samplesPushed key inputs).length := by
  intro atMostPushed
  obtain ⟨state, reached, _⟩ := SpikeWatch.run_sound silentSeries
  have atMost := atMostPushed silentSeries silentSeries_iterates state reached ⟨0, 0, 42⟩
  rw [SpikeWatch.n_of_run silentSeries_iterates reached] at atMost
  exact absurd atMost (by decide)

end PerfWeave
