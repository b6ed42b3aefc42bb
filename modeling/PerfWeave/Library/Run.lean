/-
This file builds the run of a deterministic system: a step function folded over the
inputs it receives, oldest first. Every component of the development is such a
system, so every property of "any run" comes from one of the rules here: a
relation between the inputs received so far and the state they lead to, an invariant
that each admissible input keeps, a simulation between two systems that receive the
same inputs, and, for a property that some inputs break, the exact condition on the
steps of a run under which it holds throughout. Systems whose steps may fail have the
history rule for the runs that get through, the frame rule, and a rule for the part of
them that sees only some of the inputs.
-/

import Mathlib

namespace PerfWeave

variable {State Input : Type}

/-- The state a system reaches from `start` on the inputs, oldest first. -/
def run (step : State → Input → State) (start : State) (inputs : List Input) : State :=
  inputs.foldl step start

@[simp]
theorem run_nil (step : State → Input → State) (start : State) : run step start [] = start := rfl

theorem run_cons (step : State → Input → State) (start : State) (input : Input)
    (inputs : List Input) :
    run step start (input :: inputs) = run step (step start input) inputs := rfl

theorem run_append (step : State → Input → State) (start : State) (first second : List Input) :
    run step start (first ++ second) = run step (run step start first) second :=
  List.foldl_append

theorem run_concat (step : State → Input → State) (start : State) (inputs : List Input)
    (input : Input) :
    run step start (inputs ++ [input]) = step (run step start inputs) input := by
  rw [run_append, run_cons, run_nil]

/-- The history rule: what holds of the empty history and survives one more input holds of
every history and the state it leads to. -/
theorem run_induction {step : State → Input → State} {start : State}
    {motive : List Input → State → Prop} (nil : motive [] start)
    (concat : ∀ inputs input, motive inputs (run step start inputs) →
      motive (inputs ++ [input]) (step (run step start inputs) input))
    (inputs : List Input) : motive inputs (run step start inputs) := by
  induction inputs using List.reverseRecOn with
  | nil => exact nil
  | append_singleton inputs input inductionHypothesis =>
    rw [run_concat]
    exact concat inputs input inductionHypothesis

/-- The invariant rule: what holds at the start and is kept by every admissible input holds
after every run on such inputs. -/
theorem run_invariant {step : State → Input → State} {start : State} {admissible : Input → Prop}
    {motive : State → Prop} (initial : motive start)
    (keeps : ∀ state input, admissible input → motive state → motive (step state input))
    (inputs : List Input) (admitted : ∀ input ∈ inputs, admissible input) :
    motive (run step start inputs) := by
  induction inputs generalizing start with
  | nil => exact initial
  | cons input rest inductionHypothesis =>
    have first := keeps start input (admitted input List.mem_cons_self) initial
    exact inductionHypothesis first fun other member =>
      admitted other (List.mem_cons_of_mem input member)

/-- The simulation rule: a relation between the states of two systems that every input keeps
holds after every run of both on the same inputs. -/
theorem run_simulation {Other : Type} {step : State → Input → State}
    {otherStep : Other → Input → Other} {start : State} {otherStart : Other}
    {motive : State → Other → Prop} (initial : motive start otherStart)
    (keeps : ∀ state other input, motive state other →
      motive (step state input) (otherStep other input))
    (inputs : List Input) :
    motive (run step start inputs) (run otherStep otherStart inputs) := by
  induction inputs generalizing start otherStart with
  | nil => exact initial
  | cons input rest inductionHypothesis =>
    exact inductionHypothesis (keeps start otherStart input initial)

/-- A property of every step of a run, by its first step. -/
theorem forall_step_cons_iff {property : List Input → Input → Prop} (first : Input)
    (rest : List Input) :
    (∀ before input, before ++ [input] <+: first :: rest → property before input) ↔
      property [] first ∧
        ∀ before input, before ++ [input] <+: rest → property (first :: before) input := by
  constructor
  · refine fun all => ⟨all [] first ⟨rest, rfl⟩, fun before input isPrefix => ?_⟩
    exact all (first :: before) input (List.cons_prefix_cons.mpr ⟨rfl, isPrefix⟩)
  · rintro ⟨here, later⟩ before input isPrefix
    cases before with
    | nil =>
      rw [(List.cons_prefix_cons.mp isPrefix).1]
      exact here
    | cons other before =>
      obtain ⟨rfl, shorter⟩ := List.cons_prefix_cons.mp isPrefix
      exact later before input shorter

/-- A property of every step of a run, one step further. -/
theorem forall_step_concat_iff {property : List Input → Input → Prop} (inputs : List Input)
    (last : Input) :
    (∀ before input, before ++ [input] <+: inputs ++ [last] → property before input) ↔
      (∀ before input, before ++ [input] <+: inputs → property before input) ∧
        property inputs last := by
  constructor
  · exact fun all => ⟨fun before input isPrefix =>
      all before input (isPrefix.trans (List.prefix_append _ _)),
      all inputs last List.prefix_rfl⟩
  · rintro ⟨earlier, here⟩ before input isPrefix
    rcases List.prefix_concat_iff.mp isPrefix with same | shorter
    · obtain ⟨rfl, rfl⟩ := List.concat_inj.mp (by simpa using same)
      exact here
    · exact earlier before input shorter

theorem forall_step_nil {property : List Input → Input → Prop} (before : List Input)
    (input : Input) (isPrefix : before ++ [input] <+: []) : property before input :=
  absurd (List.prefix_nil.mp isPrefix) (by simp)

/-- The exactness rule: when a clean step is one that leaves a property intact, the property
holds throughout a run exactly when every step of the run is clean. The steps are judged under
an invariant that every admissible input keeps. -/
theorem run_always_iff {step : State → Input → State} {start : State}
    {admissible : Input → Prop} {sound holds : State → Prop} {clean : State → Input → Prop}
    (initial : sound start) (holdsInitially : holds start)
    (keeps : ∀ state input, admissible input → sound state → sound (step state input))
    (exact : ∀ state input, admissible input → sound state → holds state →
      (holds (step state input) ↔ clean state input))
    (inputs : List Input) (admitted : ∀ input ∈ inputs, admissible input) :
    (∀ before, before <+: inputs → holds (run step start before)) ↔
      ∀ before input, before ++ [input] <+: inputs → clean (run step start before) input := by
  have soundAt : ∀ before, before <+: inputs → sound (run step start before) :=
    fun before isPrefix => run_invariant initial keeps before fun input member =>
      admitted input (isPrefix.subset member)
  have inputAt : ∀ before input, before ++ [input] <+: inputs → admissible input :=
    fun before input isPrefix => admitted input
      (isPrefix.subset (List.mem_append_right _ (List.mem_singleton_self input)))
  constructor
  · intro throughout before input isPrefix
    have shorter : before <+: inputs := (List.prefix_append _ _).trans isPrefix
    have after := throughout _ isPrefix
    rw [run_concat] at after
    exact (exact _ input (inputAt before input isPrefix) (soundAt before shorter)
      (throughout before shorter)).mp after
  · intro clean before
    induction before using List.reverseRecOn with
    | nil => exact fun _ => holdsInitially
    | append_singleton before input inductionHypothesis =>
      intro isPrefix
      have shorter : before <+: inputs := (List.prefix_append _ _).trans isPrefix
      rw [run_concat]
      exact (exact _ input (inputAt before input isPrefix) (soundAt before shorter)
        (inductionHypothesis shorter)).mpr (clean before input isPrefix)

/-- The exactness rule where every input is admissible and every state will do. -/
theorem run_always_iff_of_exact {step : State → Input → State} {start : State}
    {holds : State → Prop} {clean : State → Input → Prop} (holdsInitially : holds start)
    (exact : ∀ state input, holds state → (holds (step state input) ↔ clean state input))
    (inputs : List Input) :
    (∀ before, before <+: inputs → holds (run step start before)) ↔
      ∀ before input, before ++ [input] <+: inputs → clean (run step start before) input :=
  @run_always_iff State Input step start (fun _ => True) (fun _ => True) holds clean trivial
    holdsInitially (fun _ _ _ _ => trivial) (fun state input _ _ => exact state input) inputs
    fun _ _ => trivial

/-! ### Systems whose steps may fail -/

/-- The state a system reaches on the inputs, oldest first; none once a step has failed. -/
def runPartial (step : State → Input → Option State) (start : State) (inputs : List Input) :
    Option State :=
  run (fun reached input => reached.bind fun state => step state input) (some start) inputs

@[simp]
theorem runPartial_nil (step : State → Input → Option State) (start : State) :
    runPartial step start [] = some start := rfl

theorem runPartial_concat (step : State → Input → Option State) (start : State)
    (inputs : List Input) (input : Input) :
    runPartial step start (inputs ++ [input]) =
      (runPartial step start inputs).bind fun state => step state input :=
  run_concat _ _ _ _

theorem runPartial_append (step : State → Input → Option State) (start : State)
    (first second : List Input) :
    runPartial step start (first ++ second) =
      (runPartial step start first).bind fun state => runPartial step state second := by
  induction second using List.reverseRecOn with
  | nil => simp only [List.append_nil, runPartial_nil, Option.bind_fun_some]
  | append_singleton second input inductionHypothesis =>
    rw [← List.append_assoc, runPartial_concat, inductionHypothesis, Option.bind_assoc]
    exact Option.bind_congr fun state _ => (runPartial_concat step state second input).symm

/-- A run, cut at one of its steps. -/
theorem runPartial_split {step : State → Input → Option State}
    {start final : State} {before after : List Input} {input : Input}
    (reached : runPartial step start (before ++ input :: after) = some final) :
    ∃ state next, runPartial step start before = some state ∧ step state input = some next ∧
      runPartial step next after = some final := by
  rw [← List.concat_append, List.concat_eq_append, runPartial_append, runPartial_concat] at reached
  obtain ⟨next, stepped, rest⟩ := Option.bind_eq_some_iff.mp reached
  obtain ⟨state, reachedBefore, steps⟩ := Option.bind_eq_some_iff.mp stepped
  exact ⟨state, next, reachedBefore, steps, rest⟩

/-- The last of the items with a property. -/
theorem exists_last_of_mem {Item : Type} (holds : Item → Prop) [DecidablePred holds]
    {items : List Item} {item : Item} (member : item ∈ items) (itemHolds : holds item) :
    ∃ before last after, items = before ++ last :: after ∧ holds last ∧
      ∀ other ∈ after, ¬ holds other := by
  induction items using List.reverseRecOn with
  | nil => exact absurd member List.not_mem_nil
  | append_singleton items last inductionHypothesis =>
    by_cases lastHolds : holds last
    · exact ⟨items, last, [], rfl, lastHolds, fun _ absent => absurd absent List.not_mem_nil⟩
    · rcases List.mem_append.mp member with earlier | here
      · obtain ⟨before, found, after, rfl, foundHolds, later⟩ := inductionHypothesis earlier
        refine ⟨before, found, after ++ [last], by simp, foundHolds, fun other inRest => ?_⟩
        rcases List.mem_append.mp inRest with inAfter | isLast
        · exact later other inAfter
        · rwa [List.mem_singleton.mp isLast]
      · exact absurd (List.mem_singleton.mp here ▸ itemHolds) lastHolds

/-- The history rule for a run that got through: what holds of the empty history and survives one
more step that succeeds holds of the run's history and its end. -/
theorem runPartial_history {step : State → Input → Option State} {start : State}
    {motive : List Input → State → Prop} (nil : motive [] start)
    (concat : ∀ inputs input state next, runPartial step start inputs = some state →
      step state input = some next → motive inputs state → motive (inputs ++ [input]) next)
    {inputs : List Input} {final : State} (reached : runPartial step start inputs = some final) :
    motive inputs final := by
  induction inputs using List.reverseRecOn generalizing final with
  | nil =>
    obtain rfl := Option.some.inj reached
    exact nil
  | append_singleton inputs input inductionHypothesis =>
    rw [runPartial_concat] at reached
    obtain ⟨before, reachedBefore, steps⟩ := Option.bind_eq_some_iff.mp reached
    exact concat inputs input before final reachedBefore steps (inductionHypothesis reachedBefore)

/-- The frame rule: a part of the state that no step of a run changes is the same at its end. -/
theorem runPartial_keeps {Part : Type} {step : State → Input → Option State} {start final : State}
    {project : State → Part} {inputs : List Input}
    (keeps : ∀ before input state next, before ++ [input] <+: inputs →
      runPartial step start before = some state → step state input = some next →
      project next = project state)
    (reached : runPartial step start inputs = some final) : project final = project start := by
  refine runPartial_history (motive := fun before state =>
    before <+: inputs → project state = project start) (fun _ => rfl) ?_ reached List.prefix_rfl
  intro before input state next reachedBefore steps kept isPrefix
  rw [keeps before input state next isPrefix reachedBefore steps]
  exact kept ((List.prefix_append _ _).trans isPrefix)

/-- The history rule where steps may fail: when what holds of a history and its state lets the
next step succeed and survives it, no run fails and it holds of every history. -/
theorem runPartial_induction {step : State → Input → Option State} {start : State}
    {motive : List Input → State → Prop} (nil : motive [] start)
    (concat : ∀ inputs input state, runPartial step start inputs = some state →
      motive inputs state → ∃ next, step state input = some next ∧ motive (inputs ++ [input]) next)
    (inputs : List Input) :
    ∃ state, runPartial step start inputs = some state ∧ motive inputs state := by
  induction inputs using List.reverseRecOn with
  | nil => exact ⟨start, rfl, nil⟩
  | append_singleton inputs input inductionHypothesis =>
    obtain ⟨state, reached, holds⟩ := inductionHypothesis
    obtain ⟨next, steps, holdsNext⟩ := concat inputs input state reached holds
    refine ⟨next, ?_, holdsNext⟩
    rw [runPartial_concat, reached, Option.bind_some, steps]

/-- The locality rule: a part of the state that is left alone by the inputs outside its view,
and steps on its own by those inside, is where its own run on its view of the inputs leads. -/
theorem runPartial_project {Part PartInput : Type} {step : State → Input → Option State}
    {start : State} {partStep : Part → PartInput → Option Part} {project : State → Part}
    {view : Input → Option PartInput} {admissible : State → Input → Prop}
    (hidden : ∀ state input next, admissible state input → step state input = some next →
      view input = none → project next = project state)
    (visible : ∀ state input next partInput, admissible state input →
      step state input = some next → view input = some partInput →
        partStep (project state) partInput = some (project next))
    (inputs : List Input)
    (admitted : ∀ before input, before ++ [input] <+: inputs →
      ∀ state, runPartial step start before = some state → admissible state input)
    {state : State} (reached : runPartial step start inputs = some state) :
    runPartial partStep (project start) (inputs.filterMap view) = some (project state) := by
  refine runPartial_history (motive := fun before state => before <+: inputs →
    runPartial partStep (project start) (before.filterMap view) = some (project state))
    (fun _ => rfl) ?_ reached List.prefix_rfl
  intro before input earlier next reachedBefore steps followedBefore isPrefix
  have here := admitted before input isPrefix earlier reachedBefore
  have followed := followedBefore ((List.prefix_append _ _).trans isPrefix)
  rw [List.filterMap_append]
  cases seen : view input with
  | none =>
    rw [List.filterMap_cons_none seen, List.filterMap_nil, List.append_nil, followed,
      hidden earlier input next here steps seen]
  | some partInput =>
    rw [List.filterMap_cons_some seen, List.filterMap_nil, runPartial_concat, followed,
      Option.bind_some]
    exact visible earlier input next partInput here steps seen

end PerfWeave
