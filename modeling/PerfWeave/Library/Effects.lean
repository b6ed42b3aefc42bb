/-
This file is about effects that ask for something and write what they are answered. A run of an
effect, for what it depends on at the time, waits for its answers, which come at any time, in any
order with those of other runs, or never; it is cancelled when the next run begins. A guarded effect
looks whether it is cancelled before it writes: what it writes is never for an earlier time than
what is there, and an answer that comes after the next run has begun is lost.
-/

import PerfWeave.Library.Run

namespace PerfWeave

/-- An effect: what a run writes at once and for what it waits, with what is written so far; and
what a run that waits, cancelled or not, makes of an answer. -/
structure Effect (Dep Wait Answer Out : Type) where
  start : List Out → Dep → List Out × Option Wait
  resume : Bool → Wait → Answer → List Out × Option Wait

/-- The runs of an effect so far, those that wait, and what was written by which run, in order. -/
structure EffectState (Dep Wait Out : Type) where
  deps : List Dep
  waits : Nat → Option Wait
  written : List (Nat × Out)

/-- What happens to an effect: it runs once more, or one of its runs is answered. -/
inductive EffectInput (Dep Answer : Type) where
  | rerun (dep : Dep)
  | answer (number : Nat) (answer : Answer)

variable {Dep Wait Answer Out : Type}

namespace EffectState

/-- No run yet. -/
def fresh : EffectState Dep Wait Out := ⟨[], fun _ => none, []⟩

/-- What is written so far, whichever run wrote it. -/
def outs (state : EffectState Dep Wait Out) : List Out := state.written.map Prod.snd

/-- A run before the last one is cancelled. -/
def cancelled (state : EffectState Dep Wait Out) (number : Nat) : Bool :=
  number + 1 < state.deps.length

theorem cancelled_of_last {state : EffectState Dep Wait Out} {number : Nat}
    (isLast : number + 1 = state.deps.length) : state.cancelled number = false :=
  decide_eq_false (Nat.not_lt_of_le isLast.ge)

theorem cancelled_of_earlier {state : EffectState Dep Wait Out} {number : Nat}
    (isRun : number < state.deps.length) (earlier : number + 1 ≠ state.deps.length) :
    state.cancelled number = true :=
  decide_eq_true (Nat.lt_of_le_of_ne isRun earlier)

/-- What a run makes of its turn. -/
def after (state : EffectState Dep Wait Out) (number : Nat) (turn : List Out × Option Wait) :
    EffectState Dep Wait Out :=
  { state with
    waits := Function.update state.waits number turn.2
    written := state.written ++ turn.1.map fun out => (number, out) }

end EffectState

namespace Effect

/-- One input. An answer that no run waits for does nothing. -/
def step (effect : Effect Dep Wait Answer Out) (state : EffectState Dep Wait Out) :
    EffectInput Dep Answer → EffectState Dep Wait Out
  | .rerun dep =>
    { state with deps := state.deps ++ [dep] }.after state.deps.length
      (effect.start state.outs dep)
  | .answer number answer =>
    match state.waits number with
    | none => state
    | some wait => state.after number (effect.resume (state.cancelled number) wait answer)

theorem step_answer_of_none (effect : Effect Dep Wait Answer Out)
    {state : EffectState Dep Wait Out} {number : Nat} (noWait : state.waits number = none)
    (answer : Answer) : effect.step state (.answer number answer) = state := by
  rw [step, noWait]

theorem step_answer_of_some (effect : Effect Dep Wait Answer Out)
    {state : EffectState Dep Wait Out} {number : Nat} {wait : Wait}
    (isWait : state.waits number = some wait) (answer : Answer) :
    effect.step state (.answer number answer) =
      state.after number (effect.resume (state.cancelled number) wait answer) := by
  rw [step, isWait]

/-- Answers begin no run. -/
theorem deps_step_answer (effect : Effect Dep Wait Answer Out) (state : EffectState Dep Wait Out)
    (number : Nat) (answer : Answer) :
    (effect.step state (.answer number answer)).deps = state.deps := by
  cases waits : state.waits number with
  | none => rw [effect.step_answer_of_none waits]
  | some wait =>
    rw [effect.step_answer_of_some waits]
    rfl

/-- An effect that writes nothing once it is cancelled. -/
def Guarded (effect : Effect Dep Wait Answer Out) : Prop :=
  ∀ wait answer, (effect.resume true wait answer).1 = []

end Effect

/-! ### What is written when -/

/-- Runs that wait or have written are runs. -/
structure EffectState.Sound (state : EffectState Dep Wait Out) : Prop where
  waits : ∀ number wait, state.waits number = some wait → number < state.deps.length
  written : ∀ write ∈ state.written, write.1 < state.deps.length

theorem EffectState.fresh_sound : (fresh : EffectState Dep Wait Out).Sound :=
  ⟨fun _ wait none => absurd none (Option.some_ne_none wait).symm,
    fun _ member => absurd member List.not_mem_nil⟩

theorem EffectState.mem_written_after {state : EffectState Dep Wait Out} {number : Nat}
    {turn : List Out × Option Wait} {write : Nat × Out} :
    write ∈ (state.after number turn).written ↔
      write ∈ state.written ∨ write.1 = number ∧ write.2 ∈ turn.1 := by
  show write ∈ state.written ++ _ ↔ _
  rw [List.mem_append, List.mem_map]
  refine or_congr_right ⟨?_, fun ⟨isRun, isOut⟩ => ⟨write.2, isOut, Prod.ext isRun.symm rfl⟩⟩
  rintro ⟨out, isOut, rfl⟩
  exact ⟨rfl, isOut⟩

theorem EffectState.waits_after {state : EffectState Dep Wait Out} {number other : Nat}
    {turn : List Out × Option Wait} {wait : Wait}
    (isWait : (state.after number turn).waits other = some wait) :
    other = number ∧ turn.2 = some wait ∨ other ≠ number ∧ state.waits other = some wait := by
  have updated : Function.update state.waits number turn.2 other = some wait := isWait
  by_cases same : other = number
  · rw [same, Function.update_self] at updated
    exact Or.inl ⟨same, updated⟩
  · rw [Function.update_of_ne same] at updated
    exact Or.inr ⟨same, updated⟩

theorem EffectState.Sound.after {state : EffectState Dep Wait Out} (sound : state.Sound)
    {number : Nat} (isRun : number < state.deps.length) (turn : List Out × Option Wait) :
    (state.after number turn).Sound := by
  refine ⟨fun other wait isWait => ?_, fun write member => ?_⟩
  · rcases EffectState.waits_after isWait with ⟨rfl, _⟩ | ⟨_, kept⟩
    · exact isRun
    · exact sound.waits other wait kept
  · rcases EffectState.mem_written_after.mp member with before | ⟨same, _⟩
    · exact sound.written write before
    · rw [same]
      exact isRun

theorem EffectState.Sound.step {state : EffectState Dep Wait Out} (sound : state.Sound)
    (effect : Effect Dep Wait Answer Out) (input : EffectInput Dep Answer) :
    (effect.step state input).Sound := by
  cases input with
  | rerun dep =>
    have grown : state.deps.length ≤ (state.deps ++ [dep]).length := by
      rw [List.length_append]
      exact Nat.le_add_right _ _
    have sooner : ({ state with deps := state.deps ++ [dep] } : EffectState Dep Wait Out).Sound :=
      ⟨fun number wait isWait => (sound.waits number wait isWait).trans_le grown,
        fun write member => (sound.written write member).trans_le grown⟩
    refine sooner.after ?_ (effect.start state.outs dep)
    rw [List.length_append]
    exact Nat.lt_succ_self _
  | answer number answer =>
    cases isWait : state.waits number with
    | none => exact (effect.step_answer_of_none isWait answer).symm ▸ sound
    | some wait =>
      rw [effect.step_answer_of_some isWait]
      exact sound.after (sound.waits number wait isWait) _

/-- A run of an effect only ever begins runs. -/
theorem Effect.deps_length_le_step (effect : Effect Dep Wait Answer Out)
    (state : EffectState Dep Wait Out) (input : EffectInput Dep Answer) :
    state.deps.length ≤ (effect.step state input).deps.length := by
  cases input with
  | rerun dep =>
    show state.deps.length ≤ (state.deps ++ [dep]).length
    rw [List.length_append]
    exact Nat.le_add_right _ _
  | answer number answer => exact (congrArg List.length (effect.deps_step_answer _ _ _)).ge

/-- What a guarded effect writes on an input is by the run that is the last one then. -/
theorem Effect.Guarded.step_written {effect : Effect Dep Wait Answer Out} (guarded : effect.Guarded)
    {state : EffectState Dep Wait Out} (sound : state.Sound) (input : EffectInput Dep Answer) :
    ∃ new, (effect.step state input).written = state.written ++ new ∧
      ∀ write ∈ new, write.1 + 1 = (effect.step state input).deps.length := by
  cases input with
  | rerun dep =>
    refine ⟨(effect.start state.outs dep).1.map fun out => (state.deps.length, out), rfl, ?_⟩
    intro write member
    obtain ⟨out, _, rfl⟩ := List.mem_map.mp member
    show _ = (state.deps ++ [dep]).length
    rw [List.length_append]
    rfl
  | answer number answer =>
    cases isWait : state.waits number with
    | none =>
      rw [effect.step_answer_of_none isWait]
      exact ⟨[], (List.append_nil _).symm, List.forall_mem_nil _⟩
    | some wait =>
      rw [effect.step_answer_of_some isWait]
      refine ⟨(effect.resume (state.cancelled number) wait answer).1.map fun out => (number, out),
        rfl, fun write member => ?_⟩
      obtain ⟨out, isOut, rfl⟩ := List.mem_map.mp member
      by_contra earlier
      rw [EffectState.cancelled_of_earlier (sound.waits number wait isWait) earlier,
        guarded wait answer] at isOut
      exact List.not_mem_nil isOut

/-- Whatever comes later, what a guarded effect writes from some time on is by the run that is the
last one then or by later ones, in the order of the runs. -/
theorem Effect.Guarded.run_written {effect : Effect Dep Wait Answer Out} (guarded : effect.Guarded)
    {state : EffectState Dep Wait Out} (sound : state.Sound)
    (inputs : List (EffectInput Dep Answer)) :
    ∃ new, (run effect.step state inputs).written = state.written ++ new ∧
      (new.map Prod.fst).Pairwise (· ≤ ·) ∧
      ∀ write ∈ new, state.deps.length ≤ write.1 + 1 ∧
        write.1 + 1 ≤ (run effect.step state inputs).deps.length := by
  induction inputs using List.reverseRecOn with
  | nil => exact ⟨[], (List.append_nil _).symm, List.Pairwise.nil, List.forall_mem_nil _⟩
  | append_singleton inputs input inductionHypothesis =>
    obtain ⟨new, written, ordered, within⟩ := inductionHypothesis
    have soundHere : (run effect.step state inputs).Sound :=
      run_invariant sound (fun _ input _ kept => kept.step effect input) inputs
        fun _ _ => trivial
    have grown : state.deps.length ≤ (run effect.step state inputs).deps.length :=
      run_invariant (motive := fun reached => state.deps.length ≤ reached.deps.length)
        (Nat.le_refl _)
        (fun reached input _ kept => kept.trans (effect.deps_length_le_step reached input)) inputs
        fun _ _ => trivial
    obtain ⟨outs, more, byLast⟩ := guarded.step_written soundHere input
    have grows := effect.deps_length_le_step (run effect.step state inputs) input
    rw [run_concat]
    refine ⟨new ++ outs, ?_, ?_, fun write member => ?_⟩
    · rw [more, written, List.append_assoc]
    · rw [List.map_append]
      refine List.pairwise_append.mpr ⟨ordered, ?_, fun first firstMember second secondMember => ?_⟩
      · refine List.pairwise_of_forall_mem_list fun first firstMember second secondMember => ?_
        obtain ⟨write, isWrite, rfl⟩ := List.mem_map.mp firstMember
        obtain ⟨other, isOther, rfl⟩ := List.mem_map.mp secondMember
        have here := byLast write isWrite
        have there := byLast other isOther
        omega
      · obtain ⟨write, isWrite, rfl⟩ := List.mem_map.mp firstMember
        obtain ⟨other, isOther, rfl⟩ := List.mem_map.mp secondMember
        have here := (within write isWrite).2
        have there := byLast other isOther
        omega
    · rcases List.mem_append.mp member with before | now
      · exact ⟨(within write before).1, (within write before).2.trans grows⟩
      · have here := byLast write now
        omega

/-! ### Which answers are written -/

/-- The state of an effect after some inputs. -/
def Effect.after (effect : Effect Dep Wait Answer Out) (inputs : List (EffectInput Dep Answer)) :
    EffectState Dep Wait Out :=
  run effect.step .fresh inputs

theorem Effect.after_sound (effect : Effect Dep Wait Answer Out)
    (inputs : List (EffectInput Dep Answer)) : (effect.after inputs).Sound :=
  run_invariant EffectState.fresh_sound (fun _ input _ kept => kept.step effect input) inputs
    fun _ _ => trivial

theorem Effect.after_concat (effect : Effect Dep Wait Answer Out)
    (inputs : List (EffectInput Dep Answer)) (input : EffectInput Dep Answer) :
    effect.after (inputs ++ [input]) = effect.step (effect.after inputs) input :=
  run_concat effect.step .fresh inputs input

/-- An input that neither begins a run nor takes run `number` further. -/
def EffectInput.Quiet (taken : Answer → Prop) (number : Nat) : EffectInput Dep Answer → Prop
  | .rerun _ => False
  | .answer other given => other = number → ¬ taken given

/-- What runs wait for first, if at all: some answers are taken, others are not for them, and no run
comes back to it. -/
structure Effect.FirstWait (effect : Effect Dep Wait Answer Out) (wait : Wait)
    (taken : Answer → Prop) : Prop where
  stays : ∀ cancelled answer, ¬ taken answer → (effect.resume cancelled wait answer).2 = some wait
  leaves : ∀ cancelled answer, taken answer → (effect.resume cancelled wait answer).2 ≠ some wait
  notBack : ∀ cancelled other answer, (effect.resume cancelled other answer).2 = some wait →
    other = wait

/-- Run `number` is the last one after some inputs, and still waits as it began: these are some
inputs before it, its beginning, and quiet ones. -/
def Effect.BeganWith (effect : Effect Dep Wait Answer Out) (wait : Wait) (taken : Answer → Prop)
    (number : Nat) (inputs : List (EffectInput Dep Answer)) : Prop :=
  ∃ before dep quiet, inputs = before ++ .rerun dep :: quiet ∧
    (effect.after before).deps.length = number ∧
    (effect.start (effect.after before).outs dep).2 = some wait ∧
    ∀ input ∈ quiet, input.Quiet taken number

theorem Effect.FirstWait.of_beganWith {effect : Effect Dep Wait Answer Out} {wait : Wait}
    {taken : Answer → Prop} (first : effect.FirstWait wait taken) {number : Nat}
    {inputs : List (EffectInput Dep Answer)} (began : effect.BeganWith wait taken number inputs) :
    (effect.after inputs).waits number = some wait ∧
      number + 1 = (effect.after inputs).deps.length := by
  obtain ⟨before, dep, quiet, rfl, isNumber, starts, isQuiet⟩ := began
  induction quiet using List.reverseRecOn with
  | nil =>
    rw [effect.after_concat]
    refine ⟨?_, ?_⟩
    · show Function.update _ _ _ number = _
      rw [isNumber, Function.update_self]
      exact starts
    · show number + 1 = ((effect.after before).deps ++ [dep]).length
      rw [List.length_append, isNumber]
      rfl
  | append_singleton quiet input inductionHypothesis =>
    obtain ⟨waits, isLast⟩ := inductionHypothesis fun other member =>
      isQuiet other (List.mem_append_left _ member)
    have inputQuiet := isQuiet input (List.mem_append_right _ (List.mem_singleton_self input))
    rw [← List.cons_append, ← List.append_assoc, effect.after_concat]
    cases input with
    | rerun dep => exact inputQuiet.elim
    | answer other answer =>
      refine ⟨?_, isLast.trans (congrArg List.length
        (effect.deps_step_answer _ other answer)).symm⟩
      cases isWait : (effect.after (before ++ .rerun dep :: quiet)).waits other with
      | none => exact (effect.step_answer_of_none isWait answer).symm ▸ waits
      | some otherWait =>
        rw [effect.step_answer_of_some isWait]
        by_cases same : other = number
        · subst same
          obtain rfl := Option.some.inj (waits.symm.trans isWait)
          exact (Function.update_self _ _ _).trans (first.stays _ answer (inputQuiet rfl))
        · exact (Function.update_of_ne (Ne.symm same) _ _).trans waits

theorem Effect.FirstWait.beganWith {effect : Effect Dep Wait Answer Out} {wait : Wait}
    {taken : Answer → Prop} (first : effect.FirstWait wait taken) {number : Nat}
    {inputs : List (EffectInput Dep Answer)}
    (waits : (effect.after inputs).waits number = some wait)
    (isLast : number + 1 = (effect.after inputs).deps.length) :
    effect.BeganWith wait taken number inputs := by
  induction inputs using List.reverseRecOn with
  | nil => exact absurd isLast (Nat.succ_ne_zero number)
  | append_singleton inputs input inductionHypothesis =>
    rw [effect.after_concat] at waits isLast
    cases input with
    | rerun dep =>
      have isNumber : (effect.after inputs).deps.length = number := by
        have grown : number + 1 = ((effect.after inputs).deps ++ [dep]).length := isLast
        rw [List.length_append] at grown
        exact (Nat.succ.inj grown).symm
      refine ⟨inputs, dep, [], rfl, isNumber, ?_, List.forall_mem_nil _⟩
      have starts : Function.update _ _ _ number = _ := waits
      rw [isNumber, Function.update_self] at starts
      exact starts
    | answer other answer =>
      rw [effect.deps_step_answer] at isLast
      -- before the answer the run waited as it does now
      have already : (effect.after inputs).waits number = some wait ∧
          (EffectInput.answer other answer : EffectInput Dep Answer).Quiet taken number := by
        cases isWait : (effect.after inputs).waits other with
        | none =>
          rw [effect.step_answer_of_none isWait] at waits
          refine ⟨waits, fun same => ?_⟩
          rw [same, waits] at isWait
          exact absurd isWait (Option.some_ne_none wait)
        | some otherWait =>
          rw [effect.step_answer_of_some isWait] at waits
          by_cases same : other = number
          · subst same
            have here := (Function.update_self _ _ _).symm.trans waits
            obtain rfl := first.notBack _ otherWait answer here
            exact ⟨isWait, fun _ isTaken => first.leaves _ answer isTaken here⟩
          · exact ⟨(Function.update_of_ne (Ne.symm same) _ _).symm.trans waits,
              fun here => absurd here same⟩
      obtain ⟨before, dep, quiet, rfl, isNumber, starts, isQuiet⟩ :=
        inductionHypothesis already.1 isLast
      refine ⟨before, dep, quiet ++ [.answer other answer], by rw [List.append_assoc]; rfl,
        isNumber, starts, fun input member => ?_⟩
      rcases List.mem_append.mp member with earlier | now
      · exact isQuiet input earlier
      · rw [List.mem_singleton.mp now]
        exact already.2

/-- What is written by a guarded effect that writes nothing at once: what some answer makes of a
wait of the run that is the last one when it comes. -/
theorem Effect.Guarded.mem_written_iff {effect : Effect Dep Wait Answer Out}
    (guarded : effect.Guarded) (silent : ∀ outs dep, (effect.start outs dep).1 = [])
    (inputs : List (EffectInput Dep Answer)) (number : Nat) (out : Out) :
    (number, out) ∈ (effect.after inputs).written ↔
      ∃ before answer rest wait, inputs = before ++ .answer number answer :: rest ∧
        (effect.after before).waits number = some wait ∧
        number + 1 = (effect.after before).deps.length ∧
        out ∈ (effect.resume false wait answer).1 := by
  induction inputs using List.reverseRecOn with
  | nil =>
    refine iff_of_false List.not_mem_nil ?_
    rintro ⟨before, answer, rest, _, parts, _⟩
    exact absurd parts.symm (by simp)
  | append_singleton inputs input inductionHypothesis =>
    rw [effect.after_concat]
    -- the last input writes, or what comes after the answer ends with it
    have splits : (∃ before answer rest wait, inputs ++ [input] =
          before ++ .answer number answer :: rest ∧
          (effect.after before).waits number = some wait ∧
          number + 1 = (effect.after before).deps.length ∧
          out ∈ (effect.resume false wait answer).1) ↔
        (number, out) ∈ (effect.after inputs).written ∨
          ∃ answer wait, input = .answer number answer ∧
            (effect.after inputs).waits number = some wait ∧
            number + 1 = (effect.after inputs).deps.length ∧
            out ∈ (effect.resume false wait answer).1 := by
      rw [inductionHypothesis]
      constructor
      · rintro ⟨before, answer, rest, wait, parts, waits, isLast, member⟩
        rcases List.eq_nil_or_concat rest with rfl | ⟨rest, last, rfl⟩
        · obtain ⟨rfl, same⟩ := List.append_inj' parts rfl
          exact Or.inr ⟨answer, wait, List.singleton_inj.mp same, waits, isLast, member⟩
        · rw [List.concat_eq_append, ← List.cons_append, ← List.append_assoc] at parts
          obtain ⟨rfl, _⟩ := List.append_inj' parts rfl
          exact Or.inl ⟨before, answer, rest, wait, rfl, waits, isLast, member⟩
      · rintro (⟨before, answer, rest, wait, rfl, facts⟩ | ⟨answer, wait, rfl, facts⟩)
        · exact ⟨before, answer, rest ++ [input], wait, List.append_assoc _ _ _, facts⟩
        · exact ⟨inputs, answer, [], wait, rfl, facts⟩
    rw [splits]
    cases input with
    | rerun dep =>
      have same : (effect.step (effect.after inputs) (.rerun dep)).written =
          (effect.after inputs).written := by
        show _ ++ (effect.start _ dep).1.map _ = _
        rw [silent, List.map_nil, List.append_nil]
      rw [same]
      exact (or_iff_left fun ⟨_, _, isAnswer, _⟩ => by cases isAnswer).symm
    | answer other answer =>
      cases isWait : (effect.after inputs).waits other with
      | none =>
        rw [effect.step_answer_of_none isWait]
        refine (or_iff_left ?_).symm
        rintro ⟨_, wait, same, waits, _⟩
        obtain ⟨rfl, rfl⟩ := EffectInput.answer.inj same
        rw [isWait] at waits
        exact Option.some_ne_none wait waits.symm
      | some wait =>
        rw [effect.step_answer_of_some isWait]
        show (number, out) ∈ (effect.after inputs).written ++ _ ↔ _
        rw [List.mem_append]
        refine or_congr_right ⟨fun member => ?_, ?_⟩
        · obtain ⟨_, isOut, same⟩ := List.mem_map.mp member
          obtain ⟨rfl, rfl⟩ := Prod.mk.inj same
          have isRun := (effect.after_sound inputs).waits other wait isWait
          by_cases isLast : other + 1 = (effect.after inputs).deps.length
          · rw [EffectState.cancelled_of_last isLast] at isOut
            exact ⟨answer, wait, rfl, isWait, isLast, isOut⟩
          · rw [EffectState.cancelled_of_earlier isRun isLast, guarded wait answer] at isOut
            exact absurd isOut List.not_mem_nil
        · rintro ⟨_, otherWait, same, waits, isLast, isOut⟩
          obtain ⟨rfl, rfl⟩ := EffectInput.answer.inj same
          obtain rfl := Option.some.inj (isWait.symm.trans waits)
          rw [EffectState.cancelled_of_last isLast]
          exact List.mem_map_of_mem isOut

/-! ### What the last run writes -/

/-- An input that begins no run. -/
def EffectInput.IsAnswer : EffectInput Dep Answer → Prop
  | .rerun _ => False
  | .answer _ _ => True

/-- The answers to a run, in order. -/
def answersTo (number : Nat) (inputs : List (EffectInput Dep Answer)) : List Answer :=
  inputs.filterMap fun
    | .rerun _ => none
    | .answer other given => if other = number then some given else none

/-- What a run that is not cancelled has written and waits for after one more answer. -/
def Effect.answered (effect : Effect Dep Wait Answer Out) (turn : List Out × Option Wait)
    (given : Answer) : List Out × Option Wait :=
  match turn.2 with
  | none => turn
  | some wait => (turn.1 ++ (effect.resume false wait given).1, (effect.resume false wait given).2)

theorem Effect.answered_of_none (effect : Effect Dep Wait Answer Out)
    {turn : List Out × Option Wait} (ended : turn.2 = none) (given : Answer) :
    effect.answered turn given = turn := by
  rw [answered, ended]

theorem Effect.answered_of_some (effect : Effect Dep Wait Answer Out)
    {turn : List Out × Option Wait} {wait : Wait} (waits : turn.2 = some wait) (given : Answer) :
    effect.answered turn given =
      (turn.1 ++ (effect.resume false wait given).1, (effect.resume false wait given).2) := by
  rw [answered, waits]

/-- What a run that is not cancelled has written and waits for after its first turn and answers. -/
def Effect.turns (effect : Effect Dep Wait Answer Out) (turn : List Out × Option Wait)
    (answers : List Answer) : List Out × Option Wait :=
  run effect.answered turn answers

/-- What a run has written stays. -/
theorem Effect.turns_fst (effect : Effect Dep Wait Answer Out) (turn : List Out × Option Wait)
    (answers : List Answer) : ∃ more, (effect.turns turn answers).1 = turn.1 ++ more := by
  refine run_invariant
    (motive := fun reached : List Out × Option Wait => ∃ more, reached.1 = turn.1 ++ more)
    ⟨[], (List.append_nil _).symm⟩ ?_ answers fun _ _ => trivial
  rintro reached given _ ⟨more, written⟩
  cases waits : reached.2 with
  | none => exact ⟨more, (congrArg Prod.fst (effect.answered_of_none waits given)).trans written⟩
  | some wait =>
    rw [effect.answered_of_some waits, written, List.append_assoc]
    exact ⟨_, rfl⟩

theorem answersTo_map_answer (number : Nat) (answers : List Answer) :
    answersTo number (answers.map (.answer number : Answer → EffectInput Dep Answer)) =
      answers := by
  unfold answersTo
  rw [List.filterMap_map]
  simp

theorem EffectState.outs_after (state : EffectState Dep Wait Out) (number : Nat)
    (turn : List Out × Option Wait) : (state.after number turn).outs = state.outs ++ turn.1 := by
  show (state.written ++ turn.1.map _).map Prod.snd = _
  rw [List.map_append, List.map_map]
  exact congrArg (state.outs ++ ·) (List.map_id _)

/-- From when a run of a guarded effect has begun until the next one does, what is written is what
that run makes of its own answers, whatever answers others get. -/
theorem Effect.Guarded.after_rerun {effect : Effect Dep Wait Answer Out} (guarded : effect.Guarded)
    (before : List (EffectInput Dep Answer)) (dep : Dep) {rest : List (EffectInput Dep Answer)}
    (answers : ∀ input ∈ rest, input.IsAnswer) :
    let number := (effect.after before).deps.length
    let reached := effect.after (before ++ .rerun dep :: rest)
    let turn := effect.turns (effect.start (effect.after before).outs dep) (answersTo number rest)
    reached.outs = (effect.after before).outs ++ turn.1 ∧ reached.waits number = turn.2 ∧
      reached.deps.length = number + 1 := by
  induction rest using List.reverseRecOn with
  | nil =>
    intro number reached turn
    have begun : reached = effect.step (effect.after before) (.rerun dep) :=
      effect.after_concat before (.rerun dep)
    rw [begun]
    refine ⟨EffectState.outs_after _ _ _, Function.update_self _ _ _, ?_⟩
    show ((effect.after before).deps ++ [dep]).length = _
    rw [List.length_append]
    rfl
  | append_singleton rest input inductionHypothesis =>
    intro number reached turn
    obtain ⟨outs, waits, isLast⟩ := inductionHypothesis fun other member =>
      answers other (List.mem_append_left _ member)
    have isAnswer := answers input (List.mem_append_right _ (List.mem_singleton_self input))
    have stepped : reached = effect.step (effect.after (before ++ .rerun dep :: rest)) input := by
      rw [← effect.after_concat, List.append_assoc]
      rfl
    cases input with
    | rerun dep => exact isAnswer.elim
    | answer other given =>
      have deps : reached.deps.length = number + 1 := by
        rw [stepped, effect.deps_step_answer]
        exact isLast
      have split : answersTo number (rest ++ [.answer other given]) =
          answersTo number rest ++ if other = number then [given] else [] := by
        unfold answersTo
        rw [List.filterMap_append]
        split <;> simp [*]
      have next : turn = run effect.answered
          (effect.turns (effect.start (effect.after before).outs dep) (answersTo number rest))
          (if other = number then [given] else []) :=
        (congrArg (effect.turns _) split).trans (run_append _ _ _ _)
      generalize effect.turns (effect.start (effect.after before).outs dep)
        (answersTo number rest) = sofar at outs waits next
      rw [next, stepped]
      by_cases same : other = number
      · rw [if_pos same, run_cons, run_nil, same]
        cases isWait : (effect.after (before ++ .rerun dep :: rest)).waits number with
        | none =>
          rw [effect.step_answer_of_none isWait, effect.answered_of_none (waits.symm.trans isWait)]
          exact ⟨outs, waits, isLast⟩
        | some wait =>
          rw [effect.step_answer_of_some isWait, effect.answered_of_some (waits.symm.trans isWait),
            EffectState.cancelled_of_last isLast.symm, EffectState.outs_after, outs,
            List.append_assoc]
          exact ⟨rfl, Function.update_self _ _ _, isLast⟩
      · rw [if_neg same, run_nil]
        cases isWait : (effect.after (before ++ .rerun dep :: rest)).waits other with
        | none =>
          rw [effect.step_answer_of_none isWait]
          exact ⟨outs, waits, isLast⟩
        | some wait =>
          have isRun := (effect.after_sound _).waits other wait isWait
          rw [effect.step_answer_of_some isWait, EffectState.cancelled_of_earlier isRun (by omega),
            EffectState.outs_after, guarded wait given, List.append_nil]
          exact ⟨outs, (Function.update_of_ne (Ne.symm same) _ _).trans waits, isLast⟩

end PerfWeave
