/-
This file models what the browser asks the server for and what it makes of the answers, whenever
they come: the effect of `web/src/panels/SidePanel.tsx` for the window, and the two effects of
`web/src/timeline/Timeline.tsx` that resolve names. All three look whether they are cancelled. So
the panel never falls back to an earlier window; and a name is learned only when its answer comes
before the next heartbeat, however often it is asked for. The arguments of the panel's requests are
left out, and an id is written out in full, as JavaScript does below `2 ^ 53`.
-/

import PerfWeave.Library.Effects
import PerfWeave.Web.MetricLanes
import PerfWeave.Web.Navigation

namespace PerfWeave

/-! ### The panel -/

/-- `SpikeMarker`. -/
structure SpikeMarker where
  bucketStartNs : Nat
  bucketWidthNs : Nat
  nodeId : Nat
  gpuId : Nat
  metricId : Nat
  zMad : ℚ

/-- What the effect of the panel depends on. -/
structure PanelDep where
  viewport : TimeWindow
  useSynthetic : Bool

variable {TopKernel SpikeContext : Type}

/-- Where a run of the effect waits: for the top kernels, for the spikes, or for the context of a
spike, with the spikes whose contexts it has yet to ask for and the contexts it has got. -/
inductive PanelWait (SpikeContext : Type) where
  | topKernels
  | spikes
  | spikeContext (rest : List SpikeMarker) (ctxs : List SpikeContext)

/-- An answer, or none when the request fails. -/
inductive PanelAnswer (TopKernel SpikeContext : Type) where
  | topKernels (rows : Option (List TopKernel))
  | spikes (spikes : Option (List SpikeMarker))
  | spikeContext (ctx : Option SpikeContext)

/-- What the effect sets. -/
inductive PanelWrite (TopKernel SpikeContext : Type) where
  | setTopKernels (rows : List TopKernel)
  | onSpikesChanged (markers : List SpikeMarker)
  | setSpikeCtx (ctxs : List SpikeContext)

/-- The five greatest spikes, the greatest first. -/
def topSpikes (spikes : List SpikeMarker) : List SpikeMarker :=
  (spikes.mergeSort fun first second => second.zMad ≤ first.zMad).take 5

/-- The effect of `SidePanel` for the window. -/
def panelEffect : Effect PanelDep (PanelWait SpikeContext) (PanelAnswer TopKernel SpikeContext)
    (PanelWrite TopKernel SpikeContext) where
  start _ dep := if dep.useSynthetic then ([], none) else ([], some .topKernels)
  resume
    | cancelled, .topKernels, .topKernels (some rows) =>
      if cancelled then ([], none) else ([.setTopKernels rows], some .spikes)
    | _, .topKernels, .topKernels none => ([], some .spikes)
    | cancelled, .spikes, .spikes (some spikes) =>
      if cancelled then ([], none)
      else
        match topSpikes spikes with
        | [] => ([.onSpikesChanged spikes, .setSpikeCtx []], none)
        | _ :: rest => ([.onSpikesChanged spikes], some (.spikeContext rest []))
    | _, .spikes, .spikes none => ([], none)
    | cancelled, .spikeContext [] ctxs, .spikeContext ctx =>
      if cancelled then ([], none) else ([.setSpikeCtx (ctxs ++ ctx.toList)], none)
    | _, .spikeContext (_ :: rest) ctxs, .spikeContext ctx =>
      ([], some (.spikeContext rest (ctxs ++ ctx.toList)))
    | _, wait, _ => ([], some wait)

/-- The effect of the panel, with what its answers are. -/
abbrev PanelEffect (TopKernel SpikeContext : Type) : Type :=
  Effect PanelDep (PanelWait SpikeContext) (PanelAnswer TopKernel SpikeContext)
    (PanelWrite TopKernel SpikeContext)

theorem panelEffect_guarded : (panelEffect : PanelEffect TopKernel SpikeContext).Guarded := by
  intro wait answer
  unfold panelEffect
  simp only
  split <;> rfl

theorem length_topSpikes_le (spikes : List SpikeMarker) :
    (topSpikes spikes).length ≤ min 5 spikes.length := by
  rw [topSpikes, List.length_take, List.length_mergeSort]

/-- What happens to the panel: its window changes, or one of its requests is answered. -/
abbrev PanelInput (TopKernel SpikeContext : Type) : Type :=
  EffectInput PanelDep (PanelAnswer TopKernel SpikeContext)

/-- The state of the panel's effect. -/
abbrev PanelState (TopKernel SpikeContext : Type) : Type :=
  EffectState PanelDep (PanelWait SpikeContext) (PanelWrite TopKernel SpikeContext)

/-- The panel's effect after some inputs. -/
def panelAfter (inputs : List (PanelInput TopKernel SpikeContext)) :
    PanelState TopKernel SpikeContext :=
  panelEffect.after inputs

/-- Run `number` has set pins of which it asks for as many contexts as it has got and will get. -/
def PanelState.Pinned (state : PanelState TopKernel SpikeContext) (number cards : Nat) : Prop :=
  ∃ spikes, (number, .onSpikesChanged spikes) ∈ state.written ∧ cards ≤ (topSpikes spikes).length

/-- A run that has yet to ask for the spikes has set no pins, one that waits for contexts has, and
cards go with the pins of their run, of which there is one set. -/
structure PanelState.Kept (state : PanelState TopKernel SpikeContext) : Prop where
  sound : state.Sound
  unpinned : ∀ number wait, state.waits number = some wait →
    (wait = .topKernels ∨ wait = .spikes) →
    ∀ spikes, (number, PanelWrite.onSpikesChanged spikes) ∉ state.written
  waiting : ∀ number rest ctxs, state.waits number = some (.spikeContext rest ctxs) →
    state.Pinned number (ctxs.length + 1 + rest.length)
  once : ∀ number spikes others, (number, .onSpikesChanged spikes) ∈ state.written →
    (number, .onSpikesChanged others) ∈ state.written → spikes = others
  cards : ∀ number ctxs, (number, .setSpikeCtx ctxs) ∈ state.written →
    state.Pinned number ctxs.length

/-- What a run of the panel's effect does in a turn. -/
inductive PanelTurn : PanelWait SpikeContext →
    List (PanelWrite TopKernel SpikeContext) × Option (PanelWait SpikeContext) → Prop where
  | ends (wait : PanelWait SpikeContext) : PanelTurn wait ([], none)
  | stays (wait : PanelWait SpikeContext) : PanelTurn wait ([], some wait)
  | ranked (rows : List (List TopKernel)) :
    PanelTurn .topKernels (rows.map .setTopKernels, some .spikes)
  | noPins (spikes : List SpikeMarker) :
    PanelTurn .spikes ([.onSpikesChanged spikes, .setSpikeCtx []], none)
  | pins (spikes : List SpikeMarker) (first : SpikeMarker) (rest : List SpikeMarker)
    (top : topSpikes spikes = first :: rest) :
    PanelTurn .spikes ([.onSpikesChanged spikes], some (.spikeContext rest []))
  | asks (next : SpikeMarker) (rest : List SpikeMarker) (ctxs : List SpikeContext)
    (ctx : Option SpikeContext) :
    PanelTurn (.spikeContext (next :: rest) ctxs)
      ([], some (.spikeContext rest (ctxs ++ ctx.toList)))
  | shows (ctxs : List SpikeContext) (ctx : Option SpikeContext) :
    PanelTurn (.spikeContext [] ctxs) ([.setSpikeCtx (ctxs ++ ctx.toList)], none)

theorem panelTurn (cancelled : Bool) (wait : PanelWait SpikeContext)
    (answer : PanelAnswer TopKernel SpikeContext) :
    PanelTurn wait ((panelEffect : PanelEffect TopKernel SpikeContext).resume cancelled wait
      answer) := by
  unfold panelEffect
  simp only
  split
  · split
    · exact .ends _
    · exact .ranked [_]
  · exact .ranked []
  · split
    · exact .ends _
    · split
      · exact .noPins _
      · rename_i top
        exact .pins _ _ _ top
  · exact .ends _
  · split
    · exact .ends _
    · exact .shows _ _
  · exact .asks _ _ _ _
  · exact .stays _

namespace PanelTurn

variable {wait : PanelWait SpikeContext}
  {turn : List (PanelWrite TopKernel SpikeContext) × Option (PanelWait SpikeContext)}

/-- Pins are set from the wait for the spikes only, and once. -/
theorem of_pins (isTurn : PanelTurn wait turn) {spikes : List SpikeMarker}
    (member : .onSpikesChanged spikes ∈ turn.1) :
    wait = .spikes ∧ ∀ others, .onSpikesChanged others ∈ turn.1 → spikes = others := by
  cases isTurn with
  | ends => exact absurd member List.not_mem_nil
  | stays => exact absurd member List.not_mem_nil
  | ranked rows => simp at member
  | noPins pinned => simp_all
  | pins pinned => simp_all
  | asks => exact absurd member List.not_mem_nil
  | shows ctxs ctx => simp at member

/-- A run that waits for the top kernels or the spikes has done so before, and set no pins. -/
theorem of_early (isTurn : PanelTurn wait turn) {next : PanelWait SpikeContext}
    (isNext : turn.2 = some next) (early : next = .topKernels ∨ next = .spikes) :
    (wait = .topKernels ∨ wait = .spikes) ∧ ∀ spikes, .onSpikesChanged spikes ∉ turn.1 := by
  cases isTurn with
  | ends => cases isNext
  | stays =>
    cases isNext
    exact ⟨early, fun _ => List.not_mem_nil⟩
  | ranked rows => exact ⟨Or.inl rfl, fun spikes member => by simp at member⟩
  | noPins spikes => cases isNext
  | pins spikes first rest top =>
    cases isNext
    rcases early with early | early <;> cases early
  | asks =>
    cases isNext
    rcases early with early | early <;> cases early
  | shows ctxs ctx => cases isNext

/-- The cards that a run has got and will get are those it has set pins for. -/
theorem of_waiting (isTurn : PanelTurn wait turn) {rest : List SpikeMarker}
    {ctxs : List SpikeContext} (isNext : turn.2 = some (.spikeContext rest ctxs)) :
    (∃ spikes, .onSpikesChanged spikes ∈ turn.1 ∧
        ctxs.length + 1 + rest.length ≤ (topSpikes spikes).length) ∨
      ∃ more got, wait = .spikeContext more got ∧
        ctxs.length + 1 + rest.length ≤ got.length + 1 + more.length := by
  cases isTurn with
  | ends => cases isNext
  | stays => exact Or.inr ⟨rest, ctxs, Option.some.inj isNext, le_rfl⟩
  | ranked rows => cases isNext
  | noPins spikes => cases isNext
  | pins spikes first rest top =>
    cases isNext
    refine Or.inl ⟨spikes, List.mem_singleton_self _, ?_⟩
    rw [top, List.length_cons, List.length_nil]
    omega
  | asks next rest got ctx =>
    cases isNext
    refine Or.inr ⟨next :: rest, got, rfl, ?_⟩
    have atMostOne := Option.length_toList_le (o := ctx)
    rw [List.length_append, List.length_cons]
    omega
  | shows got ctx => cases isNext

/-- The cards that a run sets are those it has set pins for. -/
theorem of_cards (isTurn : PanelTurn wait turn) {ctxs : List SpikeContext}
    (member : .setSpikeCtx ctxs ∈ turn.1) :
    (∃ spikes, .onSpikesChanged spikes ∈ turn.1 ∧ ctxs.length ≤ (topSpikes spikes).length) ∨
      ∃ more got, wait = .spikeContext more got ∧ ctxs.length ≤ got.length + 1 + more.length := by
  cases isTurn with
  | ends => exact absurd member List.not_mem_nil
  | stays => exact absurd member List.not_mem_nil
  | ranked rows => simp at member
  | noPins spikes =>
    obtain rfl : ctxs = [] := by simpa using member
    exact Or.inl ⟨spikes, List.mem_cons_self, Nat.zero_le _⟩
  | pins spikes first rest top => simp at member
  | asks => exact absurd member List.not_mem_nil
  | shows got ctx =>
    obtain rfl : ctxs = got ++ ctx.toList := by simpa using member
    refine Or.inr ⟨[], got, rfl, ?_⟩
    have atMostOne := Option.length_toList_le (o := ctx)
    rw [List.length_append]
    omega

end PanelTurn

namespace PanelState

variable {state : PanelState TopKernel SpikeContext} {number cards : Nat}
  {turn : List (PanelWrite TopKernel SpikeContext) × Option (PanelWait SpikeContext)}

theorem Pinned.after (pinned : state.Pinned number cards) (other : Nat) :
    Pinned (state.after other turn) number cards := by
  obtain ⟨spikes, member, few⟩ := pinned
  exact ⟨spikes, EffectState.mem_written_after.mpr (Or.inl member), few⟩

/-- Pins that are set now, or cards that are among those still to come. -/
theorem pinned_after (kept : state.Kept) {wait : PanelWait SpikeContext}
    (isWait : state.waits number = some wait)
    (known : (∃ spikes, .onSpikesChanged spikes ∈ turn.1 ∧ cards ≤ (topSpikes spikes).length) ∨
      ∃ more got, wait = .spikeContext more got ∧ cards ≤ got.length + 1 + more.length) :
    Pinned (state.after number turn) number cards := by
  rcases known with ⟨spikes, now, few⟩ | ⟨more, got, rfl, few⟩
  · exact ⟨spikes, EffectState.mem_written_after.mpr (Or.inr ⟨rfl, now⟩), few⟩
  · obtain ⟨spikes, isPinned, atMost⟩ := kept.waiting number more got isWait
    exact ⟨spikes, EffectState.mem_written_after.mpr (Or.inl isPinned), few.trans atMost⟩

theorem Kept.afterTurn (kept : state.Kept) {wait : PanelWait SpikeContext}
    (isWait : state.waits number = some wait) (isTurn : PanelTurn wait turn) :
    Kept (state.after number turn) := by
  have unpinned : ∀ spikes, .onSpikesChanged spikes ∈ turn.1 →
      ∀ others, (number, .onSpikesChanged others) ∉ state.written := fun spikes now =>
    kept.unpinned number wait isWait (Or.inr (isTurn.of_pins now).1)
  refine ⟨kept.sound.after (kept.sound.waits number wait isWait) turn,
    fun other next isNext early spikes member => ?_,
    fun other rest ctxs isNext => ?_, fun other spikes others member second => ?_,
    fun other ctxs member => ?_⟩
  · rcases EffectState.waits_after isNext with ⟨rfl, turned⟩ | ⟨different, waited⟩
    · obtain ⟨earlier, noPins⟩ := isTurn.of_early turned early
      rcases EffectState.mem_written_after.mp member with before | ⟨_, now⟩
      · exact kept.unpinned other wait isWait earlier spikes before
      · exact noPins spikes now
    · rcases EffectState.mem_written_after.mp member with before | ⟨same, _⟩
      · exact kept.unpinned other next waited early spikes before
      · exact different same
  · rcases EffectState.waits_after isNext with ⟨rfl, turned⟩ | ⟨_, waited⟩
    · exact pinned_after kept isWait (isTurn.of_waiting turned)
    · exact (kept.waiting other rest ctxs waited).after number
  · rcases EffectState.mem_written_after.mp member with before | ⟨same, now⟩ <;>
      rcases EffectState.mem_written_after.mp second with before' | ⟨same', now'⟩
    · exact kept.once other spikes others before before'
    · obtain rfl : other = number := same'
      exact absurd before (unpinned others now' spikes)
    · obtain rfl : other = number := same
      exact absurd before' (unpinned spikes now others)
    · exact (isTurn.of_pins now).2 others now'
  · rcases EffectState.mem_written_after.mp member with before | ⟨same, now⟩
    · exact (kept.cards other ctxs before).after number
    · obtain rfl : other = number := same
      exact pinned_after kept isWait (isTurn.of_cards now)

theorem Kept.step (kept : state.Kept)
    (input : PanelInput TopKernel SpikeContext) : Kept (panelEffect.step state input) := by
  have sound := kept.sound.step panelEffect input
  cases input with
  | rerun dep =>
    have silent : ((panelEffect : PanelEffect TopKernel SpikeContext).start state.outs dep).1 = [] ∧
        ∀ rest ctxs, ((panelEffect : PanelEffect TopKernel SpikeContext).start state.outs dep).2 ≠
          some (.spikeContext rest ctxs) := by
      unfold panelEffect
      simp only
      split
      · exact ⟨rfl, fun rest ctxs same => absurd same.symm (Option.some_ne_none _)⟩
      · refine ⟨rfl, fun rest ctxs same => ?_⟩
        cases same
    have same : ∀ write, write ∈ (panelEffect.step state (.rerun dep)).written →
        write ∈ state.written := by
      intro write member
      rcases EffectState.mem_written_after.mp member with before | ⟨_, now⟩
      · exact before
      · rw [silent.1] at now
        exact absurd now List.not_mem_nil
    refine ⟨sound, fun other next isNext early spikes member => ?_,
      fun other rest ctxs isNext => ?_, fun other spikes others member second =>
        kept.once other spikes others (same _ member) (same _ second),
      fun other ctxs member => (kept.cards other ctxs (same _ member)).after _⟩
    · rcases EffectState.waits_after isNext with ⟨rfl, _⟩ | ⟨_, waited⟩
      · exact absurd (kept.sound.written _ (same _ member)) (Nat.lt_irrefl _)
      · exact kept.unpinned other next waited early spikes (same _ member)
    · rcases EffectState.waits_after isNext with ⟨_, turned⟩ | ⟨_, waited⟩
      · exact absurd turned (silent.2 rest ctxs)
      · exact (kept.waiting other rest ctxs waited).after _
  | answer number answer =>
    cases isWait : state.waits number with
    | none => exact (panelEffect.step_answer_of_none isWait answer).symm ▸ kept
    | some wait =>
      rw [panelEffect.step_answer_of_some isWait]
      exact kept.afterTurn isWait (panelTurn _ wait answer)

theorem kept_panelAfter (inputs : List (PanelInput TopKernel SpikeContext)) :
    Kept (panelAfter inputs) := by
  refine run_invariant ⟨EffectState.fresh_sound, ?_, ?_, ?_, ?_⟩
    (fun _ input _ kept => kept.step input) inputs fun _ _ => trivial
  · exact fun _ _ none => absurd none.symm (Option.some_ne_none _)
  · exact fun _ _ _ none => absurd none.symm (Option.some_ne_none _)
  · exact fun _ _ _ member => absurd member List.not_mem_nil
  · exact fun _ _ member => absurd member List.not_mem_nil

end PanelState

/-- Whatever comes when, what the panel sets from some time on is for the window of that time or for
later ones, in their order; and the cards it sets for a window are at most five, and no more than
the pins that it has set for that same window, once. Which pin a card is for stands in the argument
of its request, which is not modelled. -/
theorem panel_keeps_up (before later : List (PanelInput TopKernel SpikeContext)) :
    (∃ new, (panelAfter (before ++ later)).written = (panelAfter before).written ++ new ∧
      (new.map Prod.fst).Pairwise (· ≤ ·) ∧
      ∀ write ∈ new, (panelAfter before).deps.length ≤ write.1 + 1) ∧
    ∀ number ctxs, (number, .setSpikeCtx ctxs) ∈ (panelAfter (before ++ later)).written →
      ∃ spikes, (number, .onSpikesChanged spikes) ∈ (panelAfter (before ++ later)).written ∧
        (∀ others, (number, .onSpikesChanged others) ∈ (panelAfter (before ++ later)).written →
          others = spikes) ∧
        ctxs.length ≤ min 5 spikes.length := by
  have kept := PanelState.kept_panelAfter (before ++ later)
  refine ⟨?_, fun number ctxs member => ?_⟩
  · obtain ⟨new, written, ordered, within⟩ := panelEffect_guarded.run_written
      (panelEffect.after_sound before) later
    refine ⟨new, ?_, ordered, fun write member => (within write member).1⟩
    rw [panelAfter, Effect.after, run_append]
    exact written
  · obtain ⟨spikes, isPinned, few⟩ := kept.cards number ctxs member
    exact ⟨spikes, isPinned, fun others other => kept.once number others spikes other isPinned,
      few.trans (length_topSpikes_le spikes)⟩

/-- The answers to the request for the top kernels. -/
def PanelAnswer.IsTopKernels : PanelAnswer TopKernel SpikeContext → Prop
  | .topKernels _ => True
  | _ => False

theorem panelEffect_firstWait : (panelEffect : PanelEffect TopKernel SpikeContext).FirstWait
    .topKernels PanelAnswer.IsTopKernels := by
  refine ⟨fun cancelled answer others => ?_, fun cancelled answer taken => ?_,
    fun cancelled other answer back => ?_⟩
  · cases answer with
    | topKernels rows => exact absurd trivial others
    | spikes spikes => rfl
    | spikeContext ctx => rfl
  · cases answer with
    | topKernels rows =>
      cases rows <;> cases cancelled <;> exact fun same => by cases same
    | spikes spikes => exact taken.elim
    | spikeContext ctx => exact taken.elim
  · have isTurn := panelTurn cancelled other answer
    rcases (isTurn.of_early back (Or.inl rfl)).1 with isFirst | isSecond
    · exact isFirst
    · subst isSecond
      generalize (panelEffect : PanelEffect TopKernel SpikeContext).resume cancelled .spikes
        answer = turn at isTurn back
      cases isTurn with
      | ends => cases back
      | stays => cases back
      | noPins spikes => cases back
      | pins spikes first rest top => cases back

/-- The top kernels are set for a window exactly when the first answer to its request for them holds
them, and comes before the window changes again. -/
theorem top_kernels_set_iff (inputs : List (PanelInput TopKernel SpikeContext)) (number : Nat)
    (rows : List TopKernel) :
    (number, .setTopKernels rows) ∈ (panelAfter inputs).written ↔
      ∃ before dep quiet rest, inputs =
          before ++ .rerun dep :: (quiet ++ .answer number (.topKernels (some rows)) :: rest) ∧
        (panelAfter before).deps.length = number ∧ dep.useSynthetic = false ∧
        ∀ input ∈ quiet, input.Quiet PanelAnswer.IsTopKernels number := by
  rw [panelAfter, panelEffect_guarded.mem_written_iff]
  · constructor
    · rintro ⟨asked, answer, rest, wait, rfl, isWait, isLast, isOut⟩
      obtain ⟨rfl, rfl⟩ : wait = .topKernels ∧ answer = .topKernels (some rows) := by
        unfold panelEffect at isOut
        simp only at isOut
        split at isOut
        all_goals simp_all
        split at isOut <;> simp_all
      obtain ⟨before, dep, quiet, rfl, isNumber, starts, isQuiet⟩ :=
        panelEffect_firstWait.beganWith isWait isLast
      refine ⟨before, dep, quiet, rest, by rw [List.append_assoc]; rfl, isNumber, ?_, isQuiet⟩
      by_contra synthetic
      rw [Bool.not_eq_false] at synthetic
      unfold panelEffect at starts
      simp only [synthetic, if_true] at starts
      cases starts
    · rintro ⟨before, dep, quiet, rest, rfl, isNumber, live, isQuiet⟩
      have starts : ((panelEffect : PanelEffect TopKernel SpikeContext).start
          (panelEffect.after before).outs dep).2 = some .topKernels := by
        unfold panelEffect
        simp only [live, Bool.false_eq_true, if_false]
      obtain ⟨isWait, isLast⟩ := panelEffect_firstWait.of_beganWith
        ⟨before, dep, quiet, rfl, isNumber, starts, isQuiet⟩
      exact ⟨before ++ .rerun dep :: quiet, .topKernels (some rows), rest, .topKernels,
        by rw [List.append_assoc]; rfl, isWait, isLast, List.mem_singleton_self _⟩
  · intro outs dep
    unfold panelEffect
    simp only
    split <;> rfl

/-! ### Names -/

/-- Names by their ids. -/
abbrev Names : Type := List (Nat × List Char)

/-- An effect that resolves the ids that are unknown with the names learned so far. -/
def namesEffect {Dep : Type} (unknown : List Names → Dep → List Nat) :
    Effect Dep (List Nat) (Option Names) Names where
  start outs dep :=
    match unknown outs dep with
    | [] => ([], none)
    | ids => ([], some ids)
  resume cancelled _ names :=
    match names with
    | none => ([], none)
    | some names => if cancelled then ([], none) else ([names], none)

/-- The metric ids of the ring's keys that the catalog lacks, for keys of three parts of which the
third is a number. -/
def unknownMetrics (toLowerCase : List Char → List Char) (outs : List Names)
    (keys : List (List Char)) : List Nat :=
  keys.filterMap fun key =>
    match (key.splitOn ':')[2]? with
    | none => none
    | some metricIdStr =>
      if (metricCatalog toLowerCase outs metricIdStr).isSome then none else bigInt metricIdStr

/-- The effect that fills the catalog of the metrics. -/
def metricNamesEffect (toLowerCase : List Char → List Char) :
    Effect (List (List Char)) (List Nat) (Option Names) Names :=
  namesEffect (unknownMetrics toLowerCase)

/-- `kernelNameCacheRef`, after the answers that its effect has got. -/
def kernelNameCache (outs : List Names) : List Char → Option (List Char) :=
  run (setNames id) (fun _ => none) outs

/-- The name ids of live kernels that the cache lacks, each once. -/
def unknownKernels (outs : List Names) (liveKernels : List LiveKernel) : List Nat :=
  (liveKernels.filterMap fun k =>
    if (kernelNameCache outs k.nameId).isSome then none else bigInt k.nameId).eraseDups

/-- The effect that fills the cache of the kernels' names. -/
def kernelNamesEffect : Effect (List LiveKernel) (List Nat) (Option Names) Names :=
  namesEffect unknownKernels

variable {Dep : Type} {unknown : List Names → Dep → List Nat}

theorem namesEffect_guarded : (namesEffect unknown).Guarded := by
  intro ids names
  cases names <;> rfl

theorem namesEffect_firstWait (ids : List Nat) :
    (namesEffect unknown).FirstWait ids fun _ => True := by
  refine ⟨fun _ _ taken => absurd trivial taken, fun cancelled names _ same => ?_,
    fun cancelled other names back => ?_⟩
  · cases names <;> cases cancelled <;> cases same
  · cases names <;> cases cancelled <;> cases back

/-- Names are learned exactly when they answer a request before the effect runs again. -/
theorem namesEffect_written_iff (inputs : List (EffectInput Dep (Option Names))) (names : Names) :
    names ∈ ((namesEffect unknown).after inputs).outs ↔
      ∃ before dep quiet rest, inputs = before ++ .rerun dep :: (quiet ++
          .answer ((namesEffect unknown).after before).deps.length (some names) :: rest) ∧
        unknown ((namesEffect unknown).after before).outs dep ≠ [] ∧
        ∀ input ∈ quiet, input.Quiet (fun _ => True)
          ((namesEffect unknown).after before).deps.length := by
  have isOut : names ∈ ((namesEffect unknown).after inputs).outs ↔
      ∃ number, (number, names) ∈ ((namesEffect unknown).after inputs).written :=
    List.mem_map.trans ⟨fun ⟨write, member, same⟩ => ⟨write.1, same ▸ member⟩,
      fun ⟨number, member⟩ => ⟨(number, names), member, rfl⟩⟩
  have silent : ∀ outs dep, ((namesEffect unknown).start outs dep).1 = [] := by
    intro outs dep
    unfold namesEffect
    simp only
    split <;> rfl
  have asks : ∀ outs dep ids, ((namesEffect unknown).start outs dep).2 = some ids ↔
      unknown outs dep = ids ∧ ids ≠ [] := by
    intro outs dep ids
    unfold namesEffect
    simp only
    split
    · rename_i nothing
      refine iff_of_false (Option.some_ne_none ids).symm ?_
      rintro ⟨rfl, something⟩
      exact something nothing
    · rename_i something
      refine ⟨fun same => ⟨Option.some.inj same, ?_⟩, fun same => congrArg Option.some same.1⟩
      rw [← Option.some.inj same]
      exact something
  rw [isOut]
  constructor
  · rintro ⟨number, member⟩
    obtain ⟨asked, answer, rest, ids, rfl, isWait, isLast, isOut⟩ :=
      (namesEffect_guarded.mem_written_iff silent inputs number names).mp member
    obtain rfl : answer = some names := by
      cases answer with
      | none => exact absurd isOut List.not_mem_nil
      | some given => exact congrArg some (List.mem_singleton.mp isOut).symm
    obtain ⟨before, dep, quiet, rfl, rfl, starts, isQuiet⟩ :=
      (namesEffect_firstWait ids).beganWith isWait isLast
    refine ⟨before, dep, quiet, rest, by rw [List.append_assoc]; rfl, ?_, isQuiet⟩
    rw [((asks _ dep ids).mp starts).1]
    exact ((asks _ dep ids).mp starts).2
  · rintro ⟨before, dep, quiet, rest, rfl, asked, isQuiet⟩
    obtain ⟨isWait, isLast⟩ := (namesEffect_firstWait _).of_beganWith
      ⟨before, dep, quiet, rfl, rfl, (asks _ dep _).mpr ⟨rfl, asked⟩, isQuiet⟩
    refine ⟨_, (namesEffect_guarded.mem_written_iff silent _ _ names).mpr
      ⟨before ++ .rerun dep :: quiet, some names, rest, _, ?_, isWait, isLast,
        List.mem_singleton_self names⟩⟩
    rw [List.append_assoc]
    rfl

/-- What a map of names holds after some answers. -/
theorem isSome_run_setNames {Entry : Type} (entry : List Char → Entry) (answers : List Names)
    (text : List Char) :
    (run (setNames entry) (fun _ => none) answers text).isSome = true ↔
      ∃ names ∈ answers, ∃ name ∈ names, numberToString name.1 = text := by
  have once : ∀ (names : Names) (prev : List Char → Option Entry),
      (setNames entry prev names text).isSome = true ↔
        (prev text).isSome = true ∨ ∃ name ∈ names, numberToString name.1 = text := by
    intro names
    induction names with
    | nil => exact fun prev => (or_iff_left (by simp)).symm
    | cons name names inductionHypothesis =>
      intro prev
      refine (inductionHypothesis _).trans ?_
      rw [List.exists_mem_cons_iff, ← or_assoc]
      refine or_congr_left ?_
      beta_reduce
      by_cases same : text = numberToString name.1
      · rw [same, Function.update_self]
        exact iff_of_true rfl (Or.inr rfl)
      · rw [Function.update_of_ne same]
        exact (or_iff_left (Ne.symm same)).symm
  induction answers using List.reverseRecOn with
  | nil => exact iff_of_false Bool.false_ne_true (by simp)
  | append_singleton answers names inductionHypothesis =>
    rw [run_concat]
    refine (once names _).trans ((or_congr_left inductionHypothesis).trans ?_)
    simp only [List.mem_append, List.mem_singleton, or_and_right, exists_or, exists_eq_left]

/-- Names by id that came as an answer to a run that asked for something, before the effect ran
again. -/
def LearnedInTime {Dep : Type} (unknown : List Names → Dep → List Nat)
    (inputs : List (EffectInput Dep (Option Names))) (text : List Char) : Prop :=
  ∃ before dep quiet rest names, inputs = before ++ .rerun dep :: (quiet ++
      .answer ((namesEffect unknown).after before).deps.length (some names) :: rest) ∧
    unknown ((namesEffect unknown).after before).outs dep ≠ [] ∧
    (∀ input ∈ quiet, input.Quiet (fun _ => True)
      ((namesEffect unknown).after before).deps.length) ∧
    ∃ name ∈ names, numberToString name.1 = text

theorem isSome_setNames_iff {Entry : Type} (entry : List Char → Entry)
    (inputs : List (EffectInput Dep (Option Names))) (text : List Char) :
    (run (setNames entry) (fun _ => none) ((namesEffect unknown).after inputs).outs text).isSome =
        true ↔
      LearnedInTime unknown inputs text := by
  refine (isSome_run_setNames entry _ text).trans ⟨?_, ?_⟩
  · rintro ⟨names, learned, isNamed⟩
    obtain ⟨before, dep, quiet, rest, parts, asked, isQuiet⟩ :=
      (namesEffect_written_iff inputs names).mp learned
    exact ⟨before, dep, quiet, rest, names, parts, asked, isQuiet, isNamed⟩
  · rintro ⟨before, dep, quiet, rest, names, parts, asked, isQuiet, isNamed⟩
    exact ⟨names, (namesEffect_written_iff inputs names).mpr
      ⟨before, dep, quiet, rest, parts, asked, isQuiet⟩, isNamed⟩

/-- The tooltip of a kernel shows a name of the cache exactly when that was learned in time. -/
theorem kernel_named_iff (inputs : List (EffectInput (List LiveKernel) (Option Names)))
    (k : LiveKernel) :
    (kernelNameCache (kernelNamesEffect.after inputs).outs k.nameId).isSome = true ↔
      LearnedInTime unknownKernels inputs k.nameId :=
  isSome_setNames_iff id inputs k.nameId

/-- A series of the ring is drawn exactly when it has readings, and a name that was learned in time:
from an answer to a heartbeat that asked for something, before the next heartbeat. -/
theorem metric_drawn_iff (toLowerCase : List Char → List Char)
    (inputs : List (EffectInput (List (List Char)) (Option Names))) (k : SeriesKey)
    (samples : List (LiveMetricSample ℚ)) (nowF : ℚ) :
    liveRingToMetrics [(k.browserKey, samples)]
        (metricCatalog toLowerCase ((metricNamesEffect toLowerCase).after inputs).outs) lanesPerGpu
        nowF ≠ [] ↔
      samples ≠ [] ∧ LearnedInTime (unknownMetrics toLowerCase) inputs
        (numberToString (roundSignificant 53 k.metricId.toNat)) := by
  rw [← isSome_setNames_iff (catalogSpec toLowerCase)]
  show _ ↔ samples ≠ [] ∧
    (metricCatalog toLowerCase ((metricNamesEffect toLowerCase).after inputs).outs _).isSome = true
  rw [liveRingToMetrics_eq, List.flatMap_singleton, addLiveSeries_browserKey _ nowF (k, samples)]
  cases isLast : samples.getLast? with
  | none => exact iff_of_false (fun drawn => drawn rfl) fun known =>
      known.1 (List.getLast?_eq_none_iff.mp isLast)
  | some last =>
    have nonempty : samples ≠ [] := fun empty => by
      rw [empty] at isLast
      cases isLast
    rw [and_iff_right nonempty]
    split
    · rename_i isSpec
      rw [isSpec]
      refine iff_of_true ?_ rfl
      unfold pushSeries
      simp
    · rename_i noSpec
      refine iff_of_false (fun drawn => drawn rfl) fun known => ?_
      obtain ⟨spec, isSpec⟩ := Option.isSome_iff_exists.mp known
      exact noSpec last spec rfl isSpec

end PerfWeave
