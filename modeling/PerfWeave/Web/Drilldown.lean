/-
This file models the drill-down of a spike, `web/src/panels/SpikeDrilldown.tsx`: which kernels it
has profiled, what it makes of the answers whenever they come, and the cards it shows. The sort of
the cards is the browser's; what the drill-down shows of an answer besides its kernels is left out.
Answers are arbitrary, but for the last result: it is about those that the server's resolver gives.
-/

import PerfWeave.Library.Effects
import PerfWeave.Library.InsertionOrder
import PerfWeave.Server.KernelReplay
import PerfWeave.Server.SpikeResolver
import PerfWeave.Web.KernelGantt

namespace PerfWeave

variable {Value : Type}

/-! ### The requests -/

/-- `KernelInWindow` of the browser. -/
abbrev BrowserKernel (Value : Type) : Type := WindowKernel (Api.KernelSolRow Value)

/-- `needsProfile`: the first eight of the kernels without numbers of high confidence. -/
def needsProfile (kernelsInWindow : List (BrowserKernel Value)) : List (BrowserKernel Value) :=
  (kernelsInWindow.filter fun k => k.sol.all fun sol => sol.confidence ≠ "High").take 8

/-- `byName`: the numbers that came back, under the names of the kernels they were asked for. -/
def solByName (needs : List (BrowserKernel Value)) (results : List (Api.KernelSolRow Value)) :
    List Char → Option (Api.KernelSolRow Value) :=
  (needs.zip results).foldl (fun byName entry =>
    Function.update byName entry.1.nameId (some entry.2)) fun _ => none

/-- `profilingStatus`. -/
inductive ProfilingStatus where
  | idle
  | profiling
  | done
  | failed
  | skipped
  deriving DecidableEq

/-- What the effect of the drill-down depends on: the spike, but for its width. -/
structure DrilldownDep where
  bucketStartNs : Int
  gpuId : Nat
  metricId : Int
  nodeId : Nat

/-- Where a run of the effect waits: for the context of the spike, or for the replay. -/
inductive DrilldownWait (Value : Type) where
  | spikeContext
  | profileKernels (needs : List (BrowserKernel Value))

/-- An answer, or none when the request fails. -/
inductive DrilldownAnswer (Value : Type) where
  | spikeContext (kernelsInWindow : Option (List (BrowserKernel Value)))
  | profileKernels (ack : Option (ProfileKernelsAck Value))

/-- What the effect sets. -/
inductive DrilldownWrite (Value : Type) where
  | setCtx (kernelsInWindow : Option (List (BrowserKernel Value)))
  | setError (error : Bool)
  | setLiveSol (liveSol : List Char → Option (Api.KernelSolRow Value))
  | setProfilingStatus (status : ProfilingStatus)

/-- The effect of `SpikeDrilldown`. -/
def drilldownEffect :
    Effect DrilldownDep (DrilldownWait Value) (DrilldownAnswer Value) (DrilldownWrite Value) where
  start _ _ :=
    ([.setCtx none, .setError false, .setLiveSol fun _ => none, .setProfilingStatus .idle],
      some .spikeContext)
  resume
    | cancelled, .spikeContext, .spikeContext (some kernelsInWindow) =>
      if cancelled then ([], none)
      else
        match needsProfile kernelsInWindow with
        | [] => ([.setCtx (some kernelsInWindow), .setProfilingStatus .skipped], none)
        | needs =>
          ([.setCtx (some kernelsInWindow), .setProfilingStatus .profiling],
            some (.profileKernels needs))
    | cancelled, .spikeContext, .spikeContext none =>
      if cancelled then ([], none) else ([.setError true], none)
    | cancelled, .profileKernels needs, .profileKernels (some ack) =>
      if cancelled then ([], none)
      else
        ([.setLiveSol (solByName needs ack.results),
          .setProfilingStatus (if ack.completed > 0 then .done else .failed)], none)
    | cancelled, .profileKernels _, .profileKernels none =>
      if cancelled then ([], none) else ([.setProfilingStatus .failed], none)
    | _, wait, _ => ([], some wait)

/-- What the drill-down shows. -/
structure Drilldown (Value : Type) where
  ctx : Option (List (BrowserKernel Value))
  error : Bool
  liveSol : List Char → Option (Api.KernelSolRow Value)
  profilingStatus : ProfilingStatus

namespace Drilldown

/-- Nothing yet. -/
def opened : Drilldown Value := ⟨none, false, fun _ => none, .idle⟩

/-- One thing set. -/
def set (shown : Drilldown Value) : DrilldownWrite Value → Drilldown Value
  | .setCtx ctx => { shown with ctx }
  | .setError error => { shown with error }
  | .setLiveSol liveSol => { shown with liveSol }
  | .setProfilingStatus profilingStatus => { shown with profilingStatus }

/-- What is shown after some inputs. -/
def after (inputs : List (EffectInput DrilldownDep (DrilldownAnswer Value))) : Drilldown Value :=
  (drilldownEffect.after inputs).outs.foldl set opened

end Drilldown

/-! ### The cards -/

/-- `unifiedKernels`: the kernels with what the replay measured, else with what was stored. -/
def unifiedKernels (kernelsInWindow : List (BrowserKernel Value))
    (liveSol : List Char → Option (Api.KernelSolRow Value)) : List (BrowserKernel Value) :=
  kernelsInWindow.map fun k => { k with solFinal := (liveSol k.nameId).or k.sol }

/-- A card: what is known of the kernels of a name. -/
structure SolCard (Value : Type) where
  name : String
  nameId : List Char
  totalNs : Int
  launches : Nat
  sol : Option (Api.KernelSolRow Value)

/-- How kernels are put on cards: the first of a name opens its card, and the first with numbers
gives it these. -/
def cardGrouping : Grouping (BrowserKernel Value) (List Char) (SolCard Value) where
  keyOf := WindowKernel.nameId
  empty nameId := ⟨"", nameId, 0, 0, none⟩
  key := SolCard.nameId
  push entry k :=
    { entry with
      name := if entry.launches = 0 then k.name else entry.name
      totalNs := entry.totalNs + (signedBigInt k.durationNs).getD 0
      launches := entry.launches + 1
      sol := entry.sol.or k.solFinal }
  key_empty _ := rfl
  key_push _ _ := rfl

/-- `solCards` before their sort; none where `BigInt` throws. -/
def solCards (unified : List (BrowserKernel Value)) : Option (List (SolCard Value)) :=
  if unified.all fun k => (signedBigInt k.durationNs).isSome then
    some (unified.foldl cardGrouping.insert [])
  else none

/-! ### What is shown -/

theorem drilldownEffect_guarded : (@drilldownEffect Value).Guarded := by
  intro wait answer
  unfold drilldownEffect
  simp only
  split <;> rfl

namespace Drilldown

/-- Where a drill-down is: what it waits for, and what it shows meanwhile. -/
inductive Stage : Option (DrilldownWait Value) → Drilldown Value → Prop where
  | asked : Stage (some .spikeContext) opened
  | notLoaded : Stage none { opened with error := true }
  | skipped (kernelsInWindow : List (BrowserKernel Value))
    (nothing : needsProfile kernelsInWindow = []) :
    Stage none ⟨some kernelsInWindow, false, fun _ => none, .skipped⟩
  | profiling (kernelsInWindow : List (BrowserKernel Value)) :
    Stage (some (.profileKernels (needsProfile kernelsInWindow)))
      ⟨some kernelsInWindow, false, fun _ => none, .profiling⟩
  | replayed (kernelsInWindow : List (BrowserKernel Value)) (ack : ProfileKernelsAck Value) :
    Stage none ⟨some kernelsInWindow, false, solByName (needsProfile kernelsInWindow) ack.results,
      if ack.completed > 0 then .done else .failed⟩
  | notReplayed (kernelsInWindow : List (BrowserKernel Value)) :
    Stage none ⟨some kernelsInWindow, false, fun _ => none, .failed⟩

/-- An answer takes a drill-down from one stage to the next, or is not for it. -/
theorem Stage.resume {wait : DrilldownWait Value} {shown : Drilldown Value}
    (stage : Stage (some wait) shown) (answer : DrilldownAnswer Value) :
    Stage (drilldownEffect.resume false wait answer).2
      ((drilldownEffect.resume false wait answer).1.foldl set shown) := by
  cases stage with
  | asked =>
    cases answer with
    | spikeContext loaded =>
      cases loaded with
      | none => exact .notLoaded
      | some kernelsInWindow =>
        unfold drilldownEffect
        simp only [Bool.false_eq_true, if_false]
        split
        · rename_i nothing
          exact .skipped kernelsInWindow nothing
        · exact .profiling kernelsInWindow
    | profileKernels ack => exact .asked
  | profiling kernelsInWindow =>
    cases answer with
    | spikeContext loaded => exact .profiling kernelsInWindow
    | profileKernels ack =>
      cases ack with
      | none => exact .notReplayed kernelsInWindow
      | some ack => exact .replayed kernelsInWindow ack

/-- The first turn of a run, which is the same for all. -/
def firstTurn : List (DrilldownWrite Value) × Option (DrilldownWait Value) :=
  drilldownEffect.start [] ⟨0, 0, 0, 0⟩

theorem stage_turns (answers : List (DrilldownAnswer Value)) :
    Stage (drilldownEffect.turns firstTurn answers).2
      ((drilldownEffect.turns firstTurn answers).1.foldl set opened) := by
  refine run_invariant (motive := fun turn : List (DrilldownWrite Value) × _ =>
    Stage turn.2 (turn.1.foldl set opened)) .asked ?_ answers fun _ _ => trivial
  intro turn answer _ stage
  cases waits : turn.2 with
  | none =>
    rw [Effect.answered_of_none _ waits]
    exact stage
  | some wait =>
    rw [Effect.answered_of_some _ waits, List.foldl_append]
    rw [waits] at stage
    exact stage.resume answer

/-- A run sets everything before it asks. -/
theorem foldl_set_turns (shown : Drilldown Value) (answers : List (DrilldownAnswer Value)) :
    (drilldownEffect.turns firstTurn answers).1.foldl set shown =
      (drilldownEffect.turns firstTurn answers).1.foldl set opened := by
  obtain ⟨more, written⟩ := Effect.turns_fst drilldownEffect firstTurn answers
  rw [written, List.foldl_append, List.foldl_append]
  rfl

end Drilldown

/-- Whatever was opened before, and whatever answers to that still come, a drill-down shows what it
would show had it been opened for its spike alone, with the answers to its own requests: and that is
one of its stages. -/
theorem drilldown_shows_its_spike
    (before : List (EffectInput DrilldownDep (DrilldownAnswer Value))) (spike : DrilldownDep)
    (rest : List (EffectInput DrilldownDep (DrilldownAnswer Value)))
    (answers : ∀ input ∈ rest, input.IsAnswer) :
    Drilldown.after (before ++ .rerun spike :: rest) =
        Drilldown.after (.rerun spike :: (answersTo
          (drilldownEffect.after before).deps.length rest).map (.answer 0)) ∧
      ∃ waits, Drilldown.Stage waits (Drilldown.after (before ++ .rerun spike :: rest)) := by
  have shows : ∀ (before rest : List (EffectInput DrilldownDep (DrilldownAnswer Value))),
      (∀ input ∈ rest, input.IsAnswer) → Drilldown.after (before ++ .rerun spike :: rest) =
        (drilldownEffect.turns Drilldown.firstTurn (answersTo
          (drilldownEffect.after before).deps.length rest)).1.foldl .set .opened := by
    intro before rest answers
    unfold Drilldown.after
    rw [(drilldownEffect_guarded.after_rerun before spike answers).1, List.foldl_append]
    exact Drilldown.foldl_set_turns _ _
  have alone := shows [] ((answersTo (drilldownEffect.after before).deps.length rest).map
    (.answer 0)) fun input member => by
      obtain ⟨_, _, rfl⟩ := List.mem_map.mp member
      trivial
  refine ⟨?_, ?_⟩
  · rw [shows before rest answers]
    refine Eq.trans ?_ alone.symm
    exact congrArg (fun answers => (drilldownEffect.turns Drilldown.firstTurn answers).1.foldl
      Drilldown.set .opened) (answersTo_map_answer 0 _).symm
  · rw [shows before rest answers]
    exact ⟨_, Drilldown.stage_turns _⟩

/-- Two answers: the context of a first spike, and none for a second one. -/
def lateAnswers : List (EffectInput DrilldownDep (DrilldownAnswer ℚ)) :=
  [.answer 0 (.spikeContext (some [])), .answer 1 (.spikeContext none)]

theorem drilldown_shows_its_spike_late :
    Drilldown.after ([.rerun ⟨1000, 0, 7, 1⟩] ++ .rerun ⟨2000, 0, 7, 1⟩ :: lateAnswers) =
        Drilldown.after (.rerun ⟨2000, 0, 7, 1⟩ :: (answersTo
          ((@drilldownEffect ℚ).after [.rerun ⟨1000, 0, 7, 1⟩]).deps.length lateAnswers).map
            (.answer 0)) ∧
      ∃ waits, Drilldown.Stage waits
        (Drilldown.after ([.rerun ⟨1000, 0, 7, 1⟩] ++ .rerun ⟨2000, 0, 7, 1⟩ :: lateAnswers)) :=
  drilldown_shows_its_spike [.rerun ⟨1000, 0, 7, 1⟩] ⟨2000, 0, 7, 1⟩ lateAnswers
    (List.forall_mem_cons.mpr ⟨trivial, List.forall_mem_singleton.mpr trivial⟩)

/-! ### What is on the cards -/

/-- The numbers that came back last for a kernel of a name. -/
def lastResult (needs : List (BrowserKernel Value)) (results : List (Api.KernelSolRow Value))
    (nameId : List Char) : Option (Api.KernelSolRow Value) :=
  (((needs.zip results).filter fun entry => entry.1.nameId = nameId).getLast?).map Prod.snd

theorem solByName_eq (needs : List (BrowserKernel Value)) (results : List (Api.KernelSolRow Value))
    (nameId : List Char) : solByName needs results nameId = lastResult needs results nameId := by
  unfold solByName lastResult
  induction needs.zip results using List.reverseRecOn with
  | nil => rfl
  | append_singleton entries entry inductionHypothesis =>
    rw [List.foldl_append, List.filter_append, List.filter_singleton]
    show Function.update _ _ _ nameId = _
    by_cases same : entry.1.nameId = nameId
    · rw [same, Function.update_self, decide_eq_true rfl, cond_true, List.getLast?_concat]
      rfl
    · rw [Function.update_of_ne (Ne.symm same), decide_eq_false same, cond_false, List.append_nil]
      exact inductionHypothesis

/-- What kernels make of a card. -/
theorem foldl_push_card (kernels : List (BrowserKernel Value)) (entry : SolCard Value) :
    (kernels.foldl cardGrouping.push entry).launches = entry.launches + kernels.length ∧
      (kernels.foldl cardGrouping.push entry).totalNs =
        entry.totalNs + (kernels.map fun k => (signedBigInt k.durationNs).getD 0).sum ∧
      (kernels.foldl cardGrouping.push entry).sol =
        entry.sol.or (kernels.findSome? WindowKernel.solFinal) := by
  induction kernels generalizing entry with
  | nil => simp
  | cons k kernels inductionHypothesis =>
    obtain ⟨launches, totalNs, sol⟩ := inductionHypothesis (cardGrouping.push entry k)
    rw [List.foldl_cons, launches, totalNs, sol, List.length_cons, List.map_cons, List.sum_cons,
      List.findSome?_cons]
    refine ⟨?_, add_assoc _ _ _, ?_⟩
    · show entry.launches + 1 + kernels.length = _
      omega
    · show (entry.sol.or k.solFinal).or _ = _
      rw [Option.or_assoc]
      cases k.solFinal <;> rfl

theorem filter_unifiedKernels (kernelsInWindow : List (BrowserKernel Value))
    (liveSol : List Char → Option (Api.KernelSolRow Value)) (nameId : List Char) :
    (unifiedKernels kernelsInWindow liveSol).filter (fun k => k.nameId = nameId) =
      unifiedKernels (kernelsInWindow.filter fun k => k.nameId = nameId) liveSol :=
  List.filter_map

/-- The kernels of a name, with what the replay measured. -/
theorem findSome?_unifiedKernels (kernelsInWindow : List (BrowserKernel Value))
    (liveSol : List Char → Option (Api.KernelSolRow Value)) {nameId : List Char}
    (isName : ∃ k ∈ kernelsInWindow, k.nameId = nameId) :
    ((unifiedKernels kernelsInWindow liveSol).filter fun k => k.nameId = nameId).findSome?
        WindowKernel.solFinal =
      (liveSol nameId).or
        ((kernelsInWindow.filter fun k => k.nameId = nameId).findSome? WindowKernel.sol) := by
  have named : (kernelsInWindow.filter fun k => k.nameId = nameId) ≠ [] := by
    obtain ⟨k, member, same⟩ := isName
    exact List.ne_nil_of_mem (List.mem_filter.mpr ⟨member, decide_eq_true same⟩)
  have each : ∀ k ∈ kernelsInWindow.filter fun k => k.nameId = nameId,
      (liveSol k.nameId).or k.sol = (liveSol nameId).or k.sol := fun k member => by
    rw [of_decide_eq_true (List.mem_filter.mp member).2]
  rw [filter_unifiedKernels, unifiedKernels, List.findSome?_map]
  show ((kernelsInWindow.filter fun k => k.nameId = nameId)).findSome?
    (fun k => (liveSol k.nameId).or k.sol) = _
  generalize (kernelsInWindow.filter fun k => k.nameId = nameId) = kernels at named each
  cases live : liveSol nameId with
  | none =>
    rw [live] at each
    clear named
    rw [Option.none_or]
    induction kernels with
    | nil => rfl
    | cons k kernels inductionHypothesis =>
      rw [List.findSome?_cons, List.findSome?_cons, each k List.mem_cons_self, Option.none_or]
      cases k.sol with
      | some sol => rfl
      | none =>
        exact inductionHypothesis fun other member => each other (List.mem_cons_of_mem k member)
  | some sol =>
    obtain ⟨k, rest, rfl⟩ := List.exists_cons_of_ne_nil named
    rw [List.findSome?_cons, each k List.mem_cons_self, live]
    rfl

/-- The cards are the groups of the kernels' names. -/
theorem solCards_eq {unified : List (BrowserKernel Value)} {cards : List (SolCard Value)}
    (isCards : solCards unified = some cards) :
    cards = (cardGrouping.keys unified).map (cardGrouping.groupOf unified) := by
  unfold solCards at isCards
  split at isCards
  · rw [← cardGrouping.foldl_insert]
    exact (Option.some.inj isCards).symm
  · cases isCards

theorem nameIds_of_solCards {unified : List (BrowserKernel Value)} {cards : List (SolCard Value)}
    (isCards : solCards unified = some cards) :
    cards.map SolCard.nameId = cardGrouping.keys unified := by
  rw [solCards_eq isCards, List.map_map]
  exact List.map_id'' (fun nameId => cardGrouping.key_groupOf _ nameId) _

theorem mem_nameIds_iff {kernelsInWindow : List (BrowserKernel Value)}
    {liveSol : List Char → Option (Api.KernelSolRow Value)} {cards : List (SolCard Value)}
    (isCards : solCards (unifiedKernels kernelsInWindow liveSol) = some cards)
    (nameId : List Char) :
    nameId ∈ cards.map SolCard.nameId ↔ ∃ k ∈ kernelsInWindow, k.nameId = nameId := by
  rw [nameIds_of_solCards isCards, cardGrouping.mem_keys, unifiedKernels, List.map_map,
    List.mem_map]
  rfl

/-- What a card says of its kernels. -/
theorem facts_of_card {kernelsInWindow : List (BrowserKernel Value)}
    {liveSol : List Char → Option (Api.KernelSolRow Value)} {cards : List (SolCard Value)}
    (isCards : solCards (unifiedKernels kernelsInWindow liveSol) = some cards)
    {card : SolCard Value} (member : card ∈ cards) :
    let named := kernelsInWindow.filter fun k => k.nameId = card.nameId
    card.launches = named.length ∧
      card.totalNs = (named.map fun k => (signedBigInt k.durationNs).getD 0).sum ∧
      card.sol = (liveSol card.nameId).or (named.findSome? WindowKernel.sol) := by
  have named := (mem_nameIds_iff isCards card.nameId).mp (List.mem_map_of_mem member)
  rw [solCards_eq isCards] at member
  obtain ⟨nameId, -, rfl⟩ := List.mem_map.mp member
  rw [show (cardGrouping.groupOf _ nameId).nameId = nameId from
    cardGrouping.key_groupOf _ nameId] at named ⊢
  obtain ⟨launches, totalNs, sol⟩ := foldl_push_card
    ((unifiedKernels kernelsInWindow liveSol).filter fun k => k.nameId = nameId)
    (cardGrouping.empty nameId)
  refine ⟨launches.trans ?_, totalNs.trans ?_, sol.trans ?_⟩
  · rw [filter_unifiedKernels, unifiedKernels, List.length_map]
    exact Nat.zero_add _
  · rw [filter_unifiedKernels, unifiedKernels, List.map_map]
    exact zero_add _
  · rw [findSome?_unifiedKernels _ _ named]
    exact Option.none_or

/-- The drill-down shows a card for each name of its kernels, with how often it was launched and how
long in all, whatever comes back; and with the numbers that came back last for a kernel of the name,
else with the first that were stored for one. -/
theorem drilldown_cards (kernelsInWindow : List (BrowserKernel Value))
    (results : List (Api.KernelSolRow Value)) (cards : List (SolCard Value))
    (isCards : solCards (unifiedKernels kernelsInWindow
      (solByName (needsProfile kernelsInWindow) results)) = some cards) :
    (cards.map SolCard.nameId).Nodup ∧
      (∀ nameId, nameId ∈ cards.map SolCard.nameId ↔ ∃ k ∈ kernelsInWindow, k.nameId = nameId) ∧
      ∀ card ∈ cards,
        let named := kernelsInWindow.filter fun k => k.nameId = card.nameId
        card.launches = named.length ∧
          card.totalNs = (named.map fun k => (signedBigInt k.durationNs).getD 0).sum ∧
          card.sol = (lastResult (needsProfile kernelsInWindow) results card.nameId).or
            (named.findSome? WindowKernel.sol) := by
  refine ⟨nameIds_of_solCards isCards ▸ cardGrouping.nodup_keys _, mem_nameIds_iff isCards,
    fun card member => ?_⟩
  rw [← solByName_eq]
  exact facts_of_card isCards member

/-- Two launches of a kernel, the second of which has been measured. -/
def twoLaunches : List (BrowserKernel ℚ) :=
  [⟨['7'], ['1'], "gemm", ['9', '0'], ['4', '0'], 0, none, none⟩,
    ⟨['8'], ['1'], "gemm", ['5'], ['3', '0'], 0,
      some (.ofRow (.fromProto 0 1 (replaySol (fun _ => 0) 0 8))), none⟩]

theorem drilldown_cards_twoLaunches :
    let cards : List (SolCard ℚ) :=
      [⟨"gemm", ['1'], 70, 2, some (kernelSolToRow (replaySol (fun _ => 0) 0 7))⟩]
    (cards.map SolCard.nameId).Nodup ∧
      (∀ nameId, nameId ∈ cards.map SolCard.nameId ↔ ∃ k ∈ twoLaunches, k.nameId = nameId) ∧
      ∀ card ∈ cards,
        let named := twoLaunches.filter fun k => k.nameId = card.nameId
        card.launches = named.length ∧
          card.totalNs = (named.map fun k => (signedBigInt k.durationNs).getD 0).sum ∧
          card.sol = (lastResult (needsProfile twoLaunches)
            [kernelSolToRow (replaySol (fun _ => 0) 0 7)] card.nameId).or
              (named.findSome? WindowKernel.sol) :=
  drilldown_cards twoLaunches [kernelSolToRow (replaySol (fun _ => 0) 0 7)] _ rfl

/-! ### What comes back from the replay -/

theorem getElem?_of_lastResult {needs : List (BrowserKernel Value)}
    {results : List (Api.KernelSolRow Value)} {nameId : List Char} {sol : Api.KernelSolRow Value}
    (last : lastResult needs results nameId = some sol) :
    ∃ (i : Nat) (k : BrowserKernel Value), needs[i]? = some k ∧ k.nameId = nameId ∧
      results[i]? = some sol := by
  obtain ⟨entry, isLast, rfl⟩ := Option.map_eq_some_iff.mp last
  obtain ⟨member, same⟩ := List.mem_filter.mp (List.mem_of_getLast? isLast)
  obtain ⟨i, isEntry⟩ := List.mem_iff_getElem?.mp member
  obtain ⟨isKernel, isSol⟩ := List.getElem?_zip_eq_some.mp isEntry
  exact ⟨i, entry.1, isKernel, of_decide_eq_true same, isSol⟩

theorem nameId_ne_of_lastResult {needs : List (BrowserKernel Value)}
    {results : List (Api.KernelSolRow Value)} {nameId : List Char}
    (nothing : lastResult needs results nameId = none) {k : BrowserKernel Value}
    (member : k ∈ needs.take results.length) : k.nameId ≠ nameId := by
  intro same
  obtain ⟨i, isKernel⟩ := List.mem_iff_getElem?.mp member
  have within : i < results.length := by
    by_contra beyond
    rw [List.getElem?_eq_none (by rw [List.length_take]; omega)] at isKernel
    cases isKernel
  rw [List.getElem?_take_of_lt within] at isKernel
  have isEntry : (needs.zip results)[i]? = some (k, results[i]) :=
    List.getElem?_zip_eq_some.mpr ⟨isKernel, List.getElem?_eq_getElem within⟩
  have inFilter : (k, results[i]) ∈ (needs.zip results).filter fun entry =>
      entry.1.nameId = nameId :=
    List.mem_filter.mpr ⟨List.mem_of_getElem? isEntry, decide_eq_true same⟩
  rw [List.getLast?_eq_none_iff.mp (Option.map_eq_none_iff.mp nothing)] at inFilter
  exact List.not_mem_nil inFilter

/-- Wherever the replay broke off, a card shows the report that was made for a launch of its own
name, the one of that launch's correlation id; or no launch of its name got back, and it shows what
was stored. -/
theorem card_shows_replay {hash : String → UInt64}
    {connect : String → ProfileRequest → Except String (List (Except String (KernelSol ℚ)))}
    (connects : Connects hash connect) (registry : AgentRegistry) (nodeId gpuId : UInt32)
    (windowStartNs windowEndNs : UInt64) (correlationIds : List UInt64)
    (timeoutMs : Option UInt32) (ack : ProfileKernelsAck ℚ) (pushed : List (UInt32 × KernelSol ℚ))
    (answered : Mutation.profileKernels registry connect nodeId gpuId windowStartNs windowEndNs
      correlationIds timeoutMs = .ok (ack, pushed))
    (kernelsInWindow : List (BrowserKernel ℚ))
    (asked : (needsProfile kernelsInWindow).map (fun k => bigInt k.correlationId) =
      correlationIds.map fun id => some id.toNat)
    (cards : List (SolCard ℚ))
    (isCards : solCards (unifiedKernels kernelsInWindow
      (solByName (needsProfile kernelsInWindow) ack.results)) = some cards) :
    ∀ card ∈ cards,
      (∃ (i : Nat) (k : BrowserKernel ℚ) (id : UInt64),
        (needsProfile kernelsInWindow)[i]? = some k ∧ k.nameId = card.nameId ∧
        bigInt k.correlationId = some id.toNat ∧
        card.sol = some (kernelSolToRow (replaySol hash i id))) ∨
      (∀ k ∈ (needsProfile kernelsInWindow).take ack.results.length, k.nameId ≠ card.nameId) ∧
        card.sol = (kernelsInWindow.filter fun k => k.nameId = card.nameId).findSome?
          WindowKernel.sol := by
  obtain ⟨sols, isSols, rfl, -⟩ := Mutation.profileKernels_eq connects answered
  intro card member
  have isSol := (facts_of_card isCards member).2.2
  rw [solByName_eq] at isSol
  cases last : lastResult (needsProfile kernelsInWindow) (sols.map kernelSolToRow) card.nameId with
  | none =>
    refine .inr ⟨fun k isNeeded => nameId_ne_of_lastResult last isNeeded, isSol.trans ?_⟩
    rw [last, Option.none_or]
  | some sol =>
    rw [last] at isSol
    obtain ⟨i, k, isKernel, isName, isResult⟩ := getElem?_of_lastResult last
    have idOf : ((needsProfile kernelsInWindow).map (fun k => bigInt k.correlationId))[i]? =
        (correlationIds.map fun id => some id.toNat)[i]? := congrArg (·[i]?) asked
    rw [List.getElem?_map, List.getElem?_map, isKernel] at idOf
    obtain ⟨id, isId, same⟩ := Option.map_eq_some_iff.mp idOf.symm
    have isReport : sols[i]? = some (replaySol hash i id) := by
      have within : i < sols.length := by
        rw [List.getElem?_map] at isResult
        exact (List.getElem?_eq_some_iff.mp (Option.map_eq_some_iff.mp isResult).choose_spec.1).1
      have here : sols[i]? = ((correlationIds.mapIdx (replaySol hash)).take sols.length)[i]? :=
        congrArg (·[i]?) isSols
      rw [here, List.getElem?_take_of_lt within, List.getElem?_mapIdx, isId]
      rfl
    rw [List.getElem?_map, isReport] at isResult
    exact .inl ⟨i, k, id, isKernel, isName, same.symm, isSol.trans isResult.symm⟩

theorem card_shows_replay_twoLaunches :
    let card : SolCard ℚ :=
      ⟨"gemm", ['1'], 70, 2, some (kernelSolToRow (replaySol (fun _ => 0) 1 8))⟩
    (∃ (i : Nat) (k : BrowserKernel ℚ) (id : UInt64),
        (needsProfile twoLaunches)[i]? = some k ∧ k.nameId = card.nameId ∧
        bigInt k.correlationId = some id.toNat ∧
        card.sol = some (kernelSolToRow (replaySol (fun _ => 0) i id))) ∨
      (∀ k ∈ (needsProfile twoLaunches).take 2, k.nameId ≠ card.nameId) ∧
        card.sol = (twoLaunches.filter fun k => k.nameId = card.nameId).findSome?
          WindowKernel.sol :=
  @card_shows_replay (fun _ => 0) connectReplay
    (fun _ _ _ same => ⟨true, .inl (Except.ok.inj same).symm⟩) replayRegistry 1 0
    500000000 1500000000 [7, 8] none _ _ rfl twoLaunches rfl _ rfl _ (List.mem_singleton_self _)

/-! ### What is profiled -/

/-- A kernel of an answer, with its numbers as the texts they come as. -/
def BrowserKernel.ofAnswer (text : UInt64 → List Char) (entry : KernelInWindow Value) :
    BrowserKernel Value where
  correlationId := text entry.correlationId
  nameId := text entry.nameId
  name := entry.name
  tsNs := text entry.tsNs
  durationNs := text entry.durationNs
  gpuId := entry.gpuId.toNat
  sol := entry.sol
  solFinal := none

/-- No confidence is stored under the name that the drill-down looks for. -/
theorem enumText_confidenceMembers_ne (number : Int8) :
    enumText confidenceMembers number ≠ "High" := by
  unfold enumText
  rcases Nat.lt_or_ge number.toNatClampNeg confidenceMembers.length with known | unknown
  · have member : confidenceMembers.getD number.toNatClampNeg "" ∈ confidenceMembers := by
      rw [List.getD_eq_getElem _ _ known]
      exact List.getElem_mem known
    have others : ∀ text ∈ confidenceMembers, text ≠ "High" := by decide
    exact others _ member
  · rw [List.getD_eq_default _ _ unknown]
    decide

/-- Kernels whose confidences are spelled as the server's column spells them. -/
def SpelledByServer (kernels : List (BrowserKernel Value)) : Prop :=
  ∀ k ∈ kernels, ∀ sol, k.sol = some sol →
    ∃ number, sol.confidence = enumText confidenceMembers number

/-- Numbers never count as measured under the server's spelling. -/
theorem SpelledByServer.needsProfile_eq {kernels : List (BrowserKernel Value)}
    (spelled : SpelledByServer kernels) : needsProfile kernels = kernels.take 8 := by
  rw [needsProfile, List.filter_eq_self.mpr]
  intro k member
  rw [Option.all_eq_true]
  intro sol isSol
  obtain ⟨number, same⟩ := spelled k member sol isSol
  rw [same]
  exact decide_eq_true (enumText_confidenceMembers_ne number)

section Resolver

variable [Field Value] [LinearOrder Value]

/-- The kernels that come for spikes are those of contexts the resolver returned, whatever was
stored at the time. -/
def AnsweredByServer (value : EventRow Value → Value) (text : UInt64 → List Char)
    (inputs : List (EffectInput DrilldownDep (DrilldownAnswer Value))) : Prop :=
  ∀ number kernels, .answer number (.spikeContext (some kernels)) ∈ inputs →
    ∃ tables bucketStartNs bucketWidthNs gpuId metricId context,
      spikeContext value tables bucketStartNs bucketWidthNs gpuId metricId = .ok context ∧
        kernels = context.kernelsInWindow.map (.ofAnswer text)

/-- No run waits for a replay, and no kernels have been set. -/
structure NothingToShow (state : EffectState DrilldownDep (DrilldownWait Value)
    (DrilldownWrite Value)) : Prop where
  noReplay : ∀ number needs, state.waits number ≠ some (.profileKernels needs)
  noKernels : ∀ kernels, .setCtx (some kernels) ∉ state.outs

omit [Field Value] [LinearOrder Value] in
theorem NothingToShow.after {state : EffectState DrilldownDep (DrilldownWait Value)
    (DrilldownWrite Value)} (nothing : NothingToShow state) (number : Nat)
    {turn : List (DrilldownWrite Value) × Option (DrilldownWait Value)}
    (noReplay : ∀ needs, turn.2 ≠ some (.profileKernels needs))
    (noKernels : ∀ kernels, .setCtx (some kernels) ∉ turn.1) :
    NothingToShow (state.after number turn) := by
  refine ⟨fun other needs waits => ?_, fun kernels isOut => ?_⟩
  · rcases EffectState.waits_after waits with ⟨_, here⟩ | ⟨_, before⟩
    · exact noReplay needs here
    · exact nothing.noReplay other needs before
  · obtain ⟨write, member, same⟩ := List.mem_map.mp isOut
    rcases EffectState.mem_written_after.mp member with before | ⟨_, here⟩
    · exact nothing.noKernels kernels (List.mem_map.mpr ⟨write, before, same⟩)
    · exact noKernels kernels (same ▸ here)

omit [Field Value] [LinearOrder Value] in
/-- Without kernels that come, a drill-down gets to nothing. -/
theorem NothingToShow.step {state : EffectState DrilldownDep (DrilldownWait Value)
    (DrilldownWrite Value)} (nothing : NothingToShow state)
    {input : EffectInput DrilldownDep (DrilldownAnswer Value)}
    (noAnswer : ∀ number kernels, input ≠ .answer number (.spikeContext (some kernels))) :
    NothingToShow (drilldownEffect.step state input) := by
  cases input with
  | rerun dep =>
    have sooner : NothingToShow { state with deps := state.deps ++ [dep] } :=
      ⟨nothing.noReplay, nothing.noKernels⟩
    exact sooner.after _ (by simp [drilldownEffect]) (by simp [drilldownEffect])
  | answer number answer =>
    cases isWait : state.waits number with
    | none =>
      rw [drilldownEffect.step_answer_of_none isWait]
      exact nothing
    | some wait =>
      rw [drilldownEffect.step_answer_of_some isWait]
      cases wait with
      | profileKernels needs => exact absurd isWait (nothing.noReplay number needs)
      | spikeContext =>
        cases answer with
        | profileKernels ack =>
          exact nothing.after number (by simp [drilldownEffect]) (by simp [drilldownEffect])
        | spikeContext loaded =>
          cases loaded with
          | some kernels => exact absurd rfl (noAnswer number kernels)
          | none =>
            refine nothing.after number ?_ ?_
            · cases state.cancelled number <;> simp [drilldownEffect]
            · cases state.cancelled number <;> simp [drilldownEffect]

omit [Field Value] [LinearOrder Value] in
theorem ctx_foldl_set {writes : List (DrilldownWrite Value)}
    (noKernels : ∀ kernels, .setCtx (some kernels) ∉ writes) {shown : Drilldown Value}
    (none : shown.ctx = none) : (writes.foldl Drilldown.set shown).ctx = Option.none := by
  induction writes generalizing shown with
  | nil => exact none
  | cons write rest inductionHypothesis =>
    refine inductionHypothesis (fun kernels member => noKernels kernels
      (List.mem_cons_of_mem write member)) ?_
    cases write with
    | setCtx ctx =>
      cases ctx with
      | none => rfl
      | some kernels => exact absurd List.mem_cons_self (noKernels kernels)
    | setError error => exact none
    | setLiveSol liveSol => exact none
    | setProfilingStatus status => exact none

/-- What is stored never counts as measured: of every answer in the server's spelling a drill-down
asks for the first eight kernels, however many have numbers of high confidence. But the resolver
fails, so however many spikes are opened, whatever is stored and whatever else is answered, it
never has a kernel to show and never asks for a replay. -/
theorem drilldown_profiles_again (value : EventRow Value → Value) (text : UInt64 → List Char) :
    (∀ kernels : List (BrowserKernel Value), SpelledByServer kernels →
      needsProfile kernels = kernels.take 8) ∧
    ∀ inputs : List (EffectInput DrilldownDep (DrilldownAnswer Value)),
      AnsweredByServer value text inputs →
        (∀ number needs, (drilldownEffect.after inputs).waits number ≠
          some (.profileKernels needs)) ∧ (Drilldown.after inputs).ctx = none := by
  refine ⟨fun kernels spelled => spelled.needsProfile_eq, fun inputs answered => ?_⟩
  have noAnswer : ∀ input ∈ inputs, ∀ number kernels,
      input ≠ .answer number (.spikeContext (some kernels)) := by
    rintro _ member number kernels rfl
    obtain ⟨tables, bucketStartNs, bucketWidthNs, gpuId, metricId, context, returned, -⟩ :=
      answered number kernels member
    rw [spikeContext_eq_error] at returned
    cases returned
  have nothing : NothingToShow ((@drilldownEffect Value).after inputs) :=
    run_invariant ⟨fun _ _ waits => absurd waits.symm (Option.some_ne_none _),
      fun _ => List.not_mem_nil⟩ (fun _ _ noAnswer nothing => nothing.step noAnswer) inputs noAnswer
  exact ⟨nothing.noReplay, ctx_foldl_set nothing.noKernels rfl⟩

end Resolver

/-- The measured launch is asked for as well, and an answer that fails leaves nothing to show. -/
theorem drilldown_profiles_again_twoLaunches :
    needsProfile twoLaunches = twoLaunches ∧
      (Drilldown.after [.rerun ⟨1000, 0, 7, 1⟩,
        .answer 0 (.spikeContext (none : Option (List (BrowserKernel ℚ))))]).ctx = none := by
  obtain ⟨asks, shows⟩ := @drilldown_profiles_again ℚ _ _ (fun _ => 0) fun _ => []
  refine ⟨asks twoLaunches ?_, (shows _ ?_).2⟩
  · intro k member sol isSol
    rcases List.mem_pair.mp member with rfl | rfl
    · cases isSol
    · obtain rfl := Option.some.inj isSol
      exact ⟨(KernelSolRow.fromProto 0 1 (replaySol (fun _ => 0) 0 8)).confidence, rfl⟩
  · intro number kernels member
    simp at member

end PerfWeave
