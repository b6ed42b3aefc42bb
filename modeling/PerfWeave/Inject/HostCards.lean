/-
This file settles what the cards of the host sampler say. A bucket holds the samples that its kernel
has received since the last drain, so a card is made of their means and of nothing else: neither the
samples of other kernels nor those before the drain have a part in it, and the order in which the
hash map gives its buckets is only the order of the cards.
-/

import PerfWeave.Inject.HostSampler
import PerfWeave.Library.Deviation

namespace PerfWeave

variable {Value : Type} [Field Value]

/-! ### Calls -/

/-- A call of the sampler; a drain visits the buckets in the order that the hash map has then. -/
inductive SamplerCall (Value : Type) where
  | sample (key : UInt32 × UInt64) (s : PmSample Value)
  | drainCards (order : List (UInt32 × UInt64))

/-- The sampler after a call. -/
def HostSampler.step [LinearOrder Value] (sampler : HostSampler Value) :
    SamplerCall Value → HostSampler Value
  | .sample key s => sampler.sample (key, s)
  | .drainCards order => (sampler.drainCards order).2

/-- An order in which a drain can visit the buckets: each of them once. -/
structure HostSampler.Iterates (sampler : HostSampler Value) (order : List (UInt32 × UInt64)) :
    Prop where
  nodup : order.Nodup
  mem_iff : ∀ key, key ∈ order ↔ (sampler.buckets key).isSome

/-- The samples of a kernel after a call, as those since the last drain. -/
def sinceDrain (key : UInt32 × UInt64) (samples : List (PmSample Value)) :
    SamplerCall Value → List (PmSample Value)
  | .sample other s => if other = key then samples ++ [s] else samples
  | .drainCards _ => []

/-- The samples attributed to a GPU and kernel since the last drain. -/
def samplesSinceDrain (key : UInt32 × UInt64) (calls : List (SamplerCall Value)) :
    List (PmSample Value) :=
  run (sinceDrain key) [] calls

/-! ### Buckets -/

/-- A bucket is the number of its samples and their sums. -/
theorem Attribution.foldl_add (samples : List (PmSample Value)) :
    samples.foldl add .empty = {
      count := .ofNat samples.length
      sumSmActive := (samples.map PmSample.smActivePct).sum
      sumOcc := (samples.map PmSample.occupancyPct).sum
      sumDram := (samples.map PmSample.dramBwPct).sum
      sumInst := (samples.map PmSample.instTpPct).sum } := by
  induction samples using List.reverseRecOn with
  | nil => rfl
  | append_singleton samples s inductionHypothesis =>
    simp only [List.foldl_append, List.foldl_cons, List.foldl_nil, inductionHypothesis, add,
      List.length_append, List.length_singleton, List.map_append, List.map_cons, List.map_nil,
      List.sum_append, List.sum_singleton, UInt32.ofNat_add]
    rfl

variable [LinearOrder Value]

/-- The bucket of a GPU and kernel: it is there once there is a sample, and it holds the samples
since the last drain. -/
theorem HostSampler.buckets_run (calls : List (SamplerCall Value)) (key : UInt32 × UInt64) :
    (run step (new : HostSampler Value) calls).buckets key =
      if samplesSinceDrain key calls = [] then none
      else some ((samplesSinceDrain key calls).foldl Attribution.add .empty) := by
  unfold samplesSinceDrain
  induction calls using List.reverseRecOn with
  | nil => rfl
  | append_singleton calls call inductionHypothesis =>
    rw [run_concat, run_concat]
    cases call with
    | drainCards order => rfl
    | sample other s =>
      rw [step, sample, sinceDrain]
      dsimp only
      by_cases own : other = key
      · subst own
        have added : ((run step (new : HostSampler Value) calls).buckets other).getD .empty =
            (run (sinceDrain other) [] calls).foldl Attribution.add .empty := by
          rw [inductionHypothesis]
          split
          · rename_i empty
            rw [empty]
            rfl
          · rfl
        rw [Function.update_self, if_pos rfl, if_neg (List.append_ne_nil_of_right_ne_nil _
          (List.cons_ne_nil _ _)), List.foldl_append, added]
        rfl
      · rw [Function.update_of_ne (Ne.symm own), if_neg own, inductionHypothesis]

/-! ### Cards -/

/-- The card of a window: the means of its samples and what they are bound by. -/
def windowCard (correlationId : UInt64) (samples : List (PmSample Value)) : KernelSol Value :=
  let smActive := arithmeticMean (samples.map PmSample.smActivePct)
  let occ := arithmeticMean (samples.map PmSample.occupancyPct)
  let dram := arithmeticMean (samples.map PmSample.dramBwPct)
  let inst := arithmeticMean (samples.map PmSample.instTpPct)
  { correlationId := correlationId
    smActivePct := smActive
    achievedOccupancyPct := occ
    dramBwPct := dram
    l1BwPct := 0
    l2BwPct := 0
    instThroughputPct := inst
    theoreticalOccupancyPct := 0
    arithmeticIntensity := 0
    achievedGflops := 0
    bound := (classifyBound smActive dram inst).asI32
    confidence := 1
    source := 1
    stalls := [] }

theorem windowCard_perm (correlationId : UInt64) {first second : List (PmSample Value)}
    (perm : first.Perm second) :
    windowCard correlationId first = windowCard correlationId second := by
  unfold windowCard
  simp only [arithmeticMean_perm (perm.map _)]

/-- A bucket of five samples or more becomes the card of its window. -/
theorem Attribution.finalize_foldl_add {samples : List (PmSample Value)}
    (few : samples.length < 2 ^ 32) (correlationId : UInt64) :
    (samples.foldl add .empty).finalize correlationId =
      if 5 ≤ samples.length then some (windowCard correlationId samples) else none := by
  have count : (UInt32.ofNat samples.length).toNat = samples.length := by
    rw [UInt32.toNat_ofNat', Nat.mod_eq_of_lt few]
  rw [foldl_add, finalize]
  dsimp only
  have enough : UInt32.ofNat samples.length < minSamplesForCard ↔ ¬ 5 ≤ samples.length := by
    rw [UInt32.lt_iff_toNat_lt, count, not_le]
    rfl
  rw [ite_congr (propext enough) (fun _ => rfl) fun _ => rfl, ite_not]
  simp only [arithmeticMean, windowCard, List.length_map, count]

/-- The kernels that a drain makes a card of, in its order. -/
def cardKeys (calls : List (SamplerCall Value)) (order : List (UInt32 × UInt64)) :
    List (UInt32 × UInt64) :=
  order.filter fun key => 5 ≤ (samplesSinceDrain key calls).length

theorem nodup_cardKeys {calls : List (SamplerCall Value)} {order : List (UInt32 × UInt64)}
    (iterates : (run HostSampler.step .new calls).Iterates order) :
    (cardKeys calls order).Nodup :=
  iterates.nodup.filter _

/-- They are the kernels with five samples or more since the last drain. -/
theorem mem_cardKeys_iff {calls : List (SamplerCall Value)} {order : List (UInt32 × UInt64)}
    (iterates : (run HostSampler.step .new calls).Iterates order) (key : UInt32 × UInt64) :
    key ∈ cardKeys calls order ↔ 5 ≤ (samplesSinceDrain key calls).length := by
  rw [cardKeys, List.mem_filter, decide_eq_true_eq, iterates.mem_iff, HostSampler.buckets_run]
  refine and_iff_right_of_imp fun enough => ?_
  rw [if_neg (List.ne_nil_of_length_pos (by omega))]
  rfl

/-- A drain makes the card of the window of each of them. -/
theorem drainCards_run {calls : List (SamplerCall Value)}
    (few : ∀ key, (samplesSinceDrain key calls).length < 2 ^ 32)
    (order : List (UInt32 × UInt64)) :
    ((run HostSampler.step .new calls).drainCards order).1 =
      (cardKeys calls order).map fun key => windowCard key.2 (samplesSinceDrain key calls) := by
  rw [HostSampler.drainCards, cardKeys, ← List.filterMap_eq_map, List.filterMap_filter]
  refine List.filterMap_congr fun key _ => ?_
  rw [HostSampler.buckets_run]
  split
  · rename_i empty
    rw [empty, Option.bind_none]
    rfl
  · rw [Option.bind_some, Attribution.finalize_foldl_add (few key)]
    simp only [decide_eq_true_eq, Function.comp_apply]

/-- The cards of a drain are those of the kernels with at least five samples since the last drain,
one for each, made of the means of these samples; and a drain with the same samples of each kernel,
in whatever order they have come and the buckets are visited, makes the same cards. -/
theorem drainCards_are_windowMeans (calls : List (SamplerCall Value))
    (order : List (UInt32 × UInt64))
    (few : ∀ key, (samplesSinceDrain key calls).length < 2 ^ 32)
    (iterates : (run HostSampler.step .new calls).Iterates order) :
    (∃ keys : List (UInt32 × UInt64), keys.Nodup ∧
      (∀ key, key ∈ keys ↔ 5 ≤ (samplesSinceDrain key calls).length) ∧
      ((run HostSampler.step .new calls).drainCards order).1 =
        keys.map fun key => windowCard key.2 (samplesSinceDrain key calls)) ∧
    ∀ (others : List (SamplerCall Value)) (otherOrder : List (UInt32 × UInt64)),
      (run HostSampler.step .new others).Iterates otherOrder →
      (∀ key, (samplesSinceDrain key others).Perm (samplesSinceDrain key calls)) →
      ((run HostSampler.step .new others).drainCards otherOrder).1.Perm
        ((run HostSampler.step .new calls).drainCards order).1 := by
  refine ⟨⟨_, nodup_cardKeys iterates, mem_cardKeys_iff iterates, drainCards_run few order⟩, ?_⟩
  intro others otherOrder otherIterates perm
  have otherFew : ∀ key, (samplesSinceDrain key others).length < 2 ^ 32 :=
    fun key => (perm key).length_eq ▸ few key
  have sameKeys : (cardKeys others otherOrder).Perm (cardKeys calls order) := by
    refine (List.perm_ext_iff_of_nodup (nodup_cardKeys otherIterates)
      (nodup_cardKeys iterates)).mpr fun key => ?_
    rw [mem_cardKeys_iff otherIterates, mem_cardKeys_iff iterates, (perm key).length_eq]
  rw [drainCards_run few, drainCards_run otherFew]
  simp only [windowCard_perm _ (perm _)]
  exact sameKeys.map _

/-- Five samples of one kernel, with one of another between them. -/
def fiveSamples : List (SamplerCall ℚ) :=
  .sample (0, 100) ⟨50, 50, 50, 50⟩ ::
    [10, 20, 30, 40, 50].map fun pct => .sample (0, 200) ⟨pct, pct, pct, pct⟩

/-- The drain makes one card, of the five. -/
theorem drainCards_fiveSamples :
    ∃ keys : List (UInt32 × UInt64), keys.Nodup ∧
      (∀ key, key ∈ keys ↔ 5 ≤ (samplesSinceDrain key fiveSamples).length) ∧
      ((run HostSampler.step .new fiveSamples).drainCards [(0, 200), (0, 100)]).1 =
        keys.map fun key => windowCard key.2 (samplesSinceDrain key fiveSamples) := by
  have split : ∀ key, samplesSinceDrain key fiveSamples =
      if (0, 100) = key then [⟨50, 50, 50, 50⟩] else if (0, 200) = key then
        [10, 20, 30, 40, 50].map fun pct => ⟨pct, pct, pct, pct⟩ else [] := by
    intro key
    simp only [samplesSinceDrain, fiveSamples, run, sinceDrain, List.map_cons, List.map_nil,
      List.foldl_cons, List.foldl_nil]
    by_cases first : (0, 100) = key
    · subst first
      simp
    · by_cases second : (0, 200) = key
      · subst second
        simp
      · simp [first, second]
  refine (drainCards_are_windowMeans fiveSamples [(0, 200), (0, 100)] ?_ ⟨by decide, ?_⟩).1
  · intro key
    rw [split]
    split_ifs <;> simp
  · intro key
    rw [HostSampler.buckets_run, split]
    by_cases first : (0, 100) = key
    · subst first
      simp
    · by_cases second : (0, 200) = key
      · subst second
        simp
      · simp [first, second, Ne.symm first, Ne.symm second]

end PerfWeave
