/-
This file follows a reading that is not a number through the detector, with numbers otherwise
exact. Once such a reading is learned, the sum of squared deviations of its series is not a number
and stays so; the standard deviation is then no number either, no comparison of it with zero holds,
and the score is zero for ever. As long as none is learned the statistics are those of numbers.
-/

import PerfWeave.Library.WithNaN
import PerfWeave.Server.LearnedSamples

namespace PerfWeave

open PartialArithmetic WithNaN

/-! ### Statistics of numbers -/

/-- Statistics of numbers, beside `nan`. -/
def Welford.num (v : Welford ℝ) : Welford (WithNaN ℝ) := ⟨v.n, .num v.mean, .num v.m2⟩

theorem Welford.update_num (v : Welford ℝ) (x : ℝ) :
    v.num.update (.num x) = (v.update x).map Welford.num := by
  have nonzero : ((v.n + 1 : Nat) : ℝ) ≠ 0 := Nat.cast_ne_zero.mpr (Nat.succ_ne_zero v.n)
  rw [update_real]
  unfold update num
  simp only [num_sub, natCast_eq, quotient_num, quotient_of_ne_zero _ nonzero, Option.map_some,
    Option.bind_eq_bind, Option.bind_some, num_add, num_mul]
  rfl

theorem Welford.sigma_num (v : Welford ℝ) : v.num.sigma = v.sigma.map WithNaN.num := by
  unfold sigma num
  dsimp only
  split
  · rfl
  · rw [natCast_eq, quotient_num]
    cases quotient v.m2 ((v.n - 1 : Nat) : ℝ) with
    | none => rfl
    | some variance => rfl

theorem Welford.zScore_num (v : Welford ℝ) (x : ℝ) :
    v.num.zScore (.num x) = (v.zScore x).map WithNaN.num := by
  unfold zScore
  rw [sigma_num]
  cases v.sigma with
  | none => rfl
  | some sigma =>
    rw [Option.map_some, Option.bind_eq_bind, Option.bind_some, Option.bind_eq_bind,
      Option.bind_some, zero_eq]
    by_cases positive : 0 < sigma
    · rw [if_pos positive, if_pos ((num_lt_num 0 sigma).mpr positive)]
      rfl
    · rw [if_neg positive, if_neg (mt (num_lt_num 0 sigma).mp positive)]
      rfl

/-! ### Poisoned statistics -/

/-- A reading that is not a number poisons the squared deviations, and they stay so. -/
theorem Welford.update_of_nan {w : Welford (WithNaN ℝ)} {x : WithNaN ℝ}
    (poison : w.m2 = nan ∨ x = nan) : ∃ next, w.update x = some next ∧ next.m2 = nan := by
  have nonzero : ((w.n + 1 : Nat) : ℝ) ≠ 0 := Nat.cast_ne_zero.mpr (Nat.succ_ne_zero w.n)
  obtain ⟨q, isQuotient⟩ := exists_quotient (x - w.mean) nonzero
  refine ⟨⟨w.n + 1, w.mean + q, w.m2 + (x - w.mean) * (x - (w.mean + q))⟩, ?_, ?_⟩
  · rw [update, natCast_eq, isQuotient]
    rfl
  · rw [add_eq_nan_iff, mul_eq_nan_iff, sub_eq_nan_iff]
    exact poison.imp_right fun isNan => .inl (.inl isNan)

/-- The score of poisoned statistics is zero. -/
theorem Welford.zScore_of_nan {w : Welford (WithNaN ℝ)} (poisoned : w.m2 = nan) (x : WithNaN ℝ) :
    w.zScore x = some 0 := by
  have sigma : w.sigma = some 0 ∨ w.sigma = some nan := by
    unfold sigma
    split
    · exact .inl rfl
    · rw [poisoned, quotient_nan_left, Option.bind_some, squareRoot_nan]
      exact .inr rfl
  have notBelow : ¬ (0 : WithNaN ℝ) < 0 := lt_irrefl (0 : ℝ)
  unfold zScore
  rcases sigma with zero | isNan
  · rw [zero, Option.bind_eq_bind, Option.bind_some, if_neg notBelow]
    rfl
  · rw [isNan, Option.bind_eq_bind, Option.bind_some, if_neg (not_lt_nan 0)]
    rfl

/-- On poisoned statistics no reading fires. -/
theorem spikeAt_of_nan {w : Welford (WithNaN ℝ)} (poisoned : w.m2 = nan) (k : SeriesKey)
    (x : WithNaN ℝ) (snap : SeriesSnapshot (WithNaN ℝ)) (prev : Option UInt64) :
    spikeAt k x snap w prev = some none := by
  have near : (0 : WithNaN ℝ) ≤ welfordZThreshold :=
    show (0 : ℝ) ≤ 3.0 by norm_num
  unfold spikeAt
  rw [w.zScore_of_nan poisoned, Option.bind_eq_bind, Option.bind_some, if_pos (.inl near)]
  rfl

/-! ### The statistics of a run -/

/-- The statistics a run leads to: those of numbers, or poisoned ones. -/
inductive Welford.Reachable : Welford (WithNaN ℝ) → Prop
  | numbers (v : Welford ℝ) (nonneg : 0 ≤ v.m2) : Reachable v.num
  | poisoned {w : Welford (WithNaN ℝ)} (isNan : w.m2 = nan) : Reachable w

theorem Welford.reachable_default : (Welford.default : Welford (WithNaN ℝ)).Reachable :=
  .numbers .default (le_refl (0 : ℝ))

theorem Welford.Reachable.of_ne_nan {w : Welford (WithNaN ℝ)} (reachable : w.Reachable)
    (healthy : w.m2 ≠ nan) : ∃ v : Welford ℝ, 0 ≤ v.m2 ∧ w = v.num := by
  cases reachable with
  | numbers v nonneg => exact ⟨v, nonneg, rfl⟩
  | poisoned isNan => exact absurd isNan healthy

/-- Learning a reading has a result, which is poisoned exactly when something was. -/
theorem Welford.Reachable.update {w : Welford (WithNaN ℝ)} (reachable : w.Reachable)
    (x : WithNaN ℝ) :
    ∃ next, w.update x = some next ∧ next.Reachable ∧ (next.m2 = nan ↔ w.m2 = nan ∨ x = nan) := by
  by_cases poison : w.m2 = nan ∨ x = nan
  · obtain ⟨next, updates, isNan⟩ := update_of_nan poison
    exact ⟨next, updates, .poisoned isNan, iff_of_true isNan poison⟩
  · obtain ⟨healthy, isNumber⟩ := not_or.mp poison
    obtain ⟨v, nonneg, rfl⟩ := reachable.of_ne_nan healthy
    cases x with
    | nan => exact absurd rfl isNumber
    | num x =>
      obtain ⟨learned, updates, learnedNonneg⟩ := exists_update nonneg x
      refine ⟨learned.num, ?_, .numbers learned learnedNonneg, iff_of_false nofun poison⟩
      rw [update_num, updates, Option.map_some]

theorem Welford.Reachable.exists_zScore {w : Welford (WithNaN ℝ)} (reachable : w.Reachable)
    (x : WithNaN ℝ) : ∃ z, w.zScore x = some z := by
  cases reachable with
  | poisoned isNan => exact ⟨0, w.zScore_of_nan isNan x⟩
  | numbers v nonneg =>
    obtain ⟨sigma, isSigma⟩ := exists_sigma nonneg
    unfold zScore
    rw [sigma_num, isSigma, Option.map_some, Option.bind_eq_bind, Option.bind_some]
    split
    · rename_i positive
      exact exists_quotient _ (ne_of_gt ((num_lt_num 0 sigma).mp positive))
    · exact ⟨0, rfl⟩

/-- A visit of a series with such statistics has a result and leaves such statistics. -/
theorem SeriesEntry.exists_visit_of_reachable {entry : SeriesEntry (WithNaN ℝ)}
    (reachable : ∀ w ∈ entry.welford, w.Reachable)
    (reading : Option (Sample (WithNaN ℝ) × SeriesSnapshot (WithNaN ℝ))) (k : SeriesKey) :
    ∃ next emitted, entry.visit reading k = some (next, emitted) ∧
      ∀ w ∈ next.welford, w.Reachable := by
  cases reading with
  | none => exact ⟨entry, [], rfl, reachable⟩
  | some reading =>
    have before : (entry.welford.getD .default).Reachable := by
      cases learned : entry.welford with
      | none => exact Welford.reachable_default
      | some w => exact reachable w learned
    obtain ⟨w, updates, after, _⟩ := before.update reading.1.value
    obtain ⟨fired, fires⟩ := exists_spikeAt_of_zScore (after.exists_zScore reading.1.value)
      (fun _ _ => exists_quotient_of_not_le _) k reading.2 entry.lastFiredTs
    refine ⟨_, _, judge_eq_some_iff.mpr ⟨w, fired, updates, fires, rfl, rfl⟩, ?_⟩
    exact fun _ isW => Option.some.inj isW ▸ after

/-- No run fails, whatever readings are not numbers. -/
theorem SpikeWatch.run_reachable (inputs : List (SpikeInput (WithNaN ℝ))) :
    ∃ state, runPartial SpikeWatch.step .start inputs = some state ∧
      ∀ key, ∀ w ∈ state.detector.welford key, w.Reachable := by
  refine runPartial_induction (motive := fun _ (state : SpikeWatch (WithNaN ℝ)) =>
    ∀ key, ∀ w ∈ state.detector.welford key, w.Reachable)
    (fun _ _ absent => absurd absent (Option.not_mem_none _)) ?_ inputs
  intro inputs input state _ reachable
  cases input with
  | push key s => exact ⟨_, rfl, reachable⟩
  | publish now => exact ⟨_, rfl, reachable⟩
  | tick order =>
    obtain ⟨after, emitted, ticked, _, reachableAfter⟩ :=
      SpikeDetector.exists_tickOnce_of_tracks
        (fun _ _ (entry : SeriesEntry (WithNaN ℝ)) => ∀ w ∈ entry.welford, w.Reachable)
        (fun k _ entry tracked =>
          entry.exists_visit_of_reachable tracked (state.ring.snapshot.latest k) k)
        order state.spikes reachable
    refine ⟨{ state with
      detector := after
      rows := state.rows ++ emitted.map SpikeEvent.row
      spikes := state.spikes ++ emitted }, ?_, reachableAfter⟩
    rw [step, ticked]
    rfl

/-- The statistics of learned samples are poisoned exactly when one of the samples is. -/
theorem Welford.ofSamples_reachable (samples : List (Sample (WithNaN ℝ))) :
    ∃ w, ofSamples samples = some w ∧ w.Reachable ∧
      (w.m2 = nan ↔ ∃ s ∈ samples, s.value = nan) := by
  induction samples using List.reverseRecOn with
  | nil => exact ⟨.default, rfl, reachable_default, iff_of_false nofun (by simp)⟩
  | append_singleton samples s inductionHypothesis =>
    obtain ⟨w, learned, reachable, poisoned⟩ := inductionHypothesis
    obtain ⟨next, updates, reachableNext, poisonedNext⟩ := reachable.update s.value
    refine ⟨next, ?_, reachableNext, ?_⟩
    · rw [ofSamples_concat, learned, Option.bind_some, updates]
    · rw [poisonedNext, poisoned]
      simp only [List.mem_append, List.mem_singleton, or_and_right, exists_or, exists_eq_left]

/-- A series with poisoned statistics reports no spike any more. -/
theorem SeriesWatch.spikes_of_nan {key : SeriesKey} {state final : SeriesWatch (WithNaN ℝ)}
    {inputs : List (SeriesInput (WithNaN ℝ))}
    (poisoned : (state.entry.welford.getD .default).m2 = nan)
    (reached : runPartial (SeriesWatch.step key) state inputs = some final) :
    final.spikes = state.spikes := by
  refine (runPartial_history (motive := fun _ (final : SeriesWatch (WithNaN ℝ)) =>
    (final.entry.welford.getD .default).m2 = nan ∧ final.spikes = state.spikes)
    ⟨poisoned, rfl⟩ ?_ reached).2
  intro _ input before next _ steps kept
  cases input with
  | push s =>
    obtain rfl := Option.some.inj steps
    exact kept
  | publish =>
    obtain rfl := Option.some.inj steps
    exact kept
  | tick =>
    rcases SeriesWatch.step_tick_cases steps with
      ⟨_, rfl⟩ | ⟨snap, s, w, fired, _, _, updates, fires, rfl⟩
    · exact kept
    · obtain ⟨next, learned, isNan⟩ := Welford.update_of_nan (.inl kept.1)
      obtain rfl := Option.some.inj (updates.symm.trans learned)
      rw [spikeAt_of_nan isNan, Option.some.injEq] at fires
      subst fires
      dsimp only
      rw [Option.toList_none, List.append_nil]
      exact ⟨isNan, kept.2⟩

end PerfWeave
