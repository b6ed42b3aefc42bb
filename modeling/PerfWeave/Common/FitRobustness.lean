/-
This file proves what the Theil-Sen fit does not depend on. Its two medians are taken over
collections that a reordering of the readings only permutes, so the fit is that of the set of
readings. And readings off the line have no say in it as long as the slopes between those on the
line are more than half of all slopes: then the line's slope is the median slope, and since the
readings on the line are then the majority as well, its intercept is the median intercept.
-/

import PerfWeave.Common.ClockFit

namespace PerfWeave

/-! ### The fitted line -/

/-- The slope and the intercept of the fit, before they are published. -/
def fittedLine (pairs : List Pair) : Option (ℚ × ℚ) :=
  (upperMedian (pairwiseSlopes pairs)).bind fun slope =>
    (upperMedian (interceptsAt slope pairs)).map (Prod.mk slope)

theorem pairwiseSlopes_of_length_lt {pairs : List Pair} (few : pairs.length < 2) :
    pairwiseSlopes pairs = [] := by
  rw [← roundedSlopes_id]
  exact roundedSlopes_of_length_lt few

/-- The fit publishes the fitted line: its two early returns are lists without slopes. -/
theorem fitTheilSen_eq (now : UInt64) (pairs : List Pair) :
    fitTheilSen now pairs = (fittedLine pairs).map fun line =>
      .ofLine now line.1 line.2 (residualMax line.2 line.1 pairs) := by
  have noSlopes : pairwiseSlopes pairs = [] → fittedLine pairs = none := by
    intro none
    rw [fittedLine, none]
    rfl
  unfold fitTheilSen
  split
  · rename_i few
    rw [noSlopes (pairwiseSlopes_of_length_lt few), Option.map_none]
  · simp only
    split
    · rename_i none
      rw [noSlopes (List.isEmpty_iff.mp none), Option.map_none]
    · unfold fittedLine
      rw [Option.map_bind]
      refine Option.bind_congr fun slope _ => ?_
      rw [Function.comp_apply, Option.map_map]
      exact (Option.map_eq_bind).symm

/-! ### The order of the readings -/

theorem Pair.slopeTo_comm (first second : Pair) : first.slopeTo second = second.slopeTo first := by
  unfold slopeTo
  have negated : ((first.srcNs.toNat - second.srcNs.toNat : Int) = 0) ↔
      (second.srcNs.toNat - first.srcNs.toNat : Int) = 0 := by omega
  simp only [negated]
  split
  · rfl
  · rw [← neg_sub (second.hostNs.toNat : Int), ← neg_sub (second.srcNs.toNat : Int), Int.cast_neg,
      Int.cast_neg, neg_div_neg_eq]

/-- The slopes of two readings in front of others do not depend on which one comes first. -/
theorem pairwiseSlopes_swap (first second : Pair) (rest : List Pair) :
    (pairwiseSlopes (first :: second :: rest)).Perm
      (pairwiseSlopes (second :: first :: rest)) := by
  unfold pairwiseSlopes
  rw [List.filterMap_cons, List.filterMap_cons, first.slopeTo_comm second]
  unfold pairwiseSlopes
  cases second.slopeTo first with
  | none =>
    simp only [← List.append_assoc]
    exact List.perm_append_comm.append_right _
  | some slope =>
    simp only [List.cons_append, ← List.append_assoc]
    exact (List.perm_append_comm.append_right _).cons slope

theorem pairwiseSlopes_perm {first second : List Pair} (perm : first.Perm second) :
    (pairwiseSlopes first).Perm (pairwiseSlopes second) := by
  induction perm with
  | nil => exact .refl _
  | cons pair perm inductionHypothesis =>
    exact (perm.filterMap pair.slopeTo).append inductionHypothesis
  | swap second first rest => exact pairwiseSlopes_swap first second rest
  | trans _ _ first second => exact first.trans second

theorem residualMax_perm (offset slope : ℚ) {first second : List Pair}
    (perm : first.Perm second) :
    residualMax offset slope first = residualMax offset slope second := by
  unfold residualMax
  refine perm.foldl_eq' (fun one _ other _ largest => ?_) 0
  simp only [gt_iff_lt]
  split_ifs <;> linarith

/-- The fit does not depend on the order of the readings: two calls on the same readings, at
whatever times, both find none or publish the same line with the same residual. -/
theorem fitTheilSen_perm (now later : UInt64) {first second : List Pair}
    (perm : first.Perm second) :
    (fitTheilSen now first = none ∧ fitTheilSen later second = none) ∨
      ∃ fit other, fitTheilSen now first = some fit ∧ fitTheilSen later second = some other ∧
        fit.offsetNs = other.offsetNs ∧ fit.slopeNum = other.slopeNum ∧
        fit.slopeDen = other.slopeDen ∧ fit.residualMaxNs = other.residualMaxNs := by
  have sameLine : fittedLine first = fittedLine second := by
    unfold fittedLine
    rw [upperMedian_perm (pairwiseSlopes_perm perm)]
    exact Option.bind_congr fun slope _ =>
      congrArg (Option.map (Prod.mk slope)) (upperMedian_perm (perm.map _))
  rw [fitTheilSen_eq, fitTheilSen_eq, sameLine]
  cases fittedLine second with
  | none => exact .inl ⟨rfl, rfl⟩
  | some line =>
    have sameResidual := residualMax_perm line.2 line.1 perm
    exact .inr ⟨_, _, rfl, rfl, rfl, rfl, rfl,
      congrArg (fun largest => saturateU64 ⌈largest⌉) sameResidual⟩

/-- Two readings, in both orders. -/
theorem fitTheilSen_perm_swap :
    (fitTheilSen 7 [⟨0, 500⟩, ⟨1000000, 1000500⟩] = none ∧
        fitTheilSen 8 [⟨1000000, 1000500⟩, ⟨0, 500⟩] = none) ∨
      ∃ fit other, fitTheilSen 7 [⟨0, 500⟩, ⟨1000000, 1000500⟩] = some fit ∧
        fitTheilSen 8 [⟨1000000, 1000500⟩, ⟨0, 500⟩] = some other ∧
        fit.offsetNs = other.offsetNs ∧ fit.slopeNum = other.slopeNum ∧
        fit.slopeDen = other.slopeDen ∧ fit.residualMaxNs = other.residualMaxNs :=
  fitTheilSen_perm 7 8 (List.Perm.swap _ _ _)

/-! ### Readings off the line -/

/-- Two readings on a line that differ in source time have its slope between them. -/
theorem Pair.slopeTo_of_onLine {slope offset : ℚ} {first second : Pair}
    (differ : first.srcNs ≠ second.srcNs) (firstOn : first.host = slope * first.src + offset)
    (secondOn : second.host = slope * second.src + offset) :
    first.slopeTo second = some slope := by
  have moved : (second.srcNs.toNat - first.srcNs.toNat : Int) ≠ 0 := by
    intro same
    exact differ (UInt64.toNat_inj.mp (by omega))
  have apart : (second.src - first.src : ℚ) ≠ 0 := by
    unfold src
    exact_mod_cast moved
  have dSrc : ((second.srcNs.toNat - first.srcNs.toNat : Int) : ℚ) = second.src - first.src := by
    unfold src
    push_cast
    rfl
  have dHost : ((second.hostNs.toNat - first.hostNs.toNat : Int) : ℚ) =
      slope * (second.src - first.src) := by
    have hosts : ((second.hostNs.toNat - first.hostNs.toNat : Int) : ℚ) =
        second.host - first.host := by
      unfold host
      push_cast
      rfl
    rw [hosts, firstOn, secondOn]
    ring
  unfold slopeTo
  simp only [if_neg moved]
  rw [dSrc, dHost, mul_div_assoc, div_self apart, mul_one]

theorem Pair.isSome_slopeTo {first second : Pair} (differ : first.srcNs ≠ second.srcNs) :
    (first.slopeTo second).isSome :=
  @Pair.isSome_roundedSlopeTo id first second differ

theorem choose_two_succ (count : Nat) : (count + 1).choose 2 = count + count.choose 2 := by
  rw [Nat.choose_succ_succ, Nat.choose_one_right]

/-- Readings at distinct source times have one slope for each two of them. -/
theorem length_pairwiseSlopes {pairs : List Pair} (distinct : (pairs.map Pair.srcNs).Nodup) :
    (pairwiseSlopes pairs).length = pairs.length.choose 2 := by
  induction pairs with
  | nil => rfl
  | cons first rest inductionHypothesis =>
    obtain ⟨fresh, distinctRest⟩ := List.nodup_cons.mp distinct
    have all : (rest.filterMap first.slopeTo).length = rest.length := by
      rw [List.length_filterMap_eq_countP, List.countP_eq_length]
      refine fun second member => Pair.isSome_slopeTo fun same => fresh ?_
      exact same ▸ List.mem_map_of_mem member
    rw [pairwiseSlopes, List.length_append, all, inductionHypothesis distinctRest,
      List.length_cons, choose_two_succ]

/-- Among the slopes are the line's own, one for each two readings on the line. -/
theorem choose_le_countP_pairwiseSlopes {pairs : List Pair} {slope offset : ℚ}
    {corrupted : Pair → Bool} (distinct : (pairs.map Pair.srcNs).Nodup)
    (onLine : ∀ pair ∈ pairs, corrupted pair = false → pair.host = slope * pair.src + offset) :
    (pairs.countP fun pair => !corrupted pair).choose 2 ≤
      (pairwiseSlopes pairs).countP (· = slope) := by
  induction pairs with
  | nil => exact Nat.zero_le _
  | cons first rest inductionHypothesis =>
    obtain ⟨fresh, distinctRest⟩ := List.nodup_cons.mp distinct
    have later := inductionHypothesis distinctRest fun pair member =>
      onLine pair (List.mem_cons_of_mem first member)
    rw [pairwiseSlopes, List.countP_append, List.countP_cons]
    cases off : corrupted first with
    | true =>
      simp only [Bool.not_true, Bool.false_eq_true, if_false, Nat.add_zero]
      exact later.trans (Nat.le_add_left _ _)
    | false =>
      have here : rest.countP (fun pair => !corrupted pair) ≤
          (rest.filterMap first.slopeTo).countP (· = slope) := by
        rw [List.countP_filterMap]
        refine List.countP_mono_left fun second member clean => ?_
        have differ : first.srcNs ≠ second.srcNs := fun same =>
          fresh (same ▸ List.mem_map_of_mem member)
        rw [Pair.slopeTo_of_onLine differ (onLine first List.mem_cons_self off)
          (onLine second (List.mem_cons_of_mem first member) (by simpa using clean))]
        simp
      simp only [Bool.not_false, if_true, choose_two_succ]
      omega

/-- When the slopes among some of the readings are the majority, so are these readings. -/
theorem half_lt_of_choose {count some : Nat}
    (majority : count * (count - 1) / 4 < some * (some - 1) / 2) : count / 2 < some := by
  by_contra few
  have products : 2 * (some * (some - 1)) ≤ count * (count - 1) := by
    rw [← Nat.mul_assoc]
    exact Nat.mul_le_mul (by omega) (by omega)
  omega

/-- When more than half of the slopes are those between the readings on a line, the fitted line is
that line. -/
theorem fittedLine_of_outliers {pairs : List Pair} {corrupted : Pair → Bool} {slope offset : ℚ}
    (distinct : (pairs.map Pair.srcNs).Nodup)
    (onLine : ∀ pair ∈ pairs, corrupted pair = false → pair.host = slope * pair.src + offset)
    (few : pairs.length * (pairs.length - 1) / 4 <
      (pairs.length - pairs.countP corrupted) *
        (pairs.length - pairs.countP corrupted - 1) / 2) :
    fittedLine pairs = some (slope, offset) ∧ slope ∈ pairwiseSlopes pairs := by
  have clean : pairs.length - pairs.countP corrupted =
      pairs.countP fun pair => !corrupted pair := by
    have total := pairs.length_eq_countP_add_countP corrupted
    simp only [Bool.not_eq_true, Bool.decide_eq_false] at total
    omega
  rw [clean] at few
  have isSlope : IsUpperMedian (pairwiseSlopes pairs) slope := by
    have own := choose_le_countP_pairwiseSlopes distinct onLine
    rw [Nat.choose_two_right] at own
    refine isUpperMedian_of_majority ?_
    rw [length_pairwiseSlopes distinct, Nat.choose_two_right, Nat.div_div_eq_div_mul]
    exact few.trans_le own
  have isOffset : IsUpperMedian (interceptsAt slope pairs) offset := by
    refine isUpperMedian_of_majority ?_
    unfold interceptsAt
    rw [List.length_map, List.countP_map]
    refine (half_lt_of_choose few).trans_le (List.countP_mono_left fun pair member isClean => ?_)
    rw [Function.comp_apply, onLine pair member (by simpa using isClean), add_sub_cancel_left]
    exact decide_eq_true rfl
  refine ⟨?_, isSlope.mem⟩
  rw [fittedLine, (upperMedian_eq_some_iff _ _).mpr isSlope, Option.bind_some,
    (upperMedian_eq_some_iff _ _).mpr isOffset, Option.map_some]

/-- Readings off the line have no influence on the fit as long as the slopes between the others
are more than half of all slopes: it publishes the line's slope, rounded to its denominator, and
the line's offset, rounded and cut to 128 bits. -/
theorem fitTheilSen_of_outliers (now : UInt64) (pairs : List Pair) (corrupted : Pair → Bool)
    (slope offset : ℚ) (distinct : (pairs.map Pair.srcNs).Nodup)
    (onLine : ∀ pair ∈ pairs, corrupted pair = false → pair.host = slope * pair.src + offset)
    (few : pairs.length * (pairs.length - 1) / 4 <
      (pairs.length - pairs.countP corrupted) *
        (pairs.length - pairs.countP corrupted - 1) / 2) :
    ∃ fit, fitTheilSen now pairs = some fit ∧ fit.slopeDen = 2 ^ 30 ∧
      fit.slopeNum = roundAway (slope * 2 ^ 30) ∧
      fit.offsetNs = saturateI128 (roundAway offset) := by
  obtain ⟨line, isSlope⟩ := fittedLine_of_outliers distinct onLine few
  rw [fitTheilSen_eq, line]
  refine ⟨_, rfl, rfl, ?_, rfl⟩
  have small := abs_slopeNum_lt (abs_slope_lt isSlope)
  have denominator : (slopeDenominator : ℚ) = 2 ^ 30 := by norm_num [slopeDenominator]
  show saturateI128 (roundAway (slope * slopeDenominator)) = _
  rw [← denominator]
  exact saturateI128_of_abs_lt (small.trans (by norm_num))

/-- Four readings of a clock that runs at the host's rate, and a wild one. -/
def wildReading : List Pair :=
  [⟨0, 500⟩, ⟨1000, 1500⟩, ⟨2000, 5000000000⟩, ⟨3000, 3500⟩, ⟨4000, 4500⟩]

theorem fitTheilSen_wildReading :
    ∃ fit, fitTheilSen 0 wildReading = some fit ∧ fit.slopeDen = 2 ^ 30 ∧
      fit.slopeNum = roundAway (1 * 2 ^ 30) ∧ fit.offsetNs = saturateI128 (roundAway 500) :=
  fitTheilSen_of_outliers 0 wildReading (fun pair => pair.hostNs = 5000000000) 1 500 (by decide)
    (by decide +kernel) (by decide)

/-- Two readings a nanosecond apart between which the host clock runs through its whole range: the
intercept of their line has no 128-bit form. -/
def steepPairs : List Pair :=
  [⟨18446744073709551614, 0⟩, ⟨18446744073709551615, 18446744073709551615⟩]

theorem exists_offset_cut :
    ¬ ∀ (now : UInt64) (pairs : List Pair) (corrupted : Pair → Bool) (slope offset : ℚ),
      2 ≤ pairs.length → (pairs.map Pair.srcNs).Nodup →
      (∀ pair ∈ pairs, corrupted pair = false → pair.host = slope * pair.src + offset) →
      pairs.length * (pairs.length - 1) / 4 <
        (pairs.length - pairs.countP corrupted) *
          (pairs.length - pairs.countP corrupted - 1) / 2 →
      ∃ fit, fitTheilSen now pairs = some fit ∧ fit.slopeDen = 2 ^ 30 ∧
        fit.slopeNum = roundAway (slope * 2 ^ 30) ∧ fit.offsetNs = roundAway offset := by
  intro recovers
  obtain ⟨fit, fitted, _, _, exact⟩ := recovers 0 steepPairs (fun _ => false)
    18446744073709551615 (-(18446744073709551615 * 18446744073709551614)) (by decide) (by decide)
    (by decide +kernel) (by decide)
  have offset : (fitTheilSen 0 steepPairs).map ClockOffset.offsetNs = some (-2 ^ 127) := by
    decide +kernel
  rw [fitted, Option.map_some, exact] at offset
  exact absurd offset (by decide +kernel)

end PerfWeave
