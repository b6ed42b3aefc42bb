/-
This file models `fit_theil_sen` of `perfweave-common/src/clock.rs` as it computes in doubles. A
cast to a double and every operation on doubles round the exact result; the rounding is a
parameter of the definitions, and `double` is that of the machine. Readings are words and slopes
lie between `2 ^ -64` and `2 ^ 64` in size, so no step overflows or loses bits at the lower end of
the exponent. The differences of readings are exact 128-bit integers until they are cast; a sign,
a comparison, a rounding to an integer and a cast back are exact.

`Common.Clock` reads the same steps as exact: it is the fit in which nothing is rounded.
-/

import PerfWeave.Common.Clock
import PerfWeave.Library.SignificantBits

namespace PerfWeave

/-- What a double keeps of a number: 53 significant bits. -/
def double (x : ℚ) : ℚ := roundRational 53 x

/-! ### The fit -/

section

variable (fl : ℚ → ℚ)

/-- The slope between two pairs; none when the source clock did not move. -/
def Pair.roundedSlopeTo (first second : Pair) : Option ℚ :=
  let dSrc : Int := second.srcNs.toNat - first.srcNs.toNat
  if dSrc = 0 then
    none
  else
    let dHost : Int := second.hostNs.toNat - first.hostNs.toNat
    some (fl (fl dHost / fl dSrc))

/-- The slopes of all pairs `i < j`, in the order of the two loops. -/
def roundedSlopes : List Pair → List ℚ
  | [] => []
  | first :: rest => rest.filterMap (first.roundedSlopeTo fl) ++ roundedSlopes rest

/-- The intercepts `host - slope * src`. -/
def roundedIntercepts (slope : ℚ) (pairs : List Pair) : List ℚ :=
  pairs.map fun pair => fl (fl pair.host - fl (slope * fl pair.src))

/-- The distance of a pair from the line. -/
def roundedResidual (offset slope : ℚ) (pair : Pair) : ℚ :=
  let predicted := fl (offset + fl (slope * fl pair.src))
  |fl (fl pair.host - predicted)|

/-- The residual loop: the largest distance of a pair from the line. -/
def roundedResidualMax (offset slope : ℚ) (pairs : List Pair) : ℚ :=
  pairs.foldl (fun largest pair =>
    let residual := roundedResidual fl offset slope pair
    if residual > largest then residual else largest) 0

/-- The published form of a fitted line: the slope rounded to the fixed denominator, the
offset rounded to a nanosecond and the residual rounded up. -/
def ClockOffset.ofRoundedLine (now : UInt64) (slope offset resMax : ℚ) : ClockOffset where
  offsetNs := saturateI128 (roundAway offset)
  slopeNum := saturateI128 (roundAway (fl (slope * slopeDenominator)))
  slopeDen := slopeDenominator
  residualMaxNs := saturateU64 ⌈resMax⌉
  fittedAtHostNs := now
  slopeDenPos := slopeDenominator_pos

/-- `fit_theil_sen`: the median pairwise slope, the median intercept under it and the largest
residual. `now` is the reading of the host clock that stamps the fit. -/
def roundedFitTheilSen (now : UInt64) (pairs : List Pair) : Option ClockOffset :=
  if pairs.length < 2 then
    none
  else
    let slopes := roundedSlopes fl pairs
    if slopes.isEmpty then
      none
    else do
      let slope ← upperMedian slopes
      let offset ← upperMedian (roundedIntercepts fl slope pairs)
      return .ofRoundedLine fl now slope offset (roundedResidualMax fl offset slope pairs)

end

theorem roundedSlopes_id (pairs : List Pair) : roundedSlopes id pairs = pairwiseSlopes pairs := by
  induction pairs with
  | nil => rfl
  | cons first rest inductionHypothesis =>
    rw [roundedSlopes, pairwiseSlopes, inductionHypothesis]
    rfl

/-- Where nothing is rounded, this is the fit in exact arithmetic. -/
theorem roundedFitTheilSen_id (now : UInt64) (pairs : List Pair) :
    roundedFitTheilSen id now pairs = fitTheilSen now pairs := by
  unfold roundedFitTheilSen fitTheilSen
  rw [roundedSlopes_id]
  rfl

/-! ### The fitted line -/

section

variable {fl : ℚ → ℚ}

/-- The line through the two medians. -/
structure IsTheilSenLine (fl : ℚ → ℚ) (pairs : List Pair) (slope offset : ℚ) : Prop where
  isSlope : IsUpperMedian (roundedSlopes fl pairs) slope
  isOffset : IsUpperMedian (roundedIntercepts fl slope pairs) offset

theorem roundedSlopes_of_length_lt {pairs : List Pair} (few : pairs.length < 2) :
    roundedSlopes fl pairs = [] := by
  match pairs with
  | [] => rfl
  | [_] => rfl
  | _ :: _ :: _ => exact absurd few (by simp)

/-- The published fit has a line, and every line is published: the two early returns are lists
without slopes. -/
theorem roundedFitTheilSen_eq_some_iff (now : UInt64) (pairs : List Pair) (fit : ClockOffset) :
    roundedFitTheilSen fl now pairs = some fit ↔ ∃ slope offset,
      IsTheilSenLine fl pairs slope offset ∧
        fit = .ofRoundedLine fl now slope offset (roundedResidualMax fl offset slope pairs) := by
  have medians : (upperMedian (roundedSlopes fl pairs)).bind (fun slope =>
        (upperMedian (roundedIntercepts fl slope pairs)).bind fun offset =>
          some (.ofRoundedLine fl now slope offset (roundedResidualMax fl offset slope pairs))) =
        some fit ↔ ∃ slope offset, IsTheilSenLine fl pairs slope offset ∧
          fit = .ofRoundedLine fl now slope offset (roundedResidualMax fl offset slope pairs) := by
    constructor
    · intro fitted
      obtain ⟨slope, isSlope, rest⟩ := Option.bind_eq_some_iff.mp fitted
      obtain ⟨offset, isOffset, same⟩ := Option.bind_eq_some_iff.mp rest
      exact ⟨slope, offset, ⟨(upperMedian_eq_some_iff _ _).mp isSlope,
        (upperMedian_eq_some_iff _ _).mp isOffset⟩, (Option.some.inj same).symm⟩
    · rintro ⟨slope, offset, line, rfl⟩
      rw [(upperMedian_eq_some_iff _ _).mpr line.isSlope, Option.bind_some,
        (upperMedian_eq_some_iff _ _).mpr line.isOffset, Option.bind_some]
  have noSlopes : roundedSlopes fl pairs = [] → ∀ slope offset,
      ¬ IsTheilSenLine fl pairs slope offset := by
    intro none slope offset line
    exact absurd (none ▸ line.isSlope.mem) List.not_mem_nil
  unfold roundedFitTheilSen
  by_cases few : pairs.length < 2
  · rw [if_pos few]
    refine iff_of_false (Option.some_ne_none fit).symm ?_
    rintro ⟨slope, offset, line, -⟩
    exact noSlopes (roundedSlopes_of_length_lt few) slope offset line
  · rw [if_neg few]
    dsimp only
    by_cases none : (roundedSlopes fl pairs).isEmpty
    · rw [if_pos none]
      refine iff_of_false (Option.some_ne_none fit).symm ?_
      rintro ⟨slope, offset, line, -⟩
      exact noSlopes (List.isEmpty_iff.mp none) slope offset line
    · rw [if_neg none]
      exact medians

/-- A pair of readings at distinct source times has a slope. -/
theorem Pair.isSome_roundedSlopeTo {first second : Pair} (moved : first.srcNs ≠ second.srcNs) :
    (first.roundedSlopeTo fl second).isSome := by
  have differs : (second.srcNs.toNat - first.srcNs.toNat : Int) ≠ 0 := by
    intro same
    exact moved (UInt64.toNat_inj.mp (by omega))
  unfold roundedSlopeTo
  dsimp only
  rw [if_neg differs]
  rfl

/-- Readings at two or more distinct source times have a fit. -/
theorem isSome_roundedFitTheilSen (now : UInt64) {pairs : List Pair} (two : 2 ≤ pairs.length)
    (distinct : (pairs.map Pair.srcNs).Nodup) : (roundedFitTheilSen fl now pairs).isSome := by
  obtain ⟨first, second, rest, rfl⟩ : ∃ first second rest, pairs = first :: second :: rest := by
    obtain _ | ⟨first, _ | ⟨second, rest⟩⟩ := pairs
    · exact absurd two (by simp)
    · exact absurd two (by simp)
    · exact ⟨first, second, rest, rfl⟩
  have moved : first.srcNs ≠ second.srcNs := fun same =>
    (List.nodup_cons.mp distinct).1 (same ▸ List.mem_cons_self)
  obtain ⟨between, isBetween⟩ :=
    Option.isSome_iff_exists.mp (@Pair.isSome_roundedSlopeTo fl first second moved)
  have slopes : roundedSlopes fl (first :: second :: rest) ≠ [] := by
    have member := List.mem_filterMap.mpr ⟨second, List.mem_cons_self (l := rest), isBetween⟩
    exact List.ne_nil_of_mem (List.mem_append_left _ member)
  obtain ⟨slope, isSlope⟩ := exists_isUpperMedian slopes
  have intercepts : roundedIntercepts fl slope (first :: second :: rest) ≠ [] :=
    List.cons_ne_nil _ _
  obtain ⟨offset, isOffset⟩ := exists_isUpperMedian intercepts
  exact Option.isSome_iff_exists.mpr ⟨_, (roundedFitTheilSen_eq_some_iff now _ _).mpr
    ⟨slope, offset, ⟨isSlope, isOffset⟩, rfl⟩⟩

/-! ### The residual -/

/-- The residual loop from any start stays within a bound exactly when the start and every pair
are. -/
theorem foldl_residual_le_iff (offset slope : ℚ) (pairs : List Pair) (start bound : ℚ) :
    pairs.foldl (fun largest pair =>
        let residual := roundedResidual fl offset slope pair
        if residual > largest then residual else largest) start ≤ bound ↔
      start ≤ bound ∧ ∀ pair ∈ pairs, roundedResidual fl offset slope pair ≤ bound := by
  induction pairs generalizing start with
  | nil => simp
  | cons first rest inductionHypothesis =>
    rw [List.foldl_cons, inductionHypothesis, List.forall_mem_cons, ← and_assoc]
    refine and_congr_left fun _ => ?_
    dsimp only
    split
    · rename_i larger
      exact ⟨fun small => ⟨(le_of_lt larger).trans small, small⟩, And.right⟩
    · rename_i smaller
      exact ⟨fun small => ⟨small, (not_lt.mp smaller).trans small⟩, And.left⟩

/-- The largest residual is not negative. -/
theorem roundedResidualMax_nonneg (offset slope : ℚ) (pairs : List Pair) :
    0 ≤ roundedResidualMax fl offset slope pairs :=
  ((foldl_residual_le_iff offset slope pairs 0 _).mp le_rfl).1

/-- The largest residual is at most a bound exactly when every pair is that near. -/
theorem roundedResidualMax_le_iff (offset slope : ℚ) (pairs : List Pair) {bound : ℚ}
    (nonneg : 0 ≤ bound) :
    roundedResidualMax fl offset slope pairs ≤ bound ↔
      ∀ pair ∈ pairs, roundedResidual fl offset slope pair ≤ bound :=
  (foldl_residual_le_iff offset slope pairs 0 bound).trans (and_iff_right nonneg)

end

end PerfWeave
