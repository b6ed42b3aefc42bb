/-
This file relates the residual a fit reports to the mapping it publishes. The residual is
measured against the fitted line; the mapping carries the slope rounded to a multiple of
`2 ^ -30` while the offset stays that of the unrounded slope. The two therefore differ at a
source reading by the rounding error of the slope times the reading, which on a realtime
clock is not small.

The content here is how far the residual still speaks for the mapping: as long as that
displacement is at most half a nanosecond at every reading, the published mapping stays
within the residual and two nanoseconds, and beyond four nanoseconds and twice the residual
it never does.
-/

import PerfWeave.Common.DoubleFit

namespace PerfWeave

/-! ### The fitted line -/

/-- A fit is the published form of a line through the two medians. -/
theorem fitTheilSen_eq_some {now : UInt64} {pairs : List Pair} {fit : ClockOffset}
    (fitted : fitTheilSen now pairs = some fit) :
    ∃ slope offset, IsUpperMedian (pairwiseSlopes pairs) slope ∧
      IsUpperMedian (interceptsAt slope pairs) offset ∧
      fit = .ofLine now slope offset (residualMax offset slope pairs) := by
  rw [← roundedFitTheilSen_id] at fitted
  obtain ⟨slope, offset, line, rfl⟩ := (roundedFitTheilSen_eq_some_iff now pairs fit).mp fitted
  exact ⟨slope, offset, roundedSlopes_id pairs ▸ line.isSlope, line.isOffset, rfl⟩

theorem Pair.src_nonneg (pair : Pair) : 0 ≤ pair.src := Nat.cast_nonneg _

theorem Pair.host_nonneg (pair : Pair) : 0 ≤ pair.host := Nat.cast_nonneg _

theorem Pair.src_lt (pair : Pair) : pair.src < 2 ^ 64 := by
  have bound := pair.srcNs.toNat_lt
  unfold Pair.src
  exact_mod_cast bound

theorem Pair.host_lt (pair : Pair) : pair.host < 2 ^ 64 := by
  have bound := pair.hostNs.toNat_lt
  unfold Pair.host
  exact_mod_cast bound

/-- The slope between two readings is below the range of the host clock. -/
theorem Pair.abs_slopeTo_lt {first second : Pair} {slope : ℚ}
    (between : first.slopeTo second = some slope) : |slope| < 2 ^ 64 := by
  unfold Pair.slopeTo at between
  simp only at between
  split at between
  · cases between
  · rename_i moved
    rw [← Option.some.inj between, abs_div]
    have firstBound := first.hostNs.toNat_lt
    have secondBound := second.hostNs.toNat_lt
    have numerator : |((second.hostNs.toNat - first.hostNs.toNat : Int) : ℚ)| < 2 ^ 64 := by
      have small : |(second.hostNs.toNat - first.hostNs.toNat : Int)| < 2 ^ 64 := by
        rw [abs_lt]
        omega
      exact_mod_cast small
    have denominator : 1 ≤ |((second.srcNs.toNat - first.srcNs.toNat : Int) : ℚ)| := by
      exact_mod_cast Int.one_le_abs moved
    rw [div_lt_iff₀ (by linarith)]
    calc |((second.hostNs.toNat - first.hostNs.toNat : Int) : ℚ)| < 2 ^ 64 := numerator
      _ ≤ 2 ^ 64 * |((second.srcNs.toNat - first.srcNs.toNat : Int) : ℚ)| := by linarith

theorem abs_slope_lt {pairs : List Pair} {slope : ℚ} (member : slope ∈ pairwiseSlopes pairs) :
    |slope| < 2 ^ 64 := by
  induction pairs with
  | nil => cases member
  | cons first rest inductionHypothesis =>
    rcases List.mem_append.mp member with here | later
    · obtain ⟨second, _, between⟩ := List.mem_filterMap.mp here
      exact Pair.abs_slopeTo_lt between
    · exact inductionHypothesis later

theorem residualMax_nonneg (offset slope : ℚ) (pairs : List Pair) :
    0 ≤ residualMax offset slope pairs :=
  @roundedResidualMax_nonneg id offset slope pairs

theorem abs_residual_le (offset slope : ℚ) {pairs : List Pair} {pair : Pair}
    (member : pair ∈ pairs) :
    |pair.host - (offset + slope * pair.src)| ≤ residualMax offset slope pairs :=
  (@roundedResidualMax_le_iff id offset slope pairs _ (residualMax_nonneg offset slope pairs)).mp
    le_rfl pair member

/-! ### The published mapping -/

/-- What rounding the slope to the published denominator adds to it. -/
def slopeRounding (slope : ℚ) : ℚ :=
  roundAway (slope * slopeDenominator) / slopeDenominator - slope

theorem abs_slopeRounding_le (slope : ℚ) : |slopeRounding slope| ≤ 1 / 2 ^ 31 := by
  have rounded := abs_roundAway_sub_le (slope * slopeDenominator)
  have denominator : (0 : ℚ) < slopeDenominator := by norm_num [slopeDenominator]
  have split : slopeRounding slope =
      (roundAway (slope * slopeDenominator) - slope * slopeDenominator) / slopeDenominator := by
    unfold slopeRounding
    field_simp
  rw [split, abs_div, abs_of_pos denominator, div_le_iff₀ denominator]
  refine rounded.trans (le_of_eq ?_)
  norm_num [slopeDenominator]

/-- The host value the published integers stand for, before any reduction or cast. -/
def publishedHost (slope offset : ℚ) (srcNs : UInt64) : Int :=
  roundAway offset + (roundAway (slope * slopeDenominator) * srcNs.toNat).tdiv slopeDenominator

/-- The published integers follow the fitted line displaced by the rounding of its slope. -/
theorem abs_publishedHost_sub_lt (slope offset : ℚ) (pair : Pair) :
    |publishedHost slope offset pair.srcNs -
        (offset + slope * pair.src + slopeRounding slope * pair.src)| < 3 / 2 := by
  have offsetRounded := abs_roundAway_sub_le offset
  have divided := abs_tdiv_sub_div_lt (roundAway (slope * slopeDenominator) * pair.srcNs.toNat)
    slopeDenominator (by decide)
  have split : (publishedHost slope offset pair.srcNs : ℚ) -
        (offset + slope * pair.src + slopeRounding slope * pair.src) =
      (roundAway offset - offset) +
        (((roundAway (slope * slopeDenominator) * pair.srcNs.toNat).tdiv slopeDenominator : Int) -
          ((roundAway (slope * slopeDenominator) * pair.srcNs.toNat : Int) : ℚ) /
            slopeDenominator) := by
    unfold publishedHost slopeRounding Pair.src
    push_cast
    ring
  rw [split]
  calc |_ + _| ≤ _ := abs_add_le _ _
    _ < 1 / 2 + 1 := add_lt_add_of_le_of_lt offsetRounded divided
    _ = 3 / 2 := by norm_num

/-- An integer whose rational value is small is small. -/
theorem abs_lt_of_cast {value bound : Int} (small : |(value : ℚ)| < bound) : |value| < bound := by
  exact_mod_cast small

/-- The published slope stays below `2 ^ 95`. -/
theorem abs_slopeNum_lt {slope : ℚ} (slopeSmall : |slope| < 2 ^ 64) :
    |roundAway (slope * slopeDenominator)| < 2 ^ 95 := by
  refine abs_lt_of_cast ((abs_roundAway_le _).trans_lt ?_)
  have denominator : |(slopeDenominator : ℚ)| = 2 ^ 30 := by norm_num [slopeDenominator]
  rw [abs_mul, denominator]
  push_cast
  linarith

/-- The product of the published slope and a source reading, from the exact product. -/
theorem abs_slopeNum_mul_lt {slope : ℚ} {pair : Pair} (productSmall : |slope| * pair.src < 2 ^ 96) :
    |roundAway (slope * slopeDenominator) * pair.srcNs.toNat| < 2 ^ 127 := by
  have srcLt := pair.src_lt
  have denominator : |(slopeDenominator : ℚ)| = 2 ^ 30 := by norm_num [slopeDenominator]
  have numerator := abs_roundAway_le (slope * slopeDenominator)
  rw [abs_mul, denominator] at numerator
  refine abs_lt_of_cast ?_
  push_cast
  rw [abs_mul, Nat.abs_cast]
  calc |(roundAway (slope * slopeDenominator) : ℚ)| * pair.src
      ≤ (|slope| * 2 ^ 30 + 1 / 2) * pair.src :=
        mul_le_mul_of_nonneg_right numerator pair.src_nonneg
    _ = |slope| * pair.src * 2 ^ 30 + pair.src / 2 := by ring
    _ < 2 ^ 127 := by linarith

theorem abs_add_tdiv_lt {offset product : Int} (offsetSmall : |offset| < 2 ^ 98)
    (productSmall : |product| < 2 ^ 127) :
    |offset + product.tdiv slopeDenominator| < 2 ^ 127 := by
  have quotient : (product.tdiv slopeDenominator).natAbs = product.natAbs / 2 ^ 30 :=
    Int.natAbs_tdiv product slopeDenominator
  rw [Int.abs_eq_natAbs] at productSmall offsetSmall ⊢
  omega

/-- While the line stays in the range of the mapping's integers, the mapping casts the
published host value. -/
theorem map_ofLine {now : UInt64} {slope offset resMax : ℚ} {pair : Pair}
    (slopeSmall : |slope| < 2 ^ 64) (offsetSmall : |offset| < 2 ^ 97)
    (productSmall : |slope| * pair.src < 2 ^ 96) :
    (ClockOffset.ofLine now slope offset resMax).map pair.srcNs =
      truncateU64 (max (publishedHost slope offset pair.srcNs) 0) := by
  have numBound := abs_slopeNum_lt slopeSmall
  have productBound := abs_slopeNum_mul_lt productSmall
  have offsetBound : |roundAway offset| < 2 ^ 98 := by
    refine abs_lt_of_cast ((abs_roundAway_le offset).trans_lt ?_)
    push_cast
    linarith
  have sumBound : |publishedHost slope offset pair.srcNs| < 2 ^ 127 :=
    abs_add_tdiv_lt offsetBound productBound
  have numKept : saturateI128 (roundAway (slope * slopeDenominator)) =
      roundAway (slope * slopeDenominator) :=
    saturateI128_of_abs_lt (by omega)
  have offsetKept : saturateI128 (roundAway offset) = roundAway offset :=
    saturateI128_of_abs_lt (by omega)
  unfold ClockOffset.map
  simp only [ClockOffset.ofLine, numKept, offsetKept]
  rw [wrapI128_of_abs_lt productBound]
  exact congrArg (fun host => truncateU64 (max host 0)) (wrapI128_of_abs_lt sumBound)

/-! ### The residual against the published mapping -/

/-- The published mapping passes every fitted pair within the reported residual and two
nanoseconds. -/
def ResidualBounds (pairs : List Pair) (fit : ClockOffset) : Prop :=
  ∀ pair ∈ pairs,
    |((fit.map pair.srcNs).toNat : Int) - pair.hostNs.toNat| ≤ fit.residualMaxNs.toNat + 2

/-- The readings keep the mapping inside its integers: host readings below `2 ^ 63` and a
median slope whose product with every source reading is below `2 ^ 96`. -/
structure InClockRange (pairs : List Pair) : Prop where
  hostSmall : ∀ pair ∈ pairs, pair.hostNs.toNat < 2 ^ 63
  productSmall : ∀ slope, IsUpperMedian (pairwiseSlopes pairs) slope →
    ∀ pair ∈ pairs, |slope| * pair.src < 2 ^ 96

/-- Rounding the median slope displaces no source reading by more than the bound. -/
def DisplacedAtMost (bound : ℚ) (pairs : List Pair) : Prop :=
  ∀ slope, IsUpperMedian (pairwiseSlopes pairs) slope →
    ∀ pair ∈ pairs, |slopeRounding slope * pair.src| ≤ bound

/-- Clamping and casting a host value never take it further from a reading below `2 ^ 63`. -/
theorem abs_truncateU64_sub_le {value reading bound : Int} (nonneg : 0 ≤ reading)
    (small : reading < 2 ^ 63) (near : |value - reading| ≤ bound) :
    |((truncateU64 (max value 0)).toNat : Int) - reading| ≤ bound := by
  rw [toNat_truncateU64]
  rw [abs_le] at near ⊢
  omega

/-- A residual that was not cut off by its cast bounds the largest distance from the line. -/
theorem le_saturateU64_ceil {resMax : ℚ} (nonneg : 0 ≤ resMax)
    (uncut : (saturateU64 ⌈resMax⌉).toNat < 2 ^ 64 - 1) :
    resMax ≤ (saturateU64 ⌈resMax⌉).toNat := by
  have ceilNonneg : 0 ≤ ⌈resMax⌉ := Int.ceil_nonneg nonneg
  rw [toNat_saturateU64] at uncut ⊢
  have same : ((min ⌈resMax⌉.toNat (2 ^ 64 - 1) : Nat) : Int) = ⌈resMax⌉ := by omega
  calc resMax ≤ (⌈resMax⌉ : ℚ) := Int.le_ceil resMax
    _ = ((min ⌈resMax⌉.toNat (2 ^ 64 - 1) : Nat) : ℚ) := by exact_mod_cast same.symm

/-- The intercept of an in-range line is in range. -/
theorem abs_offset_lt {pairs : List Pair} {slope offset : ℚ}
    (productSmall : ∀ pair ∈ pairs, |slope| * pair.src < 2 ^ 96)
    (member : offset ∈ interceptsAt slope pairs) : |offset| < 2 ^ 97 := by
  obtain ⟨pair, pairMember, rfl⟩ := List.mem_map.mp member
  have hostLt := pair.host_lt
  have product := productSmall pair pairMember
  rw [← abs_of_nonneg pair.src_nonneg, ← abs_mul] at product
  calc |pair.host - slope * pair.src| ≤ |pair.host| + |slope * pair.src| := abs_sub _ _
    _ < 2 ^ 97 := by
      rw [abs_of_nonneg pair.host_nonneg]
      linarith

/-- How the published host value, the reading and the displacement stand to each other. -/
theorem publishedHost_residual (slope offset : ℚ) {pairs : List Pair} {pair : Pair}
    (member : pair ∈ pairs) :
    |(publishedHost slope offset pair.srcNs - pair.host) - slopeRounding slope * pair.src| <
      residualMax offset slope pairs + 3 / 2 := by
  have near := abs_publishedHost_sub_lt slope offset pair
  have residual := abs_residual_le offset slope member
  rw [abs_lt] at near ⊢
  rw [abs_le] at residual
  constructor <;> linarith

/-- Rounding the slope displaces a reading by less than `2 ^ 34` nanoseconds. -/
theorem abs_displacement_lt (slope : ℚ) (pair : Pair) :
    |slopeRounding slope * pair.src| < 2 ^ 34 := by
  rw [abs_mul, abs_of_nonneg pair.src_nonneg]
  calc |slopeRounding slope| * pair.src ≤ 1 / 2 ^ 31 * pair.src :=
        mul_le_mul_of_nonneg_right (abs_slopeRounding_le slope) pair.src_nonneg
    _ < 2 ^ 34 := by linarith [pair.src_lt]

/-- A reading displaced by at most half a nanosecond is mapped within the reported residual
and two nanoseconds. -/
theorem residualBound_of_displaced {slope offset : ℚ} {pairs : List Pair} {pair : Pair}
    (member : pair ∈ pairs) (hostSmall : pair.hostNs.toNat < 2 ^ 63)
    (displaced : |slopeRounding slope * pair.src| ≤ 1 / 2) :
    |((truncateU64 (max (publishedHost slope offset pair.srcNs) 0)).toNat : Int) -
        pair.hostNs.toNat| ≤ (saturateU64 ⌈residualMax offset slope pairs⌉).toNat + 2 := by
  have apart := publishedHost_residual slope offset member
  by_cases uncut : (saturateU64 ⌈residualMax offset slope pairs⌉).toNat < 2 ^ 64 - 1
  · have residual := le_saturateU64_ceil (residualMax_nonneg offset slope pairs) uncut
    refine abs_truncateU64_sub_le (by omega) (by omega) ?_
    have near : |((publishedHost slope offset pair.srcNs - pair.hostNs.toNat : Int) : ℚ)| ≤
        ((saturateU64 ⌈residualMax offset slope pairs⌉).toNat + 2 : Int) := by
      push_cast
      rw [abs_lt] at apart
      rw [abs_le] at displaced ⊢
      unfold Pair.host at apart
      constructor <;> linarith
    exact_mod_cast near
  · have castLt := (truncateU64 (max (publishedHost slope offset pair.srcNs) 0)).toNat_lt
    rw [abs_le]
    omega

/-- On a realtime reading and with a small residual no cast of the mapping is visible, so a
bound on the mapping is a bound on the displacement. -/
theorem displaced_of_residualBound {slope offset : ℚ} {pairs : List Pair} {pair : Pair}
    (member : pair ∈ pairs) (realtime : 2 ^ 60 ≤ pair.hostNs.toNat)
    (hostSmall : pair.hostNs.toNat < 2 ^ 63)
    (resSmall : (saturateU64 ⌈residualMax offset slope pairs⌉).toNat < 2 ^ 59)
    (bound : |((truncateU64 (max (publishedHost slope offset pair.srcNs) 0)).toNat : Int) -
        pair.hostNs.toNat| ≤ (saturateU64 ⌈residualMax offset slope pairs⌉).toNat + 2) :
    |slopeRounding slope * pair.src| ≤
      2 * (saturateU64 ⌈residualMax offset slope pairs⌉).toNat + 4 := by
  have residual := le_saturateU64_ceil (residualMax_nonneg offset slope pairs)
    (lt_trans resSmall (by norm_num))
  have apart := publishedHost_residual slope offset member
  have displacement := abs_displacement_lt slope pair
  have near : |publishedHost slope offset pair.srcNs - pair.hostNs.toNat| < 2 ^ 60 := by
    have resSmallQ : ((saturateU64 ⌈residualMax offset slope pairs⌉).toNat : ℚ) < 2 ^ 59 := by
      exact_mod_cast resSmall
    refine abs_lt_of_cast ?_
    push_cast
    rw [abs_lt] at apart displacement ⊢
    unfold Pair.host at apart
    constructor <;> linarith
  rw [abs_lt] at near
  rw [toNat_truncateU64_of_mem (by omega) (by omega), max_eq_left (by omega)] at bound
  have boundQ : |((publishedHost slope offset pair.srcNs - pair.hostNs.toNat : Int) : ℚ)| ≤
      ((saturateU64 ⌈residualMax offset slope pairs⌉).toNat + 2 : Int) := by
    exact_mod_cast bound
  push_cast at boundQ
  rw [abs_lt] at apart
  rw [abs_le] at boundQ ⊢
  unfold Pair.host at apart
  constructor <;> linarith

/-- The reported residual bounds the published mapping as long as rounding the slope displaces
no reading by more than half a nanosecond. On realtime readings with a residual below
`2 ^ 59` the bound implies, conversely, that no reading is displaced by more than four
nanoseconds and twice the residual. -/
theorem fitTheilSen_residual_bounds (now : UInt64) (pairs : List Pair) (fit : ClockOffset)
    (fitted : fitTheilSen now pairs = some fit) (inRange : InClockRange pairs) :
    (DisplacedAtMost (1 / 2) pairs → ResidualBounds pairs fit) ∧
      ((∀ pair ∈ pairs, 2 ^ 60 ≤ pair.hostNs.toNat) → fit.residualMaxNs.toNat < 2 ^ 59 →
        ResidualBounds pairs fit →
          DisplacedAtMost (2 * fit.residualMaxNs.toNat + 4) pairs) := by
  obtain ⟨slope, offset, slopeMedian, offsetMedian, rfl⟩ := fitTheilSen_eq_some fitted
  have productSmall := inRange.productSmall slope slopeMedian
  have mapped : ∀ pair ∈ pairs,
      (ClockOffset.ofLine now slope offset (residualMax offset slope pairs)).map pair.srcNs =
        truncateU64 (max (publishedHost slope offset pair.srcNs) 0) := fun pair member =>
    map_ofLine (abs_slope_lt slopeMedian.mem) (abs_offset_lt productSmall offsetMedian.mem)
      (productSmall pair member)
  constructor
  · intro settled pair member
    rw [mapped pair member]
    exact residualBound_of_displaced member (inRange.hostSmall pair member)
      (settled slope slopeMedian pair member)
  · intro realtime resSmall bounds other otherMedian pair member
    rw [otherMedian.unique slopeMedian]
    have bound := bounds pair member
    rw [mapped pair member] at bound
    exact displaced_of_residualBound member (realtime pair member)
      (inRange.hostSmall pair member) resSmall bound

/-- Two readings of a source clock that runs at the host's rate, half a microsecond behind. -/
def steadyPairs : List Pair := [⟨0, 500⟩, ⟨1000000, 1000500⟩]

theorem steadyPairs_slope {slope : ℚ}
    (isMedian : IsUpperMedian (pairwiseSlopes steadyPairs) slope) : slope = 1 := by
  have slopes : pairwiseSlopes steadyPairs = [1] := by decide +kernel
  have member := isMedian.mem
  rw [slopes] at member
  exact List.mem_singleton.mp member

/-- The fit of the steady readings passes them within its residual. -/
theorem steadyPairs_residualBounds :
    ∃ fit, fitTheilSen 0 steadyPairs = some fit ∧ ResidualBounds steadyPairs fit := by
  have fitted : (fitTheilSen 0 steadyPairs).isSome := by decide +kernel
  obtain ⟨fit, isFit⟩ := Option.isSome_iff_exists.mp fitted
  refine ⟨fit, isFit, (fitTheilSen_residual_bounds 0 steadyPairs fit isFit ⟨?_, ?_⟩).1 ?_⟩
  · decide
  · intro slope isMedian pair _
    rw [steadyPairs_slope isMedian, abs_one, one_mul]
    exact pair.src_lt.trans (by norm_num)
  · intro slope isMedian pair _
    have exact : slopeRounding 1 = 0 := by
      norm_num [slopeRounding, roundAway, slopeDenominator]
    rw [steadyPairs_slope isMedian, exact, zero_mul, abs_zero]
    norm_num

/-- Two exact readings three seconds apart on a host that gains one nanosecond. -/
def driftingPairs : List Pair :=
  [⟨1700000000000000000, 1700000000000000000⟩, ⟨1700000003000000000, 1700000003000000001⟩]

/-- The line through the two drifting readings is exact and its published form is more than
half a second off. -/
theorem driftingPairs_not_residualBounds :
    ¬ ∀ (now : UInt64) (pairs : List Pair) (fit : ClockOffset),
      fitTheilSen now pairs = some fit → ResidualBounds pairs fit := by
  intro bounds
  have fitted : (fitTheilSen 0 driftingPairs).isSome := by decide +kernel
  obtain ⟨fit, isFit⟩ := Option.isSome_iff_exists.mp fitted
  have bound := bounds 0 driftingPairs fit isFit ⟨1700000000000000000, 1700000000000000000⟩
    List.mem_cons_self
  have values : (fitTheilSen 0 driftingPairs).map (fun fit =>
      ((fit.map 1700000000000000000).toNat, fit.residualMaxNs.toNat)) =
        some (1699999999433333333, 0) := by
    decide +kernel
  rw [isFit, Option.map_some, Option.some.injEq, Prod.mk.injEq] at values
  rw [values.1, values.2] at bound
  exact absurd bound (by decide)

end PerfWeave
