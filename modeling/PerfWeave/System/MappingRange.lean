/-
This file settles when the two mappings of a timestamp stay in the range of their 128-bit integers:
the one of the collector, by a fit that some agent has sent, and the one of the agent, by its own
fit. Both are read with every operation checked, so a mapping without a result is one that
overflows or divides by zero. A saturating product needs no check, and it is its largest value that
an offset on top takes out of range; in the agent it is the product itself, of which nothing bounds
the slope.
-/

import PerfWeave.Common.ClockFit
import PerfWeave.Server.SkewTable

namespace PerfWeave

/-! ### Checked mappings -/

/-- `map` of an entry, with its operations checked. -/
def SkewEntry.checkedMap (e : SkewEntry) (srcNs : UInt64) : Option UInt64 := do
  let src : Int := srcNs.toNat
  let quotient ← checkedDiv (saturateI128 (e.slopeNum * src)) e.slopeDen
  let host ← checkI128 (e.offsetNs + quotient)
  return truncateU64 (max host 0)

/-- `SkewTable::map`, with its operations checked. -/
def SkewTable.checkedMap (table : SkewTable) (nodeId gpuId : UInt32) (srcNs : UInt64) :
    Option UInt64 :=
  match table.inner (nodeId, gpuId) with
  | some e => e.checkedMap srcNs
  | none => some srcNs

/-- `ClockOffset::map`, with its operations checked. -/
def ClockOffset.checkedMap (fit : ClockOffset) (srcNs : UInt64) : Option UInt64 := do
  let src : Int := srcNs.toNat
  let product ← checkI128 (fit.slopeNum * src)
  let quotient ← checkedDiv product fit.slopeDen
  let host ← checkI128 (fit.offsetNs + quotient)
  return truncateU64 (max host 0)

/-- What a checked sum is mapped to. -/
theorem isSome_checked_host_iff (sum : Int) :
    ((checkI128 sum).bind fun host => some (truncateU64 (max host 0))).isSome ↔ InI128 sum := by
  rw [Option.isSome_bind, ← isSome_checkI128_iff]
  cases checkI128 sum <;> simp

/-! ### The collector -/

/-- The quotient of an entry is in range, so its mapping is exactly when the sum is. -/
theorem SkewEntry.isSome_checkedMap_iff (e : SkewEntry) (srcNs : UInt64) :
    (e.checkedMap srcNs).isSome ↔
      InI128 (e.offsetNs + (saturateI128 (e.slopeNum * srcNs.toNat)).tdiv e.slopeDen) := by
  unfold checkedMap
  dsimp only
  rw [checkedDiv_of_pos (saturateI128_mem _) e.slopeDenWord.1]
  exact isSome_checked_host_iff _

/-- In range, the checked mapping is the mapping. -/
theorem SkewEntry.checkedMap_eq {e : SkewEntry} {srcNs : UInt64}
    (inRange : (e.checkedMap srcNs).isSome) : e.checkedMap srcNs = some (e.map srcNs) := by
  have sum := (e.isSome_checkedMap_iff srcNs).mp inRange
  unfold checkedMap map
  dsimp only
  rw [checkedDiv_of_pos (saturateI128_mem _) e.slopeDenWord.1, Option.bind_eq_bind,
    Option.bind_some, checkI128_of_mem sum, wrapI128_of_inI128 sum]
  rfl

/-- An entry made of a message overflows only when it does not divide, and then exactly when the
product and the offset exceed the range together. -/
theorem SkewEntry.isSome_checkedMap_ofMessage_iff (now : UInt64) (c : ClockOffsetMessage)
    (srcNs : UInt64) :
    ((SkewEntry.ofMessage now c).checkedMap srcNs).isSome ↔
      2 ≤ c.slopeDen.toNat ∨ c.offsetNs.toNat = 0 ∨
        c.offsetNs.toNat + c.slopeNum.toNat * srcNs.toNat < 2 ^ 127 := by
  have product : 0 ≤ (c.slopeNum.toNat : Int) * srcNs.toNat := by positivity
  have offset := c.offsetNs.toNat_lt
  rw [isSome_checkedMap_iff, InI128]
  dsimp only [ofMessage]
  rw [saturateI128_of_nonneg product]
  have cut : 0 ≤ min ((c.slopeNum.toNat : Int) * srcNs.toNat) (2 ^ 127 - 1) := by omega
  rw [Int.tdiv_eq_ediv_of_nonneg cut]
  rcases Nat.lt_or_ge c.slopeDen.toNat 2 with whole | divides
  · have one : max (c.slopeDen.toNat : Int) 1 = 1 := by omega
    rw [one, Int.ediv_one]
    zify
    omega
  · refine iff_of_true ?_ (.inl divides)
    have two : max (c.slopeDen.toNat : Int) 1 = c.slopeDen.toNat := by omega
    have nonneg := Int.ediv_nonneg cut (Int.natCast_nonneg c.slopeDen.toNat)
    rw [two]
    have atMost : min ((c.slopeNum.toNat : Int) * srcNs.toNat) (2 ^ 127 - 1) ≤ 2 ^ 127 - 1 :=
      min_le_right _ _
    generalize min ((c.slopeNum.toNat : Int) * srcNs.toNat) (2 ^ 127 - 1) = m at cut nonneg atMost ⊢
    have whole : m / c.slopeDen.toNat * c.slopeDen.toNat ≤ m := Int.ediv_mul_le m (by omega)
    have half : m / c.slopeDen.toNat * 2 ≤ m / c.slopeDen.toNat * c.slopeDen.toNat :=
      mul_le_mul_of_nonneg_left (by omega) nonneg
    omega

/-! ### The agent -/

/-- The mapping of a fit in range: the product is, and the sum of its quotient and the offset. -/
theorem ClockOffset.isSome_checkedMap_iff (fit : ClockOffset) (srcNs : UInt64) :
    (fit.checkedMap srcNs).isSome ↔ InI128 (fit.slopeNum * srcNs.toNat) ∧
      InI128 (fit.offsetNs + (fit.slopeNum * srcNs.toNat).tdiv fit.slopeDen) := by
  unfold checkedMap
  dsimp only
  by_cases product : InI128 (fit.slopeNum * srcNs.toNat)
  · rw [checkI128_of_mem product, Option.bind_eq_bind, Option.bind_some,
      checkedDiv_of_pos product fit.slopeDenPos, and_iff_right product]
    exact isSome_checked_host_iff _
  · rw [checkI128_of_not_mem product]
    exact iff_of_false Bool.false_ne_true fun inRange => product inRange.1

/-- In range, the checked mapping is the mapping. -/
theorem ClockOffset.checkedMap_eq {fit : ClockOffset} {srcNs : UInt64}
    (inRange : (fit.checkedMap srcNs).isSome) : fit.checkedMap srcNs = some (fit.map srcNs) := by
  obtain ⟨product, sum⟩ := (fit.isSome_checkedMap_iff srcNs).mp inRange
  unfold checkedMap map
  dsimp only
  rw [checkI128_of_mem product, Option.bind_eq_bind, Option.bind_some,
    checkedDiv_of_pos product fit.slopeDenPos, Option.bind_some, checkI128_of_mem sum,
    wrapI128_of_inI128 product, wrapI128_of_inI128 sum]
  rfl

/-- The intercept of a line that rises is at most a word. -/
theorem saturatedIntercept_le (pair : Pair) {slope : ℚ} (rises : 0 ≤ slope) :
    saturateI128 (roundAway (pair.host - slope * pair.src)) ≤ 2 ^ 64 := by
  have atMost : roundAway (pair.host - slope * pair.src) ≤ 2 ^ 64 := by
    refine roundAway_le ?_
    have host := pair.host_lt
    have descent := mul_nonneg rises pair.src_nonneg
    push_cast
    linarith
  unfold saturateI128 minI128 maxI128
  omega

/-- The intercept of a line that falls is not negative. -/
theorem saturatedIntercept_nonneg (pair : Pair) {slope : ℚ} (falls : slope ≤ 0) :
    0 ≤ saturateI128 (roundAway (pair.host - slope * pair.src)) := by
  have atLeast : 0 ≤ roundAway (pair.host - slope * pair.src) := by
    refine le_roundAway ?_
    have descent := mul_nonpos_of_nonpos_of_nonneg falls pair.src_nonneg
    have host := pair.host_nonneg
    push_cast
    linarith
  rw [saturateI128_of_nonneg atLeast]
  omega

/-- The offset and the quotient of a product in range have a sum in range: where the quotient is
large, the offset has the other sign or is a word. -/
theorem inI128_host_of_product {pairs : List Pair} {slope offset : ℚ}
    (isOffset : offset ∈ interceptsAt slope pairs) {srcNs : UInt64}
    (product : InI128 (roundAway (slope * slopeDenominator) * srcNs.toNat)) :
    InI128 (saturateI128 (roundAway offset) +
      (roundAway (slope * slopeDenominator) * srcNs.toNat).tdiv slopeDenominator) := by
  obtain ⟨pair, _, rfl⟩ := List.mem_map.mp isOffset
  have denominator : (0 : ℚ) ≤ slopeDenominator := by norm_num [slopeDenominator]
  have positive : (0 : Int) ≤ slopeDenominator := slopeDenominator_pos.le
  have src := Int.natCast_nonneg srcNs.toNat
  have quotient : ((roundAway (slope * slopeDenominator) * srcNs.toNat).tdiv
      slopeDenominator).natAbs =
        (roundAway (slope * slopeDenominator) * (srcNs.toNat : Int)).natAbs / 2 ^ 30 :=
    Int.natAbs_tdiv _ slopeDenominator
  have cut := saturateI128_mem (roundAway (pair.host - slope * pair.src))
  unfold InI128 at product cut ⊢
  rcases le_total 0 slope with rises | falls
  · have num : 0 ≤ roundAway (slope * slopeDenominator) :=
      le_roundAway (by exact_mod_cast mul_nonneg rises denominator)
    have quotientNonneg := Int.tdiv_nonneg (mul_nonneg num src) positive
    have offset := saturatedIntercept_le pair rises
    omega
  · have num : roundAway (slope * slopeDenominator) ≤ 0 :=
      roundAway_le (by exact_mod_cast mul_nonpos_of_nonpos_of_nonneg falls denominator)
    have quotientNonpos := tdiv_nonpos_of_nonpos (mul_nonpos_of_nonpos_of_nonneg num src) positive
    have offset := saturatedIntercept_nonneg pair falls
    omega

/-- A mapping stays in range and divides by no zero exactly under these conditions: with the fit of
a message when the message has a denominator of two or more, no offset, or an offset and a product
below `2 ^ 127`; with the agent's own fit when the product of the rounded median slope and the
timestamp is a signed 128-bit integer. -/
theorem mappings_inRange_iff (table : SkewTable) (now : UInt64) (c : ClockOffsetMessage)
    (pairs : List Pair) (srcNs : UInt64) :
    (((table.upsert now c).checkedMap c.nodeId c.gpuId srcNs).isSome ↔
      2 ≤ c.slopeDen.toNat ∨ c.offsetNs.toNat = 0 ∨
        c.offsetNs.toNat + c.slopeNum.toNat * srcNs.toNat < 2 ^ 127) ∧
    ∀ (fit : ClockOffset) (slope : ℚ),
      fitTheilSen now pairs = some fit → IsUpperMedian (pairwiseSlopes pairs) slope →
        ((fit.checkedMap srcNs).isSome ↔ InI128 (roundAway (slope * 2 ^ 30) * srcNs.toNat)) := by
  constructor
  · have entry : (table.upsert now c).inner (c.nodeId, c.gpuId) = some (.ofMessage now c) :=
      Function.update_self _ _ _
    rw [SkewTable.checkedMap, entry]
    exact SkewEntry.isSome_checkedMap_ofMessage_iff now c srcNs
  · intro fit slope fitted isSlope
    obtain ⟨found, offset, isFound, isOffset, rfl⟩ := fitTheilSen_eq_some fitted
    obtain rfl := isSlope.unique isFound
    have denominator : (slopeDenominator : ℚ) = 2 ^ 30 := by norm_num [slopeDenominator]
    have small := abs_slopeNum_lt (abs_slope_lt isSlope.mem)
    rw [ClockOffset.isSome_checkedMap_iff, ← denominator]
    dsimp only [ClockOffset.ofLine]
    rw [saturateI128_of_abs_lt (small.trans (by norm_num))]
    exact ⟨And.left, fun product => ⟨product, inI128_host_of_product isOffset.mem product⟩⟩

/-- A fit with a whole slope of one nanosecond per nanosecond, by message and by readings. -/
theorem mappings_inRange_steady :
    ((SkewTable.new.upsert 0 ⟨1, 0, 500, 1, 1, 0⟩).checkedMap 1 0 1000).isSome ∧
      ∀ fit, fitTheilSen 0 steadyPairs = some fit → (fit.checkedMap 1000).isSome := by
  have steady := mappings_inRange_iff SkewTable.new 0 ⟨1, 0, 500, 1, 1, 0⟩ steadyPairs 1000
  refine ⟨steady.1.mpr (by decide), fun fit fitted => ?_⟩
  have isSlope : IsUpperMedian (pairwiseSlopes steadyPairs) 1 :=
    (upperMedian_eq_some_iff _ _).mp (by decide +kernel)
  exact (steady.2 fit 1 fitted isSlope).mpr (by decide +kernel)

/-- Two readings between which the host clock has run through its whole range. -/
def steepReadings : List Pair := [⟨0, 0⟩, ⟨1, 18446744073709551615⟩]

/-- A whole slope as steep as a word can say, with an offset, overflows, and so does the fit of two
steep readings. -/
theorem exists_mapping_overflow :
    ¬ ((SkewTable.new.upsert 0 ⟨1, 0, 1, 18446744073709551615, 1, 0⟩).checkedMap 1 0
        18446744073709551615).isSome ∧
      ∃ fit, fitTheilSen 0 steepReadings = some fit ∧
        ¬ (fit.checkedMap 18446744073709551615).isSome := by
  constructor
  · decide +kernel
  · have overflows : (fitTheilSen 0 steepReadings).map
        (fun fit => (fit.checkedMap 18446744073709551615).isSome) = some false := by
      decide +kernel
    obtain ⟨fit, fitted, none⟩ := Option.map_eq_some_iff.mp overflows
    exact ⟨fit, fitted, Bool.eq_false_iff.mp none⟩

end PerfWeave
