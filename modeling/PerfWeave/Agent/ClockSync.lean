/-
This file models `measure` of `perfweave-agent/src/clock_sync.rs`: a loop that reads the host clock
before and after the source clock, a filter that drops the slowest readings, and the fit of the
others, in doubles. A call that panics has no result. The warning about a large residual is recorded
beside the fit that is returned nevertheless.
-/

import PerfWeave.Common.DoubleFit
import PerfWeave.Library.OrderStatistic

namespace PerfWeave

/-! ### The model -/

/-- One round of the sampling loop. -/
structure ClockReading where
  before : UInt64
  srcNs : UInt64
  after : UInt64

namespace ClockReading

/-- The latency of a round; zero when the host clock has stepped back. -/
def lat (reading : ClockReading) : UInt64 := saturatingSub reading.after reading.before

/-- The pair of a round, with the middle of the two host readings. -/
def pair (reading : ClockReading) : Option Pair := do
  let hostNs ← checkedAdd reading.before (reading.lat / 2)
  return ⟨reading.srcNs, hostNs⟩

end ClockReading

/-- The pairs that `measure` fits: those whose latency is at most that of the place nine tenths up
the sorted latencies. -/
def filteredPairs (readings : List ClockReading) : Option (List Pair) := do
  let pairs ← readings.mapM ClockReading.pair
  let latencies := readings.map ClockReading.lat
  let sortedLat := latencies.mergeSort fun first second => first ≤ second
  let cutoff ← sortedLat[sortedLat.length * 9 / 10]?
  return ((pairs.zip latencies).filter fun sample => sample.2 ≤ cutoff).map Prod.fst

/-- What a call of `measure` returns, and whether it logs its warning. -/
structure Measurement where
  fit : Option ClockOffset
  warned : Bool

/-- `measure`, over the readings of its loop. -/
def measure (now maxResidualNs : UInt64) (readings : List ClockReading) : Option Measurement := do
  let filtered ← filteredPairs readings
  match roundedFitTheilSen double now filtered with
  | none => return ⟨none, false⟩
  | some fit => return ⟨some fit, fit.residualMaxNs > maxResidualNs⟩

/-! ### The pairs that are kept -/

/-- The pair of a round, in wrapping arithmetic. -/
def ClockReading.midpoint (reading : ClockReading) : Pair :=
  ⟨reading.srcNs, reading.before + reading.lat / 2⟩

/-- The middle of two host readings does not overflow. -/
theorem ClockReading.pair_eq (reading : ClockReading) : reading.pair = some reading.midpoint := by
  have early := reading.before.toNat_lt
  have late := reading.after.toNat_lt
  have half : (reading.lat / 2).toNat = (reading.after.toNat - reading.before.toNat) / 2 := by
    rw [UInt64.toNat_div, lat, toNat_saturatingSub]
    rfl
  rw [pair, checkedAdd, if_pos (by omega)]
  rfl

/-- The rounds whose latency is at most a bound. -/
def keptReadings (cutoff : Nat) (readings : List ClockReading) : List ClockReading :=
  readings.filter fun reading => reading.lat.toNat ≤ cutoff

/-- The latencies of the rounds, in nanoseconds. -/
def latencies (readings : List ClockReading) : List Nat :=
  readings.map fun reading => reading.lat.toNat

/-- Without a round there is no latency at the place of the cut-off. -/
theorem filteredPairs_nil : filteredPairs [] = none := by
  rw [filteredPairs, List.mapM_nil]
  simp

/-- What is fitted are the rounds up to the latency of rank nine tenths. -/
theorem filteredPairs_eq {readings : List ClockReading} (nonempty : readings ≠ []) :
    ∃ cutoff, HasRank (latencies readings) (readings.length * 9 / 10) cutoff ∧
      filteredPairs readings =
        some ((keptReadings cutoff readings).map ClockReading.midpoint) := by
  have sampled : readings.mapM ClockReading.pair = some (readings.map ClockReading.midpoint) := by
    simp only [funext ClockReading.pair_eq]
    exact List.mapM_pure
  have positive := List.length_pos_iff.mpr nonempty
  have length : ((readings.map ClockReading.lat).mergeSort
      fun first second => first ≤ second).length = readings.length := by
    rw [List.length_mergeSort, List.length_map]
  have bound : readings.length * 9 / 10 < ((readings.map ClockReading.lat).mergeSort
      fun first second => first ≤ second).length := by omega
  have ranked := hasRank_map_mergeSort (fun first second => first ≤ second) UInt64.toNat
    (fun first second => decide_eq_true_iff.trans UInt64.le_iff_toNat_le) bound
  rw [List.map_map] at ranked
  refine ⟨_, ranked, ?_⟩
  unfold filteredPairs
  rw [sampled, Option.bind_eq_bind, Option.bind_some]
  dsimp only
  rw [length, List.getElem?_eq_getElem bound, Option.bind_eq_bind, Option.bind_some,
    List.zip_map', List.filter_map, List.map_map]
  rfl

/-- A call with a round returns the fit of the pairs that are kept. -/
theorem measure_of_nonempty {readings : List ClockReading} (nonempty : readings ≠ []) :
    ∃ cutoff, HasRank (latencies readings) (readings.length * 9 / 10) cutoff ∧
      ∀ now maxResidualNs, ∃ result, measure now maxResidualNs readings = some result ∧
        result.fit =
          roundedFitTheilSen double now
            ((keptReadings cutoff readings).map ClockReading.midpoint) := by
  obtain ⟨cutoff, ranked, filtered⟩ := filteredPairs_eq nonempty
  refine ⟨cutoff, ranked, fun now maxResidualNs => ?_⟩
  unfold measure
  rw [filtered, Option.bind_eq_bind, Option.bind_some]
  cases roundedFitTheilSen double now
    ((keptReadings cutoff readings).map ClockReading.midpoint) with
  | none => exact ⟨_, rfl, rfl⟩
  | some fit => exact ⟨_, rfl, rfl⟩

theorem mem_keptReadings_iff {cutoff : Nat} {readings : List ClockReading}
    {reading : ClockReading} :
    reading ∈ keptReadings cutoff readings ↔ reading ∈ readings ∧ reading.lat.toNat ≤ cutoff := by
  rw [keptReadings, List.mem_filter, decide_eq_true_eq]

/-- More rounds are kept than the rank of the cut-off. -/
theorem lt_length_keptReadings {cutoff rank : Nat} {readings : List ClockReading}
    (ranked : HasRank (latencies readings) rank cutoff) :
    rank < (keptReadings cutoff readings).length := by
  rw [keptReadings, ← List.countP_eq_length_filter]
  have atMost := ranked.atMost
  rw [latencies, List.countP_map] at atMost
  exact atMost

/-- The filter keeps, in order, the rounds that are no slower than the one of rank nine tenths:
nine tenths of them and one more at least, and every round it drops is slower than all it keeps.
What is returned is the fit of the rounds that are kept; so two rounds at distinct source times or
more have a fit. -/
theorem measure_drops_slowest (readings : List ClockReading) (nonempty : readings ≠ []) :
    ∃ cutoff, HasRank (latencies readings) (readings.length * 9 / 10) cutoff ∧
      filteredPairs readings =
        some ((keptReadings cutoff readings).map ClockReading.midpoint) ∧
      readings.length * 9 / 10 + 1 ≤ (keptReadings cutoff readings).length ∧
      (∀ dropped ∈ readings, dropped ∉ keptReadings cutoff readings →
        ∀ kept ∈ keptReadings cutoff readings, kept.lat < dropped.lat) ∧
      (∀ now maxResidualNs, ∃ result, measure now maxResidualNs readings = some result ∧
        result.fit = roundedFitTheilSen double now
          ((keptReadings cutoff readings).map ClockReading.midpoint)) ∧
      (2 ≤ readings.length → (readings.map ClockReading.srcNs).Nodup →
        ∀ now maxResidualNs, ∃ result fit, measure now maxResidualNs readings = some result ∧
          result.fit = some fit) := by
  obtain ⟨cutoff, ranked, filtered⟩ := filteredPairs_eq nonempty
  have many := lt_length_keptReadings ranked
  obtain ⟨found, isRanked, measured⟩ := measure_of_nonempty nonempty
  obtain rfl := ranked.unique isRanked
  refine ⟨cutoff, ranked, filtered, many, fun dropped member isDropped kept isKept => ?_, measured,
    fun two distinct now maxResidualNs => ?_⟩
  · have slow := mt (fun atMost => mem_keptReadings_iff.mpr ⟨member, atMost⟩) isDropped
    exact UInt64.lt_iff_toNat_lt.mpr
      ((mem_keptReadings_iff.mp isKept).2.trans_lt (not_le.mp slow))
  · obtain ⟨result, returned, isFit⟩ := measured now maxResidualNs
    have fitted : (roundedFitTheilSen double now
        ((keptReadings cutoff readings).map ClockReading.midpoint)).isSome := by
      refine isSome_roundedFitTheilSen now (by rw [List.length_map]; omega) ?_
      rw [List.map_map]
      exact distinct.sublist (List.filter_sublist.map ClockReading.srcNs)
    obtain ⟨fit, isSome⟩ := Option.isSome_iff_exists.mp fitted
    exact ⟨result, fit, returned, isFit.trans isSome⟩

/-- Two rounds, a microsecond apart. -/
def twoRounds : List ClockReading := [⟨10, 0, 20⟩, ⟨1010, 1000, 1020⟩]

/-- Two rounds at distinct source times have a fit. -/
theorem measure_twoRounds :
    ∃ result fit, measure 0 1000 twoRounds = some result ∧ result.fit = some fit := by
  obtain ⟨_, _, _, _, _, _, fits⟩ := measure_drops_slowest twoRounds (List.cons_ne_nil _ _)
  exact fits (by decide) (by decide) 0 1000

/-! ### The limit on the residual -/

/-- The documented contract of `measure`: it returns, and no fit with a residual above the limit. -/
def KeepsContract (maxResidualNs : UInt64) (readings : List ClockReading) : Prop :=
  ∀ now, ∃ result, measure now maxResidualNs readings = some result ∧
    ∀ fit ∈ result.fit, fit.residualMaxNs ≤ maxResidualNs

/-- A residual is published within a limit exactly when it is within it, or when the limit is the
largest word, at which residuals are cut. -/
theorem saturateU64_ceil_le_iff {resMax : ℚ} (nonneg : 0 ≤ resMax) (limit : UInt64) :
    saturateU64 ⌈resMax⌉ ≤ limit ↔ limit.toNat = 2 ^ 64 - 1 ∨ resMax ≤ limit.toNat := by
  have ceilNonneg : 0 ≤ ⌈resMax⌉ := Int.ceil_nonneg nonneg
  have below := limit.toNat_lt
  have asCeil : resMax ≤ limit.toNat ↔ ⌈resMax⌉ ≤ (limit.toNat : Int) := by
    rw [Int.ceil_le, Int.cast_natCast]
  rw [UInt64.le_iff_toNat_le, toNat_saturateU64, asCeil]
  omega

theorem residualMaxNs_ofRoundedLine_le_iff {fl : ℚ → ℚ} (now : UInt64) (slope offset : ℚ)
    (pairs : List Pair) (limit : UInt64) :
    (ClockOffset.ofRoundedLine fl now slope offset
        (roundedResidualMax fl offset slope pairs)).residualMaxNs ≤ limit ↔
      limit.toNat = 2 ^ 64 - 1 ∨
        ∀ pair ∈ pairs, roundedResidual fl offset slope pair ≤ limit.toNat := by
  rw [← roundedResidualMax_le_iff _ _ _ (Nat.cast_nonneg _)]
  exact saturateU64_ceil_le_iff (roundedResidualMax_nonneg _ _ _) _

/-- Without a round the call panics. -/
theorem not_keepsContract_nil (maxResidualNs : UInt64) : ¬ KeepsContract maxResidualNs [] := by
  intro keeps
  obtain ⟨result, returned, -⟩ := keeps 0
  rw [measure, filteredPairs_nil] at returned
  exact Option.some_ne_none result returned.symm

/-- The contract is kept exactly when there is a round, and the rounds that are kept are, as doubles
compute the distance, no further from their line than the limit, or the limit is the largest
word. -/
theorem measure_keepsContract_iff (maxResidualNs : UInt64) (readings : List ClockReading) :
    KeepsContract maxResidualNs readings ↔
      readings ≠ [] ∧ ∀ cutoff slope offset,
        HasRank (latencies readings) (readings.length * 9 / 10) cutoff →
        IsTheilSenLine double ((keptReadings cutoff readings).map ClockReading.midpoint)
          slope offset →
          maxResidualNs.toNat = 2 ^ 64 - 1 ∨
            ∀ pair ∈ (keptReadings cutoff readings).map ClockReading.midpoint,
              roundedResidual double offset slope pair ≤ maxResidualNs.toNat := by
  by_cases empty : readings = []
  · exact iff_of_false (empty ▸ not_keepsContract_nil maxResidualNs) fun keeps => keeps.1 empty
  rw [and_iff_right empty]
  obtain ⟨cutoff, ranked, measured⟩ := measure_of_nonempty empty
  constructor
  · intro keeps other slope offset isRanked line
    obtain rfl := ranked.unique isRanked
    obtain ⟨result, returned, within⟩ := keeps 0
    obtain ⟨found, measuredHere, isFit⟩ := measured 0 maxResidualNs
    obtain rfl := Option.some.inj (returned.symm.trans measuredHere)
    refine (residualMaxNs_ofRoundedLine_le_iff 0 slope offset _ _).mp (within _ ?_)
    exact isFit.trans ((roundedFitTheilSen_eq_some_iff _ _ _).mpr ⟨slope, offset, line, rfl⟩)
  · intro within now
    obtain ⟨result, returned, isFit⟩ := measured now maxResidualNs
    refine ⟨result, returned, fun fit member => ?_⟩
    obtain ⟨slope, offset, line, rfl⟩ :=
      (roundedFitTheilSen_eq_some_iff now _ fit).mp (isFit.symm.trans member)
    exact (residualMaxNs_ofRoundedLine_le_iff now slope offset _ _).mpr
      (within cutoff slope offset ranked line)

/-- A fit with a residual above the limit breaks the contract. -/
theorem not_keepsContract_of_fit {maxResidualNs : UInt64} {readings : List ClockReading}
    (nonempty : readings ≠ []) (immediate : ∀ reading ∈ readings, reading.lat = 0)
    {residualNs : UInt64} (above : maxResidualNs < residualNs)
    (fitted : (roundedFitTheilSen double 0 (readings.map ClockReading.midpoint)).map
      ClockOffset.residualMaxNs = some residualNs) : ¬ KeepsContract maxResidualNs readings := by
  intro keeps
  obtain ⟨result, returned, within⟩ := keeps 0
  obtain ⟨cutoff, -, measured⟩ := measure_of_nonempty nonempty
  obtain ⟨found, measuredHere, isFit⟩ := measured 0 maxResidualNs
  obtain rfl := Option.some.inj (returned.symm.trans measuredHere)
  have allKept : keptReadings cutoff readings = readings := by
    refine List.filter_eq_self.mpr fun reading member => decide_eq_true ?_
    rw [immediate reading member]
    exact Nat.zero_le _
  rw [allKept] at isFit
  rw [← isFit] at fitted
  obtain ⟨fit, isSome, residual⟩ := Option.map_eq_some_iff.mp fitted
  exact absurd (residual ▸ within fit isSome) (UInt64.not_le.mpr above)

/-- Three rounds that are not on a line. -/
def bentRounds : List ClockReading := [⟨0, 0, 0⟩, ⟨1, 1, 1⟩, ⟨1, 2, 1⟩]

/-- Two rounds of a realtime clock that is 500 ns behind, on a line of slope one. -/
def straightRounds : List ClockReading :=
  [⟨1700000000000000500, 1700000000000000000, 1700000000000000500⟩,
    ⟨1700000000000000629, 1700000000000000129, 1700000000000000629⟩]

/-- Without a round the call panics, and a fit with a residual above the limit is returned, be it
that of a line which the rounds are on: doubles hold a realtime reading to 256 ns. -/
theorem exists_contract_broken :
    ¬ KeepsContract 0 [] ∧ ¬ KeepsContract 0 bentRounds ∧ ¬ KeepsContract 255 straightRounds := by
  refine ⟨not_keepsContract_nil 0, ?_, ?_⟩
  · have above : (0 : UInt64) < 1 := by decide
    exact not_keepsContract_of_fit (List.cons_ne_nil _ _) (by decide) above (by decide +kernel)
  · have above : (255 : UInt64) < 256 := by decide
    exact not_keepsContract_of_fit (List.cons_ne_nil _ _) (by decide) above (by decide +kernel)

end PerfWeave
