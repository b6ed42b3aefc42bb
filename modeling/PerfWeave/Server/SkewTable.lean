/-
This file models `perfweave-server/src/ingest/skew.rs`: the last clock fit received for each
node and GPU, and the mapping of a timestamp by it. The fields of a fit arrive as words and
only `upsert` makes an entry, so an entry carries that its fields are words and that its
denominator is positive.
-/

import PerfWeave.Common.Clock
import PerfWeave.Proto

namespace PerfWeave

/-- `Entry`: the last fit of a node and GPU. -/
structure SkewEntry where
  offsetNs : Int
  slopeNum : Int
  slopeDen : Int
  residualMaxNs : UInt64
  updatedAtHostNs : UInt64
  offsetWord : 0 ≤ offsetNs ∧ offsetNs < 2 ^ 64
  slopeNumWord : 0 ≤ slopeNum ∧ slopeNum < 2 ^ 64
  slopeDenWord : 0 < slopeDen ∧ slopeDen < 2 ^ 64

theorem word_bounds (word : UInt64) : 0 ≤ (word.toNat : Int) ∧ (word.toNat : Int) < 2 ^ 64 := by
  have below := word.toNat_lt
  omega

namespace SkewEntry

/-- The entry of a message absorbed at the host time `now`. -/
def ofMessage (now : UInt64) (c : ClockOffsetMessage) : SkewEntry where
  offsetNs := c.offsetNs.toNat
  slopeNum := c.slopeNum.toNat
  slopeDen := max c.slopeDen.toNat 1
  residualMaxNs := c.residualMaxNs
  updatedAtHostNs := now
  offsetWord := word_bounds c.offsetNs
  slopeNumWord := word_bounds c.slopeNum
  slopeDenWord := by
    have bounds := word_bounds c.slopeDen
    omega

/-- The mapping of an entry: the product saturates, the sum wraps. -/
def map (e : SkewEntry) (srcNs : UInt64) : UInt64 :=
  let src : Int := srcNs.toNat
  let host := wrapI128 (e.offsetNs + (saturateI128 (e.slopeNum * src)).tdiv e.slopeDen)
  truncateU64 (max host 0)

/-- An entry fixes a timestamp: its line through the saturated product stays in 128 bits and
agrees with the timestamp in the low 64. -/
def Fixes (e : SkewEntry) (s : UInt64) : Prop :=
  let host := e.offsetNs + min (e.slopeNum * s.toNat) (2 ^ 127 - 1) / e.slopeDen
  host < 2 ^ 127 ∧ host % 2 ^ 64 = s.toNat

/-- The mapping of an entry returns a timestamp unchanged exactly when the entry fixes it. -/
theorem map_eq_self_iff (e : SkewEntry) (s : UInt64) : e.map s = s ↔ e.Fixes s := by
  have product : 0 ≤ e.slopeNum * (s.toNat : Int) :=
    mul_nonneg e.slopeNumWord.1 (word_bounds s).1
  have saturated : saturateI128 (e.slopeNum * s.toNat) =
      min (e.slopeNum * s.toNat) (2 ^ 127 - 1) := saturateI128_of_nonneg product
  have minNonneg : 0 ≤ min (e.slopeNum * (s.toNat : Int)) (2 ^ 127 - 1) := by omega
  unfold map Fixes
  simp only [saturated, Int.tdiv_eq_ediv_of_nonneg minNonneg]
  have quotientNonneg := Int.ediv_nonneg minNonneg e.slopeDenWord.1.le
  have quotientLe := Int.ediv_le_self e.slopeDen minNonneg
  obtain ⟨offsetNonneg, offsetBelow⟩ := e.offsetWord
  by_cases fits : e.offsetNs + min (e.slopeNum * s.toNat) (2 ^ 127 - 1) / e.slopeDen < 2 ^ 127
  · rw [wrapI128_of_mem (by omega) fits, max_eq_left (by omega), truncateU64_eq_iff]
    exact (and_iff_right fits).symm
  · have wrapped : wrapI128
        (e.offsetNs + min (e.slopeNum * s.toNat) (2 ^ 127 - 1) / e.slopeDen) ≤ 0 := by
      rw [wrapI128_of_large (by omega) (by omega)]
      omega
    rw [max_eq_right wrapped, truncateU64_eq_iff]
    refine ⟨fun zero => ?_, fun fixed => absurd fixed.1 fits⟩
    have noProduct : (s.toNat : Int) = 0 := zero.symm
    rw [noProduct, mul_zero] at fits
    norm_num at fits
    omega

end SkewEntry

/-- `SkewTable`: the entries by node and GPU. -/
structure SkewTable where
  inner : UInt32 × UInt32 → Option SkewEntry

namespace SkewTable

/-- `SkewTable::new`. -/
def new : SkewTable := ⟨fun _ => none⟩

/-- `SkewTable::upsert` at the host time `now`. -/
def upsert (table : SkewTable) (now : UInt64) (c : ClockOffsetMessage) : SkewTable :=
  ⟨Function.update table.inner (c.nodeId, c.gpuId) (some (.ofMessage now c))⟩

/-- `SkewTable::map`: the identity when there is no entry. -/
def map (table : SkewTable) (nodeId gpuId : UInt32) (srcNs : UInt64) : UInt64 :=
  match table.inner (nodeId, gpuId) with
  | some e => e.map srcNs
  | none => srcNs

end SkewTable

end PerfWeave
