/-
This file fixes the machine arithmetic that goes beyond the word types of the core library:
128-bit signed integers as integers reduced after each operation, the saturating forms of the
same operations, and the casts between them and 64-bit words. The lemmas say when a reduction
is invisible.
-/

import Mathlib

namespace PerfWeave

/-! ### 128-bit signed integers -/

/-- The largest signed 128-bit integer. -/
def maxI128 : Int := 2 ^ 127 - 1

/-- The least signed 128-bit integer. -/
def minI128 : Int := -2 ^ 127

/-- Two's-complement reduction into 128 signed bits. -/
def wrapI128 (value : Int) : Int := value.bmod (2 ^ 128)

/-- The nearest signed 128-bit integer. -/
def saturateI128 (value : Int) : Int := max minI128 (min maxI128 value)

theorem wrapI128_of_mem {value : Int} (low : -2 ^ 127 ≤ value) (high : value < 2 ^ 127) :
    wrapI128 value = value :=
  Int.bmod_eq_of_le (by omega) (by omega)

theorem wrapI128_of_abs_lt {value : Int} (small : |value| < 2 ^ 127) : wrapI128 value = value := by
  have bounds := abs_lt.mp small
  exact wrapI128_of_mem bounds.1.le bounds.2

/-- The upper half of the 128-bit words is negative. -/
theorem wrapI128_of_large {value : Int} (low : 2 ^ 127 ≤ value) (high : value < 2 ^ 128) :
    wrapI128 value = value - 2 ^ 128 := by
  have reduced : value % ((2 ^ 128 : Nat) : Int) = value :=
    Int.emod_eq_of_lt (by omega) (by omega)
  rw [wrapI128, Int.bmod_def, reduced, if_neg (by omega)]
  omega

theorem saturateI128_of_mem {value : Int} (low : -2 ^ 127 ≤ value) (high : value < 2 ^ 127) :
    saturateI128 value = value := by
  unfold saturateI128 minI128 maxI128
  omega

theorem saturateI128_of_abs_lt {value : Int} (small : |value| < 2 ^ 127) :
    saturateI128 value = value := by
  have bounds := abs_lt.mp small
  exact saturateI128_of_mem bounds.1.le bounds.2

/-- Saturation of a nonnegative integer only cuts it from above. -/
theorem saturateI128_of_nonneg {value : Int} (nonneg : 0 ≤ value) :
    saturateI128 value = min value (2 ^ 127 - 1) := by
  unfold saturateI128 minI128 maxI128
  omega

/-! ### Checked operations -/

/-- A signed 128-bit integer. -/
def InI128 (value : Int) : Prop := -2 ^ 127 ≤ value ∧ value < 2 ^ 127

instance (value : Int) : Decidable (InI128 value) := inferInstanceAs (Decidable (_ ∧ _))

/-- The result of an operation; none when it overflows. -/
def checkI128 (value : Int) : Option Int := if InI128 value then some value else none

/-- The quotient, rounded towards zero; none for a divisor of zero, and when it overflows. -/
def checkedDiv (numerator denominator : Int) : Option Int :=
  if denominator = 0 then none else checkI128 (numerator.tdiv denominator)

theorem checkI128_of_mem {value : Int} (inRange : InI128 value) : checkI128 value = some value :=
  if_pos inRange

theorem checkI128_of_not_mem {value : Int} (outOfRange : ¬ InI128 value) :
    checkI128 value = none :=
  if_neg outOfRange

theorem isSome_checkI128_iff (value : Int) : (checkI128 value).isSome ↔ InI128 value := by
  unfold checkI128
  split
  · rename_i inRange
    exact iff_of_true rfl inRange
  · rename_i outOfRange
    exact iff_of_false Bool.false_ne_true outOfRange

theorem wrapI128_of_inI128 {value : Int} (inRange : InI128 value) : wrapI128 value = value :=
  wrapI128_of_mem inRange.1 inRange.2

theorem saturateI128_mem (value : Int) : InI128 (saturateI128 value) := by
  unfold saturateI128 InI128 minI128 maxI128
  omega

theorem tdiv_nonpos_of_nonpos {numerator denominator : Int} (nonpos : numerator ≤ 0)
    (nonneg : 0 ≤ denominator) : numerator.tdiv denominator ≤ 0 := by
  have flipped := Int.tdiv_nonneg (neg_nonneg.mpr nonpos) nonneg
  rw [Int.neg_tdiv] at flipped
  omega

/-- A quotient by a positive divisor is in range, and so is checked division by it. -/
theorem checkedDiv_of_pos {numerator denominator : Int} (inRange : InI128 numerator)
    (positive : 0 < denominator) :
    checkedDiv numerator denominator = some (numerator.tdiv denominator) := by
  have smaller := Int.natAbs_tdiv_le_natAbs numerator denominator
  have nonneg : 0 ≤ numerator → 0 ≤ numerator.tdiv denominator := fun nonneg =>
    Int.tdiv_nonneg nonneg positive.le
  have nonpos : numerator ≤ 0 → numerator.tdiv denominator ≤ 0 := fun nonpos =>
    tdiv_nonpos_of_nonpos nonpos positive.le
  obtain ⟨low, high⟩ := inRange
  rw [checkedDiv, if_neg positive.ne', checkI128_of_mem ⟨by omega, by omega⟩]

/-! ### Casts to 64-bit words -/

/-- The cast of an integer that keeps its low 64 bits. -/
def truncateU64 (value : Int) : UInt64 := UInt64.ofInt value

/-- The cast of an integer to the nearest 64-bit word. -/
def saturateU64 (value : Int) : UInt64 := UInt64.ofNat (min value.toNat (2 ^ 64 - 1))

/-- The difference of two words, zero when it is negative. -/
def saturatingSub (first second : UInt64) : UInt64 := UInt64.ofNat (first.toNat - second.toNat)

/-- The sum of two words; none when it overflows. -/
def checkedAdd (first second : UInt64) : Option UInt64 :=
  if first.toNat + second.toNat < 2 ^ 64 then some (first + second) else none

theorem toNat_saturatingSub (first second : UInt64) :
    (saturatingSub first second).toNat = first.toNat - second.toNat := by
  have below := first.toNat_lt
  rw [saturatingSub, UInt64.toNat_ofNat', Nat.mod_eq_of_lt (by omega)]

theorem saturatingSub_of_le {first second : UInt64} (ordered : second ≤ first) :
    saturatingSub first second = first - second := by
  rw [← UInt64.toNat_inj, toNat_saturatingSub, UInt64.toNat_sub_of_le _ _ ordered]

theorem saturatingSub_eq_zero_iff (first second : UInt64) :
    saturatingSub first second = 0 ↔ first ≤ second := by
  rw [← UInt64.toNat_inj, toNat_saturatingSub, UInt64.le_iff_toNat_le, UInt64.toNat_zero]
  omega

/-- A positive distance is kept exactly when it is kept without saturation. -/
theorem le_saturatingSub_iff {distance : UInt64} (positive : 0 < distance.toNat)
    (first second : UInt64) :
    distance ≤ saturatingSub first second ↔ second.toNat + distance.toNat ≤ first.toNat := by
  rw [UInt64.le_iff_toNat_le, toNat_saturatingSub]
  omega

theorem toNat_truncateU64 (value : Int) : ((truncateU64 value).toNat : Int) = value % 2 ^ 64 := by
  have nonneg : 0 ≤ value % 2 ^ 64 := Int.emod_nonneg _ (by decide)
  have below : value % 2 ^ 64 < 2 ^ 64 := Int.emod_lt_of_pos _ (by decide)
  have small : (value % 2 ^ 64).toNat < 2 ^ 64 := by omega
  unfold truncateU64 UInt64.ofInt
  rw [UInt64.toNat_ofNat', Nat.mod_eq_of_lt small, Int.toNat_of_nonneg nonneg]

theorem toNat_truncateU64_of_mem {value : Int} (nonneg : 0 ≤ value) (below : value < 2 ^ 64) :
    ((truncateU64 value).toNat : Int) = value := by
  rw [toNat_truncateU64, Int.emod_eq_of_lt nonneg below]

theorem toNat_saturateU64 (value : Int) :
    (saturateU64 value).toNat = min value.toNat (2 ^ 64 - 1) := by
  have small : min value.toNat (2 ^ 64 - 1) < 2 ^ 64 := by omega
  rw [saturateU64, UInt64.toNat_ofNat', Nat.mod_eq_of_lt small]

/-- A word is the cast of an integer exactly when the integer is congruent to it. -/
theorem truncateU64_eq_iff (value : Int) (word : UInt64) :
    truncateU64 value = word ↔ value % 2 ^ 64 = word.toNat := by
  rw [← UInt64.toNat_inj, ← toNat_truncateU64]
  omega

end PerfWeave
