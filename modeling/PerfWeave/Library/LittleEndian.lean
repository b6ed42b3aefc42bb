/-
This file reads and writes little-endian numbers in a memory of bytes. A read sees the bytes it
covers and no others, so a write is read back in its own place and invisible elsewhere.
-/

import Mathlib

namespace PerfWeave

/-- The number in the `width` bytes from `offset` on, the first byte the least significant. -/
def readLE (bytes : Nat → UInt8) (offset : Nat) : Nat → Nat
  | 0 => 0
  | width + 1 => (bytes offset).toNat + 256 * readLE bytes (offset + 1) width

/-- A memory with a number in the `width` bytes from `offset` on. -/
def writeLE (bytes : Nat → UInt8) (offset width value : Nat) : Nat → UInt8 := fun index =>
  if offset ≤ index ∧ index < offset + width then UInt8.ofNat (value / 256 ^ (index - offset))
  else bytes index

/-- A read depends on the bytes it covers. -/
theorem readLE_congr {first second : Nat → UInt8} {offset width : Nat}
    (agree : ∀ index, offset ≤ index → index < offset + width → first index = second index) :
    readLE first offset width = readLE second offset width := by
  induction width generalizing offset with
  | zero => rfl
  | succ width inductionHypothesis =>
    have rest : readLE first (offset + 1) width = readLE second (offset + 1) width :=
      inductionHypothesis fun index low high => agree index (by omega) (by omega)
    rw [readLE, readLE, agree offset le_rfl (by omega), rest]

/-- What was written is read back, cut to its width. -/
theorem readLE_writeLE (bytes : Nat → UInt8) (offset width value : Nat) :
    readLE (writeLE bytes offset width value) offset width = value % 256 ^ width := by
  induction width generalizing offset value with
  | zero => rw [readLE, pow_zero, Nat.mod_one]
  | succ width inductionHypothesis =>
    have head : (writeLE bytes offset (width + 1) value offset).toNat = value % 256 := by
      unfold writeLE
      rw [if_pos (by omega), Nat.sub_self, pow_zero, Nat.div_one, UInt8.toNat_ofNat']
    have rest : readLE (writeLE bytes offset (width + 1) value) (offset + 1) width =
        readLE (writeLE bytes (offset + 1) width (value / 256)) (offset + 1) width := by
      refine readLE_congr fun index low high => ?_
      unfold writeLE
      rw [if_pos (by omega), if_pos (by omega), Nat.div_div_eq_div_mul, ← pow_succ',
        show index - (offset + 1) + 1 = index - offset by omega]
    rw [readLE, head, rest, inductionHypothesis, pow_succ', Nat.mod_mul]

/-- A write is invisible to a read that covers none of its bytes. -/
theorem readLE_writeLE_of_disjoint (bytes : Nat → UInt8) {offset width : Nat} (value : Nat)
    {other otherWidth : Nat} (disjoint : other + otherWidth ≤ offset ∨ offset + width ≤ other) :
    readLE (writeLE bytes offset width value) other otherWidth =
      readLE bytes other otherWidth := by
  refine readLE_congr fun index low high => ?_
  unfold writeLE
  rw [if_neg (by omega)]

/-! ### Lists of bytes -/

/-- The bytes of a number, the least significant first. -/
def toLeBytes (width value : Nat) : List UInt8 :=
  (List.range width).map (writeLE (fun _ => 0) 0 width value)

/-- The number in a list of bytes, the least significant first. -/
def fromLeBytes (bytes : List UInt8) : Nat :=
  readLE (fun index => bytes.getD index 0) 0 bytes.length

@[simp]
theorem length_toLeBytes (width value : Nat) : (toLeBytes width value).length = width := by
  rw [toLeBytes, List.length_map, List.length_range]

theorem fromLeBytes_toLeBytes (width value : Nat) :
    fromLeBytes (toLeBytes width value) = value % 256 ^ width := by
  rw [fromLeBytes, length_toLeBytes, ← readLE_writeLE (fun _ => 0) 0 width value]
  refine readLE_congr fun index _ high => ?_
  rw [Nat.zero_add] at high
  rw [toLeBytes, List.getD_eq_getElem?_getD, List.getElem?_map, List.getElem?_range high]
  rfl

end PerfWeave
