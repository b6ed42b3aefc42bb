/-
This file builds the rounding of natural numbers to a number of significant bits, ties to even,
as it happens to an integer that is stored in a floating-point number whose exponent has room for
it. A rounded number fits, no number that fits is closer, and so exactly the numbers that fit
round to themselves.

The second part rounds rationals in the same way, as it happens to the result of an operation on
such numbers; on natural numbers it is the first.
-/

import Mathlib

namespace PerfWeave

/-- The weight of the last significant bit of a number. -/
def lastBit (bits n : Nat) : Nat := 2 ^ (n.log2 + 1 - bits)

/-- The nearest number with at most `bits` significant bits, ties to even. -/
def roundSignificant (bits n : Nat) : Nat :=
  let unit := lastBit bits n
  if 2 * (n % unit) < unit ∨ 2 * (n % unit) = unit ∧ n / unit % 2 = 0 then n / unit * unit
  else (n / unit + 1) * unit

/-- A number has at most `bits` significant bits. -/
def FitsIn (bits n : Nat) : Prop :=
  ∃ significand exponent, significand < 2 ^ bits ∧ n = significand * 2 ^ exponent

theorem lastBit_pos (bits n : Nat) : 0 < lastBit bits n := Nat.two_pow_pos _

/-- The bits of a number before its last significant one make a significand. -/
theorem div_lastBit_lt {bits n : Nat} : n / lastBit bits n < 2 ^ bits := by
  rw [Nat.div_lt_iff_lt_mul (lastBit_pos bits n), lastBit, ← Nat.pow_add]
  exact Nat.lt_log2_self.trans_le (Nat.pow_le_pow_right (by decide) (by omega))

/-- A multiple of the last significant bit within the range of the significand fits. -/
theorem fitsIn_mul_lastBit {bits : Nat} (positive : 0 < bits) (n : Nat) {multiple : Nat}
    (bounded : multiple ≤ 2 ^ bits) : FitsIn bits (multiple * lastBit bits n) := by
  rcases Nat.lt_or_eq_of_le bounded with below | full
  · exact ⟨multiple, _, below, rfl⟩
  · refine ⟨1, bits + (n.log2 + 1 - bits), Nat.one_lt_two_pow positive.ne', ?_⟩
    rw [full, lastBit, ← Nat.pow_add, Nat.one_mul]

theorem roundSignificant_cases (bits n : Nat) :
    roundSignificant bits n = n / lastBit bits n * lastBit bits n ∨
      roundSignificant bits n = (n / lastBit bits n + 1) * lastBit bits n := ite_eq_or_eq _ _ _

theorem fitsIn_roundSignificant {bits : Nat} (positive : 0 < bits) (n : Nat) :
    FitsIn bits (roundSignificant bits n) := by
  rcases roundSignificant_cases bits n with down | up
  · rw [down]
    exact fitsIn_mul_lastBit positive n div_lastBit_lt.le
  · rw [up]
    exact fitsIn_mul_lastBit positive n div_lastBit_lt

/-- Rounding goes to the nearer multiple of the last significant bit. -/
theorem dist_roundSignificant_le (bits n : Nat) :
    n.dist (roundSignificant bits n) ≤ n % lastBit bits n ∧
      n.dist (roundSignificant bits n) ≤ lastBit bits n - n % lastBit bits n := by
  have positive := lastBit_pos bits n
  have split := Nat.div_add_mod' n (lastBit bits n)
  have below := Nat.mod_lt n positive
  unfold roundSignificant Nat.dist
  dsimp only
  rw [Nat.add_mul]
  split_ifs <;> omega

/-- A number that fits and is no multiple of another one's last significant bit is too small to be
its significand's. -/
theorem lt_div_mul_lastBit_of_fitsIn {bits n m : Nat} (positive : 0 < bits)
    (fits : FitsIn bits m) (fine : ¬ lastBit bits n ∣ m) :
    m < n / lastBit bits n * lastBit bits n := by
  obtain ⟨significand, exponent, bounded, rfl⟩ := fits
  have smaller : exponent < n.log2 + 1 - bits := by
    by_contra coarse
    exact fine ((Nat.pow_dvd_pow 2 (not_lt.mp coarse)).trans (Nat.dvd_mul_left _ _))
  have leading : 2 ^ (bits - 1) * lastBit bits n = 2 ^ n.log2 := by
    rw [lastBit, ← Nat.pow_add]
    congr 1
    omega
  have nonzero : n ≠ 0 := by
    rintro rfl
    rw [Nat.log2_zero] at smaller
    omega
  have atLeast : 2 ^ (bits - 1) ≤ n / lastBit bits n := by
    rw [Nat.le_div_iff_mul_le (lastBit_pos bits n), leading]
    exact Nat.log2_self_le nonzero
  calc significand * 2 ^ exponent < 2 ^ bits * 2 ^ exponent :=
        Nat.mul_lt_mul_of_pos_right bounded (Nat.two_pow_pos _)
    _ = 2 ^ (bits + exponent) := (Nat.pow_add 2 bits exponent).symm
    _ ≤ 2 ^ n.log2 := Nat.pow_le_pow_right (by decide) (by omega)
    _ = 2 ^ (bits - 1) * lastBit bits n := leading.symm
    _ ≤ n / lastBit bits n * lastBit bits n := Nat.mul_le_mul_right _ atLeast

/-- No number that fits is closer than the rounded one. -/
theorem dist_roundSignificant_le_of_fitsIn {bits : Nat} (positive : 0 < bits) (n : Nat) {m : Nat}
    (fits : FitsIn bits m) : n.dist (roundSignificant bits n) ≤ n.dist m := by
  obtain ⟨nearDown, nearUp⟩ := dist_roundSignificant_le bits n
  have split := Nat.div_add_mod' n (lastBit bits n)
  have distance : n.dist m = (n - m) + (m - n) := rfl
  by_cases coarse : lastBit bits n ∣ m
  · obtain ⟨multiple, rfl⟩ := coarse
    rw [Nat.mul_comm] at distance ⊢
    by_cases below : multiple ≤ n / lastBit bits n
    · have atMost := Nat.mul_le_mul_right (lastBit bits n) below
      omega
    · have atLeast := Nat.mul_le_mul_right (lastBit bits n) (not_le.mp below)
      rw [Nat.succ_mul] at atLeast
      omega
  · have smaller := lt_div_mul_lastBit_of_fitsIn positive fits coarse
    omega

/-- Rounding does not go past a number that fits. -/
theorem roundSignificant_le_of_fitsIn {bits n m : Nat} (positive : 0 < bits)
    (fits : FitsIn bits m) (below : n ≤ m) : roundSignificant bits n ≤ m := by
  have nearest := dist_roundSignificant_le_of_fitsIn positive n fits
  rw [Nat.dist_eq_sub_of_le below] at nearest
  by_contra past
  rw [Nat.dist_eq_sub_of_le (below.trans (Nat.le_of_not_le past))] at nearest
  omega

/-- The numbers that fit are those that rounding leaves alone. -/
theorem roundSignificant_eq_self_iff {bits : Nat} (positive : 0 < bits) (n : Nat) :
    roundSignificant bits n = n ↔ FitsIn bits n := by
  constructor
  · intro same
    rw [← same]
    exact fitsIn_roundSignificant positive n
  · intro fits
    have nearest := dist_roundSignificant_le_of_fitsIn positive n fits
    rw [Nat.dist_self] at nearest
    exact (Nat.eq_of_dist_eq_zero (Nat.le_zero.mp nearest)).symm

/-- A number of few bits fits. -/
theorem fitsIn_of_lt {bits n : Nat} (small : n < 2 ^ bits) : FitsIn bits n :=
  ⟨n, 0, small, (Nat.mul_one n).symm⟩

theorem roundSignificant_of_lt {bits n : Nat} (positive : 0 < bits) (small : n < 2 ^ bits) :
    roundSignificant bits n = n :=
  (roundSignificant_eq_self_iff positive n).mpr (fitsIn_of_lt small)

/-! ### Rationals -/

/-- The nearest integer, ties to even. -/
def roundHalfEven (x : ℚ) : Int :=
  if Int.fract x < 1 / 2 ∨ Int.fract x = 1 / 2 ∧ ⌊x⌋ % 2 = 0 then ⌊x⌋ else ⌊x⌋ + 1

/-- The weight of the last significant bit of a rational. -/
def lastBitOf (bits : Nat) (x : ℚ) : ℚ := 2 ^ (Int.log 2 |x| + 1 - bits)

/-- The nearest rational with at most `bits` significant bits, ties to even. -/
def roundRational (bits : Nat) (x : ℚ) : ℚ :=
  roundHalfEven (x / lastBitOf bits x) * lastBitOf bits x

end PerfWeave
