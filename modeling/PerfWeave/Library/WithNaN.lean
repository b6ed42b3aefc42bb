/-
This file adds one element that is not a number to an arithmetic. An operation with it results in
it, and a comparison with it is false; on numbers the operations and comparisons are the ones that
were there. An operation without a result on its numbers has none here either.
-/

import PerfWeave.Library.PartialArithmetic

namespace PerfWeave

open PartialArithmetic

/-- Numbers and one element that is not a number. -/
inductive WithNaN (Number : Type) where
  | num (x : Number)
  | nan

namespace WithNaN

variable {Number : Type}

/-- An operation on numbers; with `nan` it results in `nan`. -/
def operate (operation : Number → Number → Number) :
    WithNaN Number → WithNaN Number → WithNaN Number
  | num x, num y => num (operation x y)
  | _, _ => nan

/-- A comparison of numbers; with `nan` it is false. -/
def Compares (relation : Number → Number → Prop) : WithNaN Number → WithNaN Number → Prop
  | num x, num y => relation x y
  | _, _ => False

instance (relation : Number → Number → Prop) [DecidableRel relation] (x y : WithNaN Number) :
    Decidable (Compares relation x y) :=
  match x, y with
  | num x, num y => inferInstanceAs (Decidable (relation x y))
  | num _, nan => inferInstanceAs (Decidable False)
  | nan, num _ => inferInstanceAs (Decidable False)
  | nan, nan => inferInstanceAs (Decidable False)

instance [Zero Number] : Zero (WithNaN Number) := ⟨num 0⟩

instance [Add Number] : Add (WithNaN Number) := ⟨operate (· + ·)⟩

instance [Sub Number] : Sub (WithNaN Number) := ⟨operate (· - ·)⟩

instance [Mul Number] : Mul (WithNaN Number) := ⟨operate (· * ·)⟩

instance [NatCast Number] : NatCast (WithNaN Number) := ⟨fun count => num count⟩

instance [OfScientific Number] : OfScientific (WithNaN Number) :=
  ⟨fun mantissa negative exponent => num (OfScientific.ofScientific mantissa negative exponent)⟩

instance [LT Number] : LT (WithNaN Number) := ⟨Compares (· < ·)⟩

instance [LE Number] : LE (WithNaN Number) := ⟨Compares (· ≤ ·)⟩

instance [LT Number] [DecidableLT Number] : DecidableLT (WithNaN Number) :=
  fun x y => inferInstanceAs (Decidable (Compares (· < ·) x y))

instance [LE Number] [DecidableLE Number] : DecidableLE (WithNaN Number) :=
  fun x y => inferInstanceAs (Decidable (Compares (· ≤ ·) x y))

instance [PartialArithmetic Number] : PartialArithmetic (WithNaN Number) where
  abs
    | num x => num (abs x)
    | nan => nan
  quotient
    | num x, num y => (quotient x y).map num
    | _, _ => some nan
  squareRoot
    | num x => (squareRoot x).map num
    | nan => some nan

/-! ### Numbers -/

theorem zero_eq [Zero Number] : (0 : WithNaN Number) = num 0 := rfl

theorem natCast_eq [NatCast Number] (count : Nat) :
    (count : WithNaN Number) = num (count : Number) :=
  rfl

theorem num_add [Add Number] (x y : Number) : num x + num y = num (x + y) := rfl

theorem num_sub [Sub Number] (x y : Number) : num x - num y = num (x - y) := rfl

theorem num_mul [Mul Number] (x y : Number) : num x * num y = num (x * y) := rfl

theorem num_lt_num [LT Number] (x y : Number) : num x < num y ↔ x < y := Iff.rfl

theorem abs_num [PartialArithmetic Number] (x : Number) : abs (num x) = num (abs x) := rfl

theorem quotient_num [PartialArithmetic Number] (x y : Number) :
    quotient (num x) (num y) = (quotient x y).map num := rfl

/-! ### Not a number -/

theorem add_eq_nan_iff [Add Number] (x y : WithNaN Number) : x + y = nan ↔ x = nan ∨ y = nan := by
  cases x <;> cases y
  case num.num => exact iff_of_false nofun nofun
  all_goals exact iff_of_true rfl (by simp)

theorem sub_eq_nan_iff [Sub Number] (x y : WithNaN Number) : x - y = nan ↔ x = nan ∨ y = nan := by
  cases x <;> cases y
  case num.num => exact iff_of_false nofun nofun
  all_goals exact iff_of_true rfl (by simp)

theorem mul_eq_nan_iff [Mul Number] (x y : WithNaN Number) : x * y = nan ↔ x = nan ∨ y = nan := by
  cases x <;> cases y
  case num.num => exact iff_of_false nofun nofun
  all_goals exact iff_of_true rfl (by simp)

theorem not_lt_nan [LT Number] (x : WithNaN Number) : ¬ x < nan := by
  cases x <;> exact id

theorem quotient_nan_left [PartialArithmetic Number] (y : WithNaN Number) :
    quotient nan y = some nan := by
  cases y <;> rfl

theorem quotient_nan_right [PartialArithmetic Number] (x : WithNaN Number) :
    quotient x nan = some nan := by
  cases x <;> rfl

theorem squareRoot_nan [PartialArithmetic Number] : squareRoot (nan : WithNaN Number) = some nan :=
  rfl

/-- What a number other than zero divides has a quotient. -/
theorem exists_quotient (x : WithNaN ℝ) {y : ℝ} (nonzero : y ≠ 0) :
    ∃ q, quotient x (num y) = some q := by
  cases x with
  | num x => exact ⟨_, by rw [quotient_num, quotient_of_ne_zero x nonzero, Option.map_some]⟩
  | nan => exact ⟨_, quotient_nan_left _⟩

/-- What is not at most zero divides. -/
theorem exists_quotient_of_not_le (x : WithNaN ℝ) {y : WithNaN ℝ} (deviates : ¬ y ≤ 0) :
    ∃ q, quotient x y = some q := by
  cases y with
  | num y => exact exists_quotient x fun zero => deviates (zero ▸ le_refl (0 : ℝ))
  | nan => exact ⟨_, quotient_nan_right x⟩

end WithNaN

end PerfWeave
