import Mathlib.Algebra.Group.Int.Defs

/-!
# Counters in an `int`

A program counts up and down by one in a 32-bit `int`, and compares with zero.  Up to the last value the
counter is the number it stands for; one more wraps around.
-/

namespace Sys
variable {c : Int32}

theorem int32_pos : 0 < c ↔ 0 < c.toInt := by
  rw [Int32.lt_iff_toInt_lt, Int32.toInt_zero]

theorem int32_zero : c = 0 ↔ c.toInt = 0 := by
  rw [← Int32.toInt_inj, Int32.toInt_zero]

theorem int32_succ (h : c.toInt < 2 ^ 31 - 1) : (c + 1).toInt = c.toInt + 1 := by
  have hlow := c.le_toInt
  rw [Int32.toInt_add]
  exact Int.bmod_eq_of_le (by rw [Int32.toInt_one]; omega) (by rw [Int32.toInt_one]; omega)

theorem int32_pred (h : 0 < c.toInt) : (c - 1).toInt = c.toInt - 1 := by
  have hhigh := c.toInt_lt
  rw [Int32.toInt_sub]
  exact Int.bmod_eq_of_le (by rw [Int32.toInt_one]; omega) (by rw [Int32.toInt_one]; omega)

/-- one more than the last value -/
theorem int32_wraps (h : ¬ c.toInt < 2 ^ 31 - 1) : (c + 1).toInt = -2 ^ 31 := by
  have hhigh := c.toInt_lt
  have hlast : c.toInt = 2 ^ 31 - 1 := by omega
  rw [Int32.toInt_add, hlast, Int32.toInt_one]
  decide

end Sys
