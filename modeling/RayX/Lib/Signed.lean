import Mathlib.Algebra.Group.Int.Defs
import Mathlib.Algebra.Group.Nat.Defs
import Mathlib.Logic.Basic

/-!
# Signed arithmetic without wrap-around

The signed expressions of a language that leaves an overflow undefined: `none` is an expression
without a value, an overflow or a division by zero.

* `InRange`, `exact`                    the range of a 64-bit word, and the word of an exact value;
* `addS`, `subS`, `mulS`, `divS`, `modS`   the 64-bit expressions, `intS` a 32-bit one;
* `addS_eq`, …                          an expression that fits has the value that wraps around;
* `toInt_div_of_nonneg`, `toInt_mod_of_nonneg`   a quotient and a remainder of words that are not negative;
* `countS`                              a counter that is incremented `r` times.
-/

namespace Sys

/-- the range of `int64` -/
def InRange (x : Int) : Prop := -2 ^ 63 ≤ x ∧ x < 2 ^ 63

instance (x : Int) : Decidable (InRange x) := inferInstanceAs (Decidable (_ ∧ _))

/-- the word whose exact value is `x` -/
def exact (x : Int) : Option Int64 := if InRange x then some (Int64.ofInt x) else none

def addS (x y : Int64) : Option Int64 := exact (x.toInt + y.toInt)
def subS (x y : Int64) : Option Int64 := exact (x.toInt - y.toInt)
def mulS (x y : Int64) : Option Int64 := exact (x.toInt * y.toInt)

def divS (x y : Int64) : Option Int64 :=
  if y = 0 then none else exact (x.toInt.tdiv y.toInt)

/-- the remainder is undefined where the quotient is -/
def modS (x y : Int64) : Option Int64 := (divS x y).map fun _ => x % y

/-- a 32-bit expression of exact value `x` -/
def intS (x : Int) : Option Int := if -2 ^ 31 ≤ x ∧ x < 2 ^ 31 then some x else none

theorem some_bind {α β : Type} {x : Option α} {a : α} (h : x = some a) (f : α → Option β) :
    x >>= f = f a := by
  rw [h]
  rfl

theorem inRange_toInt (x : Int64) : InRange x.toInt := ⟨Int64.le_toInt x, Int64.toInt_lt x⟩

theorem exact_eq {x : Int} {v : Int64} (h : InRange x) (hv : v.toInt = x.bmod (2 ^ 64)) :
    exact x = some v := by
  rw [exact, if_pos h]
  congr 1
  rw [← Int64.toInt_inj, hv, Int64.toInt_ofInt_of_le h.1 h.2]
  exact (Int.bmod_eq_of_le (by have := h.1; omega) (by have := h.2; omega)).symm

theorem addS_eq {x y : Int64} (h : InRange (x.toInt + y.toInt)) : addS x y = some (x + y) :=
  exact_eq h (Int64.toInt_add x y)

theorem subS_eq {x y : Int64} (h : InRange (x.toInt - y.toInt)) : subS x y = some (x - y) :=
  exact_eq h (Int64.toInt_sub x y)

theorem mulS_eq {x y : Int64} (h : InRange (x.toInt * y.toInt)) : mulS x y = some (x * y) :=
  exact_eq h (Int64.toInt_mul x y)

/-- a word above zero is none of the divisors that leave a quotient undefined -/
theorem ne_of_toInt_pos {y : Int64} (h : 0 < y.toInt) : y ≠ 0 ∧ y ≠ -1 := by
  constructor
  · rintro rfl
    exact absurd h (by decide)
  · rintro rfl
    exact absurd h (by decide)

theorem toInt_div_of_nonneg {x y : Int64} (hx : 0 ≤ x.toInt) (hy : 0 < y.toInt) :
    (x / y).toInt = x.toInt / y.toInt := by
  rw [Int64.toInt_div_of_ne_right x y (ne_of_toInt_pos hy).2]
  exact Int.tdiv_eq_ediv_of_nonneg hx

theorem toInt_mod_of_nonneg {x : Int64} (y : Int64) (hx : 0 ≤ x.toInt) :
    (x % y).toInt = x.toInt % y.toInt := by
  rw [Int64.toInt_mod]
  exact Int.tmod_eq_emod_of_nonneg hx

/-- a division by anything but `0` and `-1` has a value -/
theorem divS_eq {x y : Int64} (h0 : y ≠ 0) (h1 : y ≠ -1) : divS x y = some (x / y) := by
  have hdiv := Int64.toInt_div_of_ne_right x y h1
  rw [divS, if_neg h0, ← hdiv]
  refine exact_eq (inRange_toInt _) ?_
  have h := inRange_toInt (x / y)
  exact (Int.bmod_eq_of_le (by have := h.1; omega) (by have := h.2; omega)).symm

theorem modS_eq {x y : Int64} (h0 : y ≠ 0) (h1 : y ≠ -1) : modS x y = some (x % y) := by
  rw [modS, divS_eq h0 h1]
  rfl

theorem intS_eq {x : Int} (h0 : 0 ≤ x) (h1 : x < 2 ^ 31) : intS x = some x := if_pos ⟨by omega, h1⟩

/-- `r` increments of a counter -/
def countS : Nat → Int64 → Option Int64
  | 0, j => some j
  | r + 1, j => (addS j 1).bind (countS r)

theorem succ_inRange {j : Int64} {r : Nat} (h : j.toInt + (r + 1 : Nat) < 2 ^ 63) :
    InRange (j.toInt + (1 : Int64).toInt) := by
  have h1 : (1 : Int64).toInt = 1 := rfl
  have hlo := Int64.le_toInt j
  rw [h1]
  constructor <;> omega

theorem toInt_succ {j : Int64} (h : InRange (j.toInt + (1 : Int64).toInt)) :
    (j + 1).toInt = j.toInt + 1 := by
  rw [Int64.toInt_add]
  exact Int.bmod_eq_of_le (by have := h.1; omega) (by have := h.2; omega)

theorem countS_eq (r : Nat) {j : Int64} (h : j.toInt + r < 2 ^ 63) : ∃ j', countS r j = some j' := by
  induction r generalizing j with
  | zero => exact ⟨j, rfl⟩
  | succ r ih =>
    have hin := succ_inRange h
    obtain ⟨j', hj'⟩ := ih (j := j + 1) (by rw [toInt_succ hin]; omega)
    refine ⟨j', ?_⟩
    rw [countS, addS_eq hin]
    exact hj'

end Sys
