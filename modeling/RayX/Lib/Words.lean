import Mathlib.Algebra.BigOperators.Group.List.Basic
import Mathlib.Algebra.Group.Int.Defs
import Mathlib.Algebra.Group.Nat.Defs
import Mathlib.Data.Int.Bitwise
import RayX.Lib.Ranges

/-!
# Words of unbounded integers

A 64-bit word is an integer mod `2 ^ 64`: what a computation on words gives is the word of what the
same computation gives on unbounded integers.

* `toUInt64_eq`, `ofInt_xor`, `ofInt_shift`   a signed word, a xor and a shift;
* `toInt_word`                                a word read as signed;
* `counter`, `counter_toInt`                  a signed loop variable counts the integers of its range;
* `wordSum`, `wordSum_eq`, `wordSum_perm`     **a sum of words is the word of the sum**, in any order;
* `foldl_emod`                                an accumulator that is masked at every step.
-/

namespace Sys

theorem ofInt_toBitVec (x : Int) : (UInt64.ofInt x).toBitVec = BitVec.ofInt 64 x := by
  apply BitVec.eq_of_toNat_eq
  rw [BitVec.toNat_ofInt]
  show (UInt64.ofNat (x % 2 ^ 64).toNat).toNat = _
  rw [UInt64.toNat_ofNat']
  omega

theorem toNat_ofInt (x : Int) : (UInt64.ofInt x).toNat = (x % 2 ^ 64).toNat := by
  show (UInt64.ofNat (x % 2 ^ 64).toNat).toNat = _
  rw [UInt64.toNat_ofNat']
  omega

theorem toUInt64_eq (x : Int64) : x.toUInt64 = UInt64.ofInt x.toInt := by
  apply UInt64.toBitVec_inj.mp
  rw [ofInt_toBitVec]
  exact (BitVec.ofInt_toInt (x := x.toBitVec)).symm

theorem ofNat_eq (n : Nat) : UInt64.ofNat n = UInt64.ofInt n := by
  apply UInt64.toNat_inj.mp
  rw [toNat_ofInt, UInt64.toNat_ofNat']
  omega

/-- the cast of a word to 32 bits -/
theorem toUInt32_ofInt (x : Int) : (UInt64.ofInt x).toUInt32 = UInt32.ofInt x := by
  apply UInt32.toNat_inj.mp
  show _ = (UInt32.ofNat (x % 2 ^ 32).toNat).toNat
  rw [UInt64.toNat_toUInt32, toNat_ofInt, UInt32.toNat_ofNat']
  omega

/-- the two's complement xor of a negative number is that of its complement -/
theorem ofInt_xor (x : Int) (c : Nat) :
    UInt64.ofInt (Int.xor x c) = UInt64.ofInt x ^^^ UInt64.ofNat c := by
  apply UInt64.toBitVec_inj.mp
  rw [UInt64.toBitVec_xor, ofInt_toBitVec, ofInt_toBitVec]
  have hc : (UInt64.ofNat c).toBitVec = BitVec.ofNat 64 c := rfl
  have hxor : ∀ n : Nat, BitVec.ofNat 64 (n ^^^ c) = BitVec.ofNat 64 n ^^^ BitVec.ofNat 64 c := by
    intro n
    apply BitVec.eq_of_toNat_eq
    rw [BitVec.toNat_xor, BitVec.toNat_ofNat, BitVec.toNat_ofNat, BitVec.toNat_ofNat,
      Nat.xor_mod_two_pow]
  rw [hc]
  cases x with
  | ofNat n =>
    show BitVec.ofInt 64 ((n ^^^ c : Nat) : Int) = BitVec.ofInt 64 (n : Int) ^^^ _
    rw [BitVec.ofInt_natCast, BitVec.ofInt_natCast, hxor]
  | negSucc n =>
    show BitVec.ofInt 64 (Int.negSucc (n ^^^ c)) = BitVec.ofInt 64 (Int.negSucc n) ^^^ _
    rw [BitVec.ofInt_negSucc_eq_not_ofNat, BitVec.ofInt_negSucc_eq_not_ofNat, hxor,
      BitVec.not_xor_left]

theorem ofInt_shift (x : Int) : UInt64.ofInt x <<< 1 = UInt64.ofInt (2 * x) := by
  rw [UInt64.ofInt_mul]
  apply UInt64.toNat_inj.mp
  have h1 : (1 : UInt64).toNat = 1 := rfl
  have h2 : (UInt64.ofInt 2).toNat = 2 := rfl
  rw [UInt64.toNat_shiftLeft, UInt64.toNat_mul, h1, h2, Nat.shiftLeft_eq, Nat.mul_comm]

/-- the word of `x` read as signed -/
theorem toInt_word (x : Int) : (UInt64.ofInt x).toInt64.toInt = x.bmod (2 ^ 64) := by
  have h : (UInt64.ofInt x).toInt64.toInt = (UInt64.ofInt x).toBitVec.toInt := rfl
  rw [h, ofInt_toBitVec, BitVec.toInt_ofInt]

/-- the values of `t` in `for (t = lo; t < hi; ++t)` -/
def counter (lo hi : Int64) : List Int64 :=
  (List.range (hi.toInt - lo.toInt).toNat).map fun j => lo + Int64.ofNat j

theorem counter_toInt (lo hi : Int64) : (counter lo hi).map Int64.toInt = span lo.toInt hi.toInt := by
  rw [counter, span, List.map_map]
  refine List.map_congr_left fun j hj => ?_
  have hj := List.mem_range.mp hj
  have hlo := Int64.le_toInt lo
  have hhi := Int64.toInt_lt hi
  have hof : (Int64.ofNat j).toInt = (j : Int).bmod (2 ^ 64) := Int64.toInt_ofNat'
  show (lo + Int64.ofNat j).toInt = lo.toInt + j
  rw [Int64.toInt_add, hof, Int.add_bmod_bmod]
  exact Int.bmod_eq_of_le (by omega) (by omega)

theorem counter_length (lo hi : Int64) : (counter lo hi).length = (hi.toInt - lo.toInt).toNat := by
  rw [counter, List.length_map, List.length_range]

theorem counter_nodup (lo hi : Int64) : (counter lo hi).Nodup := by
  have h : ((counter lo hi).map Int64.toInt).Nodup := by
    rw [counter_toInt]
    exact span_nodup _ _
  exact List.Nodup.of_map _ h

/-- the range of a counter is cut anywhere -/
theorem counter_append {lo split hi : Int64} (h1 : lo ≤ split) (h2 : split ≤ hi) :
    counter lo split ++ counter split hi = counter lo hi := by
  have hinj : Function.Injective Int64.toInt := fun a b => Int64.toInt_inj.mp
  apply List.map_injective_iff.mpr hinj
  rw [List.map_append, counter_toInt, counter_toInt, counter_toInt]
  exact span_append (Int64.le_iff_toInt_le.mp h1) (Int64.le_iff_toInt_le.mp h2)

/-! ## sums -/

/-- an accumulator that wraps around -/
def wordSum (l : List UInt64) : UInt64 := l.foldl (· + ·) 0

theorem wordSum_eq {ι : Type} (f : ι → Int) (l : List ι) :
    wordSum (l.map fun i => UInt64.ofInt (f i)) = UInt64.ofInt (l.map f).sum := by
  -- from any accumulator on
  have hacc : ∀ a : Int, (l.map fun i => UInt64.ofInt (f i)).foldl (· + ·) (UInt64.ofInt a)
      = UInt64.ofInt (a + (l.map f).sum) := by
    induction l with
    | nil =>
      intro a
      show UInt64.ofInt a = UInt64.ofInt (a + 0)
      rw [Int.add_zero]
    | cons i l ih =>
      intro a
      rw [List.map_cons, List.foldl_cons, ← UInt64.ofInt_add, ih, List.map_cons, List.sum_cons,
        Int.add_assoc]
  have h := hacc 0
  rw [Int.zero_add] at h
  exact h

/-- steps that add `f i` mod `m` sum `f` mod `m` -/
theorem foldl_emod {ι : Type} {m : Int} {g : Int → ι → Int} {f : ι → Int} {l : List ι}
    (h : ∀ i ∈ l, ∀ a, g a i % m = (a + f i) % m) (a : Int) :
    l.foldl g a % m = (a + (l.map f).sum) % m := by
  induction l generalizing a with
  | nil =>
    show a % m = (a + 0) % m
    rw [Int.add_zero]
  | cons i l ih =>
    rw [List.foldl_cons, ih fun j hj => h j (List.mem_cons_of_mem i hj), ← Int.emod_add_emod,
      h i List.mem_cons_self, Int.emod_add_emod, List.map_cons, List.sum_cons, Int.add_assoc]

theorem wordSum_perm {l l' : List UInt64} (h : l.Perm l') : wordSum l = wordSum l' := by
  have hof : ∀ l : List UInt64, l = l.map fun w => UInt64.ofInt w.toNat := by
    intro l
    refine (List.map_id l).symm.trans (List.map_congr_left fun w _ => ?_)
    rw [← ofNat_eq]
    exact UInt64.ofNat_toNat.symm
  rw [hof l, hof l', wordSum_eq, wordSum_eq, (h.map fun w : UInt64 => (w.toNat : Int)).sum_eq]

end Sys
