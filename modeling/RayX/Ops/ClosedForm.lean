import Mathlib.Algebra.Group.Int.Defs
import Mathlib.Data.Nat.Choose.Basic
import Mathlib.Data.Nat.ModEq
import Mathlib.RingTheory.Int.Basic
import Mathlib.Tactic.Ring
import RayX.Lib.Signed
import RayX.Ops.Registry

/-!
# `busy_sum` against its closed form

The masked loop adds `0, 1, 2, ..` up to `n`, so its value should be `n (n - 1) / 2` mod `2^31`.

* `triangle_mod_iff`      two triangle numbers of one residue mod `2^k`, read off their indices;
* `maskedSteps_toNat`     a run of masked rounds goes from one triangle number to a later one;
* `ChunkExact`            the index arithmetic of one chunk stays inside `int64`;
* `busySumCheckpoints_eq` the count is the ceiling of `n / 8192` between `1` and `INT_MAX`, so the
                          chunks cover `0 .. min n reach - 1`, each index once;
* `busySum_closed_form`   **the value is the closed form if and only if the clamp of the count does
                          not cut the sum short, or cuts off a multiple of `2^31`.**
-/

namespace RayX
open Sys

/-! ## triangle numbers -/

/-- `0 + 1 + .. + (m - 1)` -/
def triangle (m : Nat) : Nat := m * (m - 1) / 2

theorem triangle_succ (m : Nat) : triangle (m + 1) = triangle m + m := Nat.triangle_succ m

theorem two_mul_triangle (m : Nat) : (2 * triangle m : Int) = m * (m - 1) := by
  induction m with
  | zero => rfl
  | succ m ih =>
    rw [triangle_succ]
    push_cast
    rw [mul_add, ih]
    ring

/-- twice the distance of two triangle numbers, factored -/
theorem two_mul_triangle_sub (n m : Nat) :
    2 * ((triangle n : Int) - triangle m) = ((n : Int) - m) * (n + m - 1) := by
  rw [mul_sub, two_mul_triangle, two_mul_triangle]
  ring

/-- of two factors of different parity, a power of two divides one alone -/
theorem two_pow_dvd_mul {k : Nat} {a b : Int} (h : (a + b) % 2 = 1) :
    (2 ^ k : Int) ∣ a * b ↔ (2 ^ k : Int) ∣ a ∨ (2 ^ k : Int) ∣ b := by
  constructor
  · intro hab
    by_cases ha : a % 2 = 1
    · have hcop : IsCoprime ((2 : Int) ^ k) a :=
        IsCoprime.pow_left (Int.isCoprime_two_left.2 (Int.odd_iff.2 ha))
      exact Or.inr (hcop.dvd_of_dvd_mul_left hab)
    · have hb : b % 2 = 1 := by omega
      have hcop : IsCoprime ((2 : Int) ^ k) b :=
        IsCoprime.pow_left (Int.isCoprime_two_left.2 (Int.odd_iff.2 hb))
      exact Or.inl (hcop.dvd_of_dvd_mul_right hab)
  · rintro (h | h)
    · exact Dvd.dvd.mul_right h b
    · exact Dvd.dvd.mul_left h a

/-- **Two triangle numbers agree mod `2^k`** when `2^(k+1)` divides the distance of their indices,
or their sum less one. -/
theorem triangle_mod_iff (k n m : Nat) : triangle n % 2 ^ k = triangle m % 2 ^ k ↔
    (2 ^ (k + 1) : Int) ∣ n - m ∨ (2 ^ (k + 1) : Int) ∣ n + m - 1 := by
  have hpar : ((n - m : Int) + (n + m - 1)) % 2 = 1 := by omega
  have hmod : triangle n % 2 ^ k = triangle m % 2 ^ k ↔
      ((2 ^ k : Nat) : Int) ∣ (triangle n : Int) - triangle m :=
    eq_comm.trans Nat.modEq_iff_dvd
  rw [hmod, ← two_pow_dvd_mul hpar, ← two_mul_triangle_sub, pow_succ', mul_dvd_mul_iff_left two_ne_zero]
  push_cast
  rfl

/-! ## masked rounds -/

/-- the mask keeps the residue mod `2^31` -/
theorem toNat_mask (x : UInt64) : (x &&& busySumMask).toNat = x.toNat % 2 ^ 31 := by
  rw [UInt64.toNat_and]
  exact Nat.and_two_pow_sub_one_eq_mod _ 31

theorem toNat_toUInt64 {i : Int64} {m : Nat} (hi : i.toInt = m) : i.toUInt64.toNat = m := by
  have h0 : 0 ≤ i := by
    rw [Int64.le_iff_toInt_le, hi]
    exact Int.natCast_nonneg m
  rw [Int64.toNat_toUInt64_of_le h0, Int64.toNatClampNeg, hi, Int.toNat_natCast]

/-- the sum of two signed words that fits -/
theorem toInt_add_of {x y : Int64} {a b : Int} (hx : x.toInt = a) (hy : y.toInt = b)
    (hlo : -2 ^ 63 ≤ a + b) (hhi : a + b < 2 ^ 63) : (x + y).toInt = a + b := by
  rw [Int64.toInt_add, hx, hy]
  exact Int.bmod_eq_of_le (by omega) (by omega)

theorem one_toInt : (1 : Int64).toInt = 1 := rfl

/-- the accumulator goes from one triangle number to the next -/
theorem masked_round {acc : UInt64} {i : Int64} {m : Nat} (hacc : acc.toNat = triangle m % 2 ^ 31)
    (hi : i.toInt = m) :
    ((acc + i.toUInt64) &&& busySumMask).toNat = triangle (m + 1) % 2 ^ 31 := by
  have hdvd : 2 ^ 31 ∣ 2 ^ 64 := Nat.pow_dvd_pow 2 (by omega)
  rw [toNat_mask, UInt64.toNat_add, hacc, toNat_toUInt64 hi, triangle_succ,
    Nat.mod_mod_of_dvd _ hdvd, Nat.mod_add_mod]

/-- **Masked rounds** from index `m` on add up to the triangle number of the last index. -/
theorem maskedSteps_toNat (steps : Nat) {acc : UInt64} {i : Int64} {m : Nat}
    (hacc : acc.toNat = triangle m % 2 ^ 31) (hi : i.toInt = m) (hfit : m + steps < 2 ^ 63) :
    (maskedSteps acc i steps).toNat = triangle (m + steps) % 2 ^ 31 := by
  induction steps generalizing acc i m with
  | zero => exact hacc
  | succ steps ih =>
    have hnext : (i + 1).toInt = ((m + 1 : Nat) : Int) :=
      toInt_add_of hi one_toInt (by omega) (by omega)
    rw [maskedSteps, ih (masked_round hacc hi) hnext (by omega)]
    congr 2
    omega

/-! ## the chunks -/

theorem stride_toInt : busySumStride.toInt = 8192 := rfl

theorem toInt_min (x y : Int64) : (min x y).toInt = min x.toInt y.toInt := by
  show (if x ≤ y then x else y).toInt = min x.toInt y.toInt
  by_cases h : x ≤ y
  · rw [if_pos h, min_eq_left (Int64.le_iff_toInt_le.1 h)]
  · rw [if_neg h, min_eq_right]
    exact Int.le_of_lt (Int.not_le.1 (fun hle => h (Int64.le_iff_toInt_le.2 hle)))

/-- the checkpoint count of `busy_sum` -/
theorem busySumCheckpoints_eq {n : Int64} (hn : 0 ≤ n.toInt) :
    busySumCheckpoints n = max 1 (min ((n.toInt + 8191) / 8192) 2147483647) := by
  unfold busySumCheckpoints checkpoints
  by_cases hle : n ≤ busySumStride
  · have hN : n.toInt ≤ 8192 := Int64.le_iff_toInt_le.1 hle
    rw [if_pos hle]
    omega
  · have hN : ¬ n.toInt ≤ 8192 := fun h => hle (Int64.le_iff_toInt_le.2 h)
    have hlt := Int64.toInt_lt n
    have hsub : (n - 1).toInt = n.toInt - 1 := by
      rw [Int64.toInt_sub, one_toInt]
      exact Int.bmod_eq_of_le (by omega) (by omega)
    have hdiv : ((n - 1) / busySumStride).toInt = (n.toInt - 1) / 8192 := by
      rw [toInt_div_of_nonneg (by omega) (by decide), hsub, stride_toInt]
    have hc : ((n - 1) / busySumStride + 1).toInt = (n.toInt - 1) / 8192 + 1 :=
      toInt_add_of hdiv one_toInt (by omega) (by omega)
    rw [if_neg hle]
    by_cases hbig : intMax < (n - 1) / busySumStride + 1
    · have hbig' : 2147483647 < (n.toInt - 1) / 8192 + 1 := hc ▸ Int64.lt_iff_toInt_lt.1 hbig
      have hmax : intMax.toInt = 2147483647 := rfl
      rw [if_pos hbig, hmax]
      omega
    · have hbig' : ¬ 2147483647 < (n.toInt - 1) / 8192 + 1 := by
        intro h
        exact hbig (Int64.lt_iff_toInt_lt.2 (hc.symm ▸ h))
      rw [if_neg hbig, hc]
      omega

/-- the index arithmetic of chunk `k` is that of the integers: its first index, the bound one stride
further on, and every increment below the end -/
structure ChunkExact (n : Int64) (k : Int) : Prop where
  first : (Int64.ofInt k * busySumStride).toInt = k * 8192
  last : (Int64.ofInt k * busySumStride + busySumStride).toInt = k * 8192 + 8192
  next : ∀ i, i < min (Int64.ofInt k * busySumStride + busySumStride) n → (i + 1).toInt = i.toInt + 1

theorem chunkExact (n : Int64) {k : Int} (h0 : 0 ≤ k) (hk : k < 2147483647) : ChunkExact n k := by
  have hfirst : (Int64.ofInt k * busySumStride).toInt = k * 8192 := by
    rw [Int64.toInt_mul, Int64.toInt_ofInt_of_le (by omega) (by omega), stride_toInt]
    exact Int.bmod_eq_of_le (by omega) (by omega)
  have hlast := toInt_add_of hfirst stride_toInt (by omega) (by omega)
  refine ⟨hfirst, hlast, fun i hi => ?_⟩
  have hlt := Int64.lt_iff_toInt_lt.1 hi
  rw [toInt_min, hlast] at hlt
  have hlo := Int64.le_toInt i
  exact toInt_add_of rfl one_toInt (by omega) (by omega)

/-- what the chunks before `k` have summed: the indices below `8192 k`, or all of them -/
def Summed (n : Int64) (k : Int) (acc : UInt64) : Prop :=
  acc.toNat = triangle (min (k * 8192) n.toInt).toNat % 2 ^ 31

/-- **A chunk** takes the sum one stride further. -/
theorem maskedChunk_summed {n : Int64} (hn : 0 ≤ n.toInt) {k : Int} {acc : UInt64} (h0 : 0 ≤ k)
    (hk : k < busySumCheckpoints n) (hacc : Summed n k acc) :
    Summed n (k + 1) (maskedChunk n k acc) := by
  have hc := busySumCheckpoints_eq hn
  have hlt := Int64.toInt_lt n
  have hx := chunkExact n h0 (by omega)
  have hmin : min (k * 8192) n.toInt = k * 8192 := by omega
  have hsteps : (min (Int64.ofInt k * busySumStride + busySumStride) n).toInt
      - (Int64.ofInt k * busySumStride).toInt = min (k * 8192 + 8192) n.toInt - k * 8192 := by
    rw [toInt_min, hx.first, hx.last]
  rw [Summed, hmin] at hacc
  rw [Summed, maskedChunk, maskedRange, hsteps,
    maskedSteps_toNat _ hacc (by rw [hx.first]; omega) (by omega)]
  congr 2
  omega

/-- the indices that the clamped count can reach: `INT_MAX` chunks of one stride -/
def busySumReach : Int := 2147483647 * 8192

section
variable {σ ε : Type}

theorem runMaskedCheckpointLoop_sum {n : Int64} (hn : 0 ≤ n.toInt) :
    (runMaskedCheckpointLoop n : Prog σ ε (Option UInt64)).Polls
      (fun x => ∃ acc, x = .ok (some acc) ∧
        acc.toNat = triangle (min n.toInt busySumReach).toNat % 2 ^ 31)
      (fun x => x = .ok none) (busySumCheckpoints n - 1).toNat := by
  have hc := busySumCheckpoints_eq hn
  have h0 : Summed n 0 0 := by
    have hmin : min (0 * 8192) n.toInt = 0 := by omega
    rw [Summed, hmin]
    rfl
  refine (runCheckpoints_inv (by omega) (fun k acc hk hlt hacc => ?_) 0 h0).mono ?_
  · exact Prog.Quiet.pure ⟨_, rfl, maskedChunk_summed hn hk hlt hacc⟩
  · rintro x ⟨acc, hx, hacc⟩
    refine ⟨acc, hx, hacc.trans ?_⟩
    -- all the chunks end at `n`, or where the clamp ends them
    have hend : min (busySumCheckpoints n * 8192) n.toInt = min n.toInt busySumReach := by
      rw [hc, busySumReach]
      omega
    rw [hend]

theorem runMaskedCheckpointLoop_halts (n : Int64) :
    (runMaskedCheckpointLoop n : Prog σ ε (Option UInt64)).Halts none :=
  checkpointLoop_halts (D := fun _ => True) (fun _ _ => Prog.Quiet.pure trivial) _ _ _

end

/-! ## the closed form -/

/-- `n (n - 1) / 2` mod `2^31` -/
def closedForm (n : Int64) : Nat := triangle n.toInt.toNat % 2 ^ 31

theorem sum_eq_closedForm {n : Int64} (hn : 0 ≤ n.toInt) :
    triangle (min n.toInt busySumReach).toNat % 2 ^ 31 = closedForm n ↔
      n.toInt ≤ 2147483647 * 8192 ∨ n.toInt % 2 ^ 32 = 8193 ∨ n.toInt % 2 ^ 32 = 2 ^ 32 - 8192 := by
  have hpow : (2 : Int) ^ (31 + 1) = 4294967296 := rfl
  rw [closedForm, triangle_mod_iff, hpow, busySumReach]
  omega

section
variable {σ : Type}

/-- the boundaries of the masked loop over `n`: it ends after `busySumCheckpoints n - 1` polls, the
last one final, or at the first poll that asks to stop, where it does nothing more; the count fits an
`int` and no index leaves `int64` -/
structure BoundaryLaw (σ : Type) (n : Int64) : Prop where
  polls : (runMaskedCheckpointLoop n : Prog σ Exc (Option UInt64)).Polls
    (fun x => ∃ acc, x = .ok (some acc)) (fun x => x = .ok none) (busySumCheckpoints n - 1).toNat
  halts : (runMaskedCheckpointLoop n : Prog σ Exc (Option UInt64)).Halts none
  count : 0 < busySumCheckpoints n ∧ busySumCheckpoints n ≤ intMax.toInt
  chunks : ∀ k, 0 ≤ k → k < busySumCheckpoints n → ChunkExact n k

/-- what `busy_sum` promises: the boundaries, and the closed form in the accumulator of the loop and
in the row of the operation -/
structure BusySumLaw (σ : Type) (n : Int64) : Prop extends BoundaryLaw σ n where
  acc : (runMaskedCheckpointLoop n : Prog σ Exc (Option UInt64)).Polls
    (fun x => ∃ acc, x = .ok (some acc) ∧ acc.toNat = closedForm n) (fun x => x = .ok none)
    (busySumCheckpoints n - 1).toNat
  value : (busySum [.int64 n] : Prog σ Exc OpOutcome).Polls
    (fun x => x = .ok (.done (.int64 (Int64.ofNat (closedForm n))))) (fun x => x = .ok .cancelled)
    (busySumCheckpoints n - 1).toNat

theorem boundaryLaw {n : Int64} (hn : 0 ≤ n.toInt) : BoundaryLaw σ n := by
  have hc := busySumCheckpoints_eq hn
  have hmax : intMax.toInt = 2147483647 := rfl
  refine ⟨runMaskedCheckpointLoop_polls n, runMaskedCheckpointLoop_halts n, ?_, ?_⟩
  · rw [hmax]
    omega
  · intro k h0 hk
    exact chunkExact n h0 (by omega)

/-- the operation hands the accumulator of the loop on -/
theorem busySum_value {n : Int64} {v : Nat} {m : Nat}
    (h : (runMaskedCheckpointLoop n : Prog σ Exc (Option UInt64)).Polls
      (fun x => ∃ acc, x = .ok (some acc) ∧ acc.toNat = v) (fun x => x = .ok none) m) :
    (busySum [.int64 n] : Prog σ Exc OpOutcome).Polls
      (fun x => x = .ok (.done (.int64 (Int64.ofNat v)))) (fun x => x = .ok .cancelled) m := by
  refine h.bind ?_ ?_ ?_ ?_
  · rintro _ ⟨acc, ⟨⟩, rfl⟩
    have hcast : acc.toInt64 = Int64.ofNat acc.toNat := by
      rw [← UInt64.toInt64_ofNat', UInt64.ofNat_toNat]
    show (Except.ok (OpOutcome.done (.int64 acc.toInt64)) : Except Exc OpOutcome) = _
    rw [hcast]
  · rintro e ⟨acc, h, _⟩
    cases h
  · rintro a ⟨⟩
    exact rfl
  · rintro e ⟨⟩

/-- **The closed form.**  The masked loop keeps its boundaries for every `n`, and `busy_sum` is the
closed form if and only if the clamp of the count leaves no index out, or those that it leaves out
sum to a multiple of `2^31`. -/
theorem busySum_closed_form [Inhabited σ] {n : Int64} (hn : 0 ≤ n) :
    BoundaryLaw σ n ∧ (BusySumLaw σ n ↔
      n.toInt ≤ 2147483647 * 8192 ∨ n.toInt % 2 ^ 32 = 8193 ∨
        n.toInt % 2 ^ 32 = 2 ^ 32 - 8192) := by
  have h0 : 0 ≤ n.toInt := Int64.le_iff_toInt_le.1 hn
  have hsum := runMaskedCheckpointLoop_sum (σ := σ) (ε := Exc) h0
  refine ⟨boundaryLaw h0, ?_⟩
  rw [← sum_eq_closedForm h0]
  constructor
  · intro hlaw
    obtain ⟨acc, hacc, hv⟩ := hlaw.acc.eval 0 default
    obtain ⟨acc', hacc', hv'⟩ := hsum.eval 0 default
    have heq : acc = acc' := by
      rw [hacc] at hacc'
      cases hacc'
      rfl
    rw [← hv, ← hv', heq]
  · intro h
    rw [h] at hsum
    exact ⟨boundaryLaw h0, hsum, busySum_value hsum⟩

/-- three chunks -/
theorem busySum_closed_form_three : (0 : Int64) ≤ 20000 ∧ BusySumLaw Unit 20000 :=
  ⟨by decide, (busySum_closed_form (by decide)).2.2 (Or.inl (by decide))⟩

/-- one index past the reach of the clamped count -/
def pastReach : Int64 := 17592186036225

/-- the last index of `17592186036225` is never summed -/
theorem busySum_closed_form_clamped : ¬ ∀ n : Int64, 0 ≤ n → BusySumLaw Unit n := by
  intro h
  have hlaw := h pastReach (by decide)
  have h0 : 0 ≤ pastReach.toInt := by decide
  obtain ⟨acc, hacc, hv⟩ := hlaw.acc.eval 0 ()
  obtain ⟨acc', hacc', hv'⟩ := (runMaskedCheckpointLoop_sum (ε := Exc) h0).eval 0 ()
  rw [hacc] at hacc'
  cases hacc'
  have heq := (sum_eq_closedForm h0).1 (hv'.symm.trans hv)
  exact absurd heq (by decide)

end

end RayX
