import RayX.Ops.Fanout

/-!
# The three forms of a chain

`chain_sum_loop` runs its stages in a loop, `chain_sum_then` as a chain of continuations, and a caller
can submit one stage at a time.

* `chainStage_toInt`      a stage adds `q (q - 1) / 2` mod `2^31`, also to a negative value;
* `chainStages_add`       a chain of `a + b` stages is one of `a` stages followed by one of `b`;
* `invoke`, `foldStages`  a completed call, and the fold of calls of one stage;
* `chainThenGraph`        the futures of `chain_sum_then`;
* `chainSum_forms`        **the forms agree, compose, and have the closed form.**
-/

namespace RayX
open Sys

/-! ## one stage -/

/-- the cast to `uint64` keeps the residue mod `2^31` -/
theorem toUInt64_emod (x : Int64) : (x.toUInt64.toNat : Int) % 2 ^ 31 = x.toInt % 2 ^ 31 := by
  have hx : x.toInt = Int.bmod x.toUInt64.toNat (2 ^ 64) := BitVec.toInt_eq_toNat_bmod x.toBitVec
  have hdvd : (2 ^ 31 : Int) ∣ (2 ^ 64 : Nat) := by decide
  rw [hx, ← Int.emod_emod_of_dvd _ hdvd, ← Int.emod_emod_of_dvd (Int.bmod _ _) hdvd, Int.bmod_emod]

/-- a masked word read as signed -/
theorem toInt_masked {w : UInt64} (h : w.toNat < 2 ^ 31) : w.toInt64.toInt = w.toNat := by
  have hcast : w.toInt64 = Int64.ofNat w.toNat := by
    rw [← UInt64.toInt64_ofNat', UInt64.ofNat_toNat]
  rw [hcast, Int64.toInt_ofNat_of_lt (by omega)]

/-- `0 + 1 + .. + (q - 1)` over the integers -/
def gauss (q : Int64) : Int := q.toInt * (q.toInt - 1) / 2

theorem triangle_eq_gauss {q : Int64} (hq : 0 ≤ q.toInt) : (triangle q.toInt.toNat : Int) = gauss q := by
  have htwo := two_mul_triangle q.toInt.toNat
  rw [Int.toNat_of_nonneg hq] at htwo
  rw [gauss]
  omega

/-- the masked work of a stage -/
theorem maskedRangeSum_toNat {q : Int64} (hq : 0 ≤ q.toInt) :
    (maskedRangeSum 0 q).toNat = triangle q.toInt.toNat % 2 ^ 31 := by
  have hz : (0 : Int64).toInt = 0 := rfl
  obtain ⟨hlt, hmod⟩ := @maskedRange_modEq 0 0 q (by decide) (by decide) (hz ▸ hq)
  have h0 : (0 : UInt64).toNat + triangle q.toInt.toNat = triangle q.toInt.toNat := Nat.zero_add _
  rw [h0] at hmod
  exact (Nat.mod_eq_of_lt hlt).symm.trans hmod

theorem maskedRangeSum_gauss {q : Int64} (hq : 0 ≤ q.toInt) :
    ((maskedRangeSum 0 q).toNat : Int) = gauss q % 2 ^ 31 := by
  rw [maskedRangeSum_toNat hq, ← triangle_eq_gauss hq]
  push_cast
  rfl

/-- a masked sum of two words, over the integers -/
theorem toInt_masked_add (x : Int64) (v : UInt64) :
    ((x.toUInt64 + v) &&& busySumMask).toInt64.toInt = (x.toInt + v.toNat) % 2 ^ 31 := by
  have hadd := masked_add x.toUInt64 v
  have hlt : ((x.toUInt64 + v) &&& busySumMask).toNat < 2 ^ 31 := by
    rw [hadd]
    exact Nat.mod_lt _ (by decide)
  have hres := toUInt64_emod x
  rw [toInt_masked hlt, hadd]
  push_cast
  omega

/-- **A stage** adds the masked work mod `2^31`; the residue is taken in `0 .. 2^31 - 1` whatever the
sign of `x`. -/
theorem chainStage_toInt {q : Int64} (hq : 0 ≤ q.toInt) (x : Int64) :
    (chainStage x q).toInt = (x.toInt + gauss q) % 2 ^ 31 := by
  rw [chainStage, toInt_masked_add, maskedRangeSum_gauss hq, Int.add_emod_emod]

/-! ## chains of stages -/

theorem chainStages_add (q : Int64) (a b : Nat) (x : Int64) :
    chainStages q (a + b) x = chainStages q b (chainStages q a x) := by
  induction a generalizing x with
  | zero => rw [Nat.zero_add, chainStages]
  | succ a ih =>
    rw [Nat.succ_add, chainStages, chainStages]
    exact ih (chainStage x q)

theorem chainStages_iterate (q : Int64) (k : Nat) (x : Int64) :
    (chainStage · q)^[k] x = chainStages q k x := by
  induction k generalizing x with
  | zero => rfl
  | succ k ih => exact ih (chainStage x q)

/-- **A chain** of at least one stage. -/
theorem chainStages_toInt {q : Int64} (hq : 0 ≤ q.toInt) (k : Nat) (x : Int64) :
    (chainStages q (k + 1) x).toInt = (x.toInt + ((k + 1 : Nat) : Int) * gauss q) % 2 ^ 31 := by
  induction k generalizing x with
  | zero =>
    rw [chainStages, chainStages, chainStage_toInt hq, Nat.zero_add, Int.natCast_one, Int.one_mul]
  | succ k ih =>
    have hmul : ((k + 1 + 1 : Nat) : Int) * gauss q = gauss q + ((k + 1 : Nat) : Int) * gauss q := by
      push_cast
      ring
    rw [chainStages, ih, chainStage_toInt hq, Int.emod_add_emod, hmul, Int.add_assoc]

/-! ## calls -/

/-- the `int64` value of a completed call -/
def invoke (fn : OpFn Unit) (args : List Int64) : Option Int64 :=
  match ((fn (args.map .int64)).eval 0 ()).1 with
  | .ok o =>
    match o.status, o.hasValue, o.value with
    | .completed, true, .int64 v => some v
    | _, _, _ => none
  | .error _ => none

theorem invoke_done {fn : OpFn Unit} {args : List Int64} {v : Int64}
    (h : fn (args.map .int64) = pure (.done (.int64 v))) : invoke fn args = some v := by
  rw [invoke, h]
  rfl

/-- `steps` calls of one stage each -/
def foldStages (quantum : Int64) : Nat → Int64 → Option Int64
  | 0, x => some x
  | k + 1, x => (invoke chainSumLoop [x, 1, quantum]).bind (foldStages quantum k)

/-- the futures of `chain_sum_then`: a ready seed, and each continuation on the one before -/
def chainThenGraph (seed : Int64) (steps : Nat) (quantum : Int64) : FutureGraph Int64 :=
  FutureGraph.chain steps seed (chainStage · quantum)

/-- what the guard of a chain admits -/
structure ChainArgs (steps quantum : Int64) : Prop where
  steps_nonneg : 0 ≤ steps.toInt
  steps_le : steps.toInt ≤ 10000
  quantum_nonneg : 0 ≤ quantum.toInt
  quantum_le : quantum.toInt ≤ 100000

/-- a chain behind its guard -/
theorem chainSum_value {op : String} {σ : Type} {seed steps quantum : Int64}
    (h : ChainArgs steps quantum) :
    (chainSum op [.int64 seed, .int64 steps, .int64 quantum] : Prog σ Exc OpOutcome)
      = pure (.done (.int64 (chainStages quantum steps.toInt.toNat seed))) := by
  have hguard : (badRange 0 chainStepsMax steps || badRange 0 chainQuantumMax quantum) = false := by
    rw [badRange_of_mem 0 chainStepsMax h.steps_nonneg h.steps_le,
      badRange_of_mem 0 chainQuantumMax h.quantum_nonneg h.quantum_le]
    rfl
  have hbody : (chainSum op [.int64 seed, .int64 steps, .int64 quantum] : Prog σ Exc OpOutcome)
      = guardArgs (badRange 0 chainStepsMax steps || badRange 0 chainQuantumMax quantum)
          (op ++ " requires 0 <= steps <= " ++ toString chainStepsMax ++ " and 0 <= quantum <= "
            ++ toString chainQuantumMax) >>=
        fun _ => pure (.done (.int64 (chainStages quantum steps.toInt.toNat seed))) := rfl
  rw [hbody, hguard]
  rfl

theorem invoke_chainSum {op : String} {seed steps quantum : Int64} (h : ChainArgs steps quantum) :
    invoke (chainSum op) [seed, steps, quantum]
      = some (chainStages quantum steps.toInt.toNat seed) := invoke_done (chainSum_value h)

theorem foldStages_eq {quantum : Int64} (h0 : 0 ≤ quantum.toInt) (h1 : quantum.toInt ≤ 100000)
    (k : Nat) (x : Int64) : foldStages quantum k x = some (chainStages quantum k x) := by
  have hone : (1 : Int64).toInt = 1 := rfl
  induction k generalizing x with
  | zero => rfl
  | succ k ih =>
    have hcall : invoke chainSumLoop [x, 1, quantum] = some (chainStages quantum 1 x) :=
      invoke_chainSum ⟨by omega, by omega, h0, h1⟩
    rw [foldStages, hcall]
    exact ih (chainStage x quantum)

/-! ## the law -/

/-- what the chains promise for a seed, a number of steps and a quantum: the loop, the body of the
continuations, every schedule of its futures, and the fold of calls of one stage give one value; a
loop of `a + b` steps is a loop of `a` steps and one of `b` from its result; a chain of at least one
step has the closed form -/
structure ChainLaw (seed steps quantum v : Int64) : Prop where
  loop : invoke chainSumLoop [seed, steps, quantum] = some v
  thenBody : invoke chainSumThen [seed, steps, quantum] = some v
  schedules : (chainThenGraph seed steps.toInt.toNat quantum).Yields steps.toInt.toNat v
  calls : foldStages quantum steps.toInt.toNat seed = some v
  compose : ∀ a b : Int64, 0 ≤ a.toInt → 0 ≤ b.toInt → a.toInt + b.toInt = steps.toInt →
    (invoke chainSumLoop [seed, a, quantum]).bind (fun x => invoke chainSumLoop [x, b, quantum])
      = some v
  empty : steps = 0 → v = seed
  closed : 1 ≤ steps → v.toInt = (seed.toInt + steps.toInt * gauss quantum) % 2 ^ 31 ∧
    0 ≤ v.toInt ∧ v.toInt < 2 ^ 31

/-- **The three forms of a chain agree and compose**, for every seed. -/
theorem chainSum_forms {seed steps quantum : Int64} (hs : 0 ≤ steps) (hs' : steps ≤ chainStepsMax)
    (hq : 0 ≤ quantum) (hq' : quantum ≤ chainQuantumMax) :
    ∃ v, ChainLaw seed steps quantum v := by
  have h : ChainArgs steps quantum := ⟨Int64.le_iff_toInt_le.1 hs, Int64.le_iff_toInt_le.1 hs',
    Int64.le_iff_toInt_le.1 hq, Int64.le_iff_toInt_le.1 hq'⟩
  have hsteps := h.steps_nonneg
  refine ⟨chainStages quantum steps.toInt.toNat seed, invoke_chainSum h, invoke_chainSum h, ?_,
    foldStages_eq h.quantum_nonneg h.quantum_le _ seed, ?_, ?_, ?_⟩
  · rw [← chainStages_iterate]
    exact FutureGraph.chain_yields _ _ _
  · intro a b ha hb hab
    have hle := h.steps_le
    have hsplit : steps.toInt.toNat = a.toInt.toNat + b.toInt.toNat := by omega
    have hfirst : invoke chainSumLoop [seed, a, quantum] = some (chainStages quantum a.toInt.toNat seed) :=
      invoke_chainSum ⟨ha, by omega, h.quantum_nonneg, h.quantum_le⟩
    rw [hfirst, hsplit, chainStages_add]
    exact invoke_chainSum ⟨hb, by omega, h.quantum_nonneg, h.quantum_le⟩
  · rintro rfl
    rfl
  · intro h1
    have hpos : 1 ≤ steps.toInt := Int64.le_iff_toInt_le.1 h1
    obtain ⟨k, hk⟩ : ∃ k, steps.toInt.toNat = k + 1 := ⟨steps.toInt.toNat - 1, by omega⟩
    have hcast : ((k + 1 : Nat) : Int) = steps.toInt := by omega
    rw [hk, chainStages_toInt h.quantum_nonneg, hcast]
    exact ⟨rfl, Int.emod_nonneg _ (by decide), Int.emod_lt_of_pos _ (by decide)⟩

/-- a negative seed -/
theorem chainSum_forms_neg : (0 : Int64) ≤ 3 ∧ ∃ v, ChainLaw (-5) 3 4 v :=
  ⟨by decide, chainSum_forms (by decide) (by decide) (by decide) (by decide)⟩

end RayX
