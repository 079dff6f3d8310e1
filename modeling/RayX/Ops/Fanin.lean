import RayX.Ops.Rendezvous

/-!
# The fan-in family

`chain_fanout`, `barrier_fanin` and `overlap_probe` run independent children from the seeds
`seed + j` and fold their values.  They do the same work in different shapes.

* `fanin_toInt`        a fold of children is the sum of their values mod `2^31`;
* `fanin_schedules`    every schedule of the children and every order of the fold gives that value;
* `chunkedSum_eq`      the chunked kernel is the flat one;
* `fanin_family`       **the equal-work identities of the three bodies, and no overflow in them or in
                       `diamond_fanin`.**
-/

namespace RayX
open Sys

/-! ## folds of children -/

/-- the words of signed values sum as the values do -/
theorem sum_toUInt64 (l : List Int64) :
    (((l.map Int64.toUInt64).map UInt64.toNat).sum : Int) % 2 ^ 31 = (l.map Int64.toInt).sum % 2 ^ 31 := by
  have hmap : ((l.map Int64.toUInt64).map UInt64.toNat).map (fun m : Nat => (m : Int) % 2 ^ 31)
      = (l.map Int64.toInt).map (fun x => x % 2 ^ 31) := by
    rw [List.map_map, List.map_map, List.map_map]
    exact List.map_congr_left (fun x _ => toUInt64_emod x)
  rw [Nat.cast_list_sum, List.sum_int_mod, List.map_map]
  rw [List.sum_int_mod (l.map Int64.toInt), ← hmap]
  rfl

/-- the fold of signed values under the mask -/
theorem foldValues_toInt (l : List Int64) :
    (maskedFold (l.map Int64.toUInt64)).toInt64.toInt = (l.map Int64.toInt).sum % 2 ^ 31 := by
  rw [toInt_masked (maskedFold_lt _), maskedFold_toNat, ← sum_toUInt64]
  push_cast
  rfl

/-- the values of the children -/
def children (seed : Int64) (count : Nat) (child : Int64 → Int64) : List Int64 :=
  (List.range count).map fun j => child (seedAt seed j)

/-- **A fold of children** is the sum of their values mod `2^31`. -/
theorem fanin_toInt (seed : Int64) (count : Nat) (child : Int64 → Int64) :
    (fanin seed count child).toInt = ((children seed count child).map Int64.toInt).sum % 2 ^ 31 := by
  have hmap : (List.range count).map (fun j => (child (seedAt seed j)).toUInt64)
      = (children seed count child).map Int64.toUInt64 := (List.map_map).symm
  rw [fanin, hmap, foldValues_toInt]

/-- the seed of child `j` is `seed + j` mod `2^64`, read as signed -/
theorem seedAt_toInt (seed : Int64) (j : Nat) : (seedAt seed j).toInt = (seed.toInt + j).bmod (2 ^ 64) := by
  have hx : seed.toInt = Int.bmod seed.toUInt64.toNat (2 ^ 64) := BitVec.toInt_eq_toNat_bmod seed.toBitVec
  have hs : (seedAt seed j).toInt = Int.bmod (seed.toUInt64 + UInt64.ofNat j).toNat (2 ^ 64) :=
    BitVec.toInt_eq_toNat_bmod (seedAt seed j).toBitVec
  have hadd : (seed.toUInt64 + UInt64.ofNat j).toNat = (seed.toUInt64.toNat + j) % 2 ^ 64 := by
    rw [UInt64.toNat_add, UInt64.toNat_ofNat', Nat.add_mod_mod]
  rw [hs, hadd, hx, Int.bmod_add_bmod]
  push_cast
  exact Int.emod_bmod _ _

theorem seedAt_zero (seed : Int64) : seedAt seed 0 = seed := by
  apply Int64.toInt_inj.mp
  rw [seedAt_toInt, Int.natCast_zero, Int.add_zero]
  have h := inRange_toInt seed
  exact Int.bmod_eq_of_le (by have := h.1; omega) (by have := h.2; omega)

/-- the futures of a fan-in: the children, and the fold that waits for all of them -/
def faninGraph (seed : Int64) (count : Nat) (child : Int64 → Int64) : FutureGraph Int64 :=
  FutureGraph.fanIn count (fun j => child (seedAt seed j))
    (fun vs => (maskedFold (vs.map Int64.toUInt64)).toInt64)

/-- **Every schedule** of the children, and every order of the fold. -/
structure FaninLaw (seed : Int64) (count : Nat) (child : Int64 → Int64) (v : Int64) : Prop where
  sum : v.toInt = ((children seed count child).map Int64.toInt).sum % 2 ^ 31
  schedules : (faninGraph seed count child).Yields count v
  orders : ∀ l : List Int64, l.Perm (children seed count child) →
    (maskedFold (l.map Int64.toUInt64)).toInt64 = v

theorem fanin_schedules (seed : Int64) (count : Nat) (child : Int64 → Int64) :
    FaninLaw seed count child (fanin seed count child) := by
  have hmap : (List.range count).map (fun j => (child (seedAt seed j)).toUInt64)
      = (children seed count child).map Int64.toUInt64 := (List.map_map).symm
  refine ⟨fanin_toInt seed count child, ?_, fun l hl => ?_⟩
  · have hy := FutureGraph.fanIn_yields count (fun j => child (seedAt seed j))
      (fun vs => (maskedFold (vs.map Int64.toUInt64)).toInt64)
    rw [fanin, hmap]
    exact hy
  · rw [maskedFold_perm (hl.map Int64.toUInt64), fanin, hmap]

/-! ## the chunked kernel -/

/-- the chunks from `k` on take the sum to the end -/
theorem chunkedSum_summed {q : Int64} (hq : 0 ≤ q.toInt) (r : Nat) {k : Int} {acc : UInt64}
    (h0 : 0 ≤ k) (hr : k + r = busySumCheckpoints q) (hacc : Summed q k acc) :
    Summed q (busySumCheckpoints q) (chunkedSum q r k acc) := by
  induction r generalizing k acc with
  | zero =>
    have hend : k = busySumCheckpoints q := by omega
    rw [chunkedSum, ← hend]
    exact hacc
  | succ r ih =>
    rw [chunkedSum]
    exact ih (by omega) (by omega) (maskedChunk_summed hq h0 (by omega) hacc)

/-- **The chunked kernel is the flat one.** -/
theorem chunkedSum_eq {q : Int64} (hq : 0 ≤ q.toInt) (hmax : q.toInt ≤ 100000) :
    chunkedSum q (busySumCheckpoints q).toNat 0 0 = maskedRangeSum 0 q := by
  have hc := busySumCheckpoints_eq hq
  have hstart : Summed q 0 0 := by
    have hmin : min (0 * 8192) q.toInt = 0 := by omega
    rw [Summed, hmin]
    rfl
  have hend := chunkedSum_summed hq (busySumCheckpoints q).toNat (Int.le_refl 0) (by omega) hstart
  have hall : min (busySumCheckpoints q * 8192) q.toInt = q.toInt := by omega
  rw [Summed, hall] at hend
  apply UInt64.toNat_inj.mp
  rw [hend, maskedRangeSum_toNat hq]

/-- the two shapes of an arm -/
theorem overlapArm_eq {mode q : Int64} (hq : 0 ≤ q.toInt) (hmax : q.toInt ≤ 100000) (x : Int64) :
    overlapArm mode q x = chainStage x q := by
  unfold overlapArm
  by_cases hm : mode = 0
  · rw [if_pos hm]
  · rw [if_neg hm]
    dsimp only
    rw [chunkedSum_eq hq hmax]
    rfl

/-! ## the bodies behind their guards -/

section
variable {seed count steps quantum leaves mode : Int64}

/-- a guard that passes -/
theorem invoke_chainFanout (hc : 1 ≤ count.toInt ∧ count.toInt ≤ 256) (h : ChainArgs steps quantum) :
    invoke chainFanout [seed, count, steps, quantum]
      = some (fanin seed count.toInt.toNat (chainStages quantum steps.toInt.toNat)) := by
  refine invoke_done (guardArgs_pass ?_)
  rw [badRange_of_mem 1 chainFanoutKMax hc.1 hc.2,
    badRange_of_mem 0 chainStepsMax h.steps_nonneg h.steps_le,
    badRange_of_mem 0 chainQuantumMax h.quantum_nonneg h.quantum_le]
  rfl

theorem invoke_barrierFanin (hl : 1 ≤ leaves.toInt ∧ leaves.toInt ≤ 64)
    (hq : 0 ≤ quantum.toInt ∧ quantum.toInt ≤ 100000) :
    invoke barrierFanin [seed, leaves, quantum]
      = some (fanin seed leaves.toInt.toNat (chainStage · quantum)) := by
  refine invoke_done (guardArgs_pass ?_)
  rw [badRange_of_mem 1 faninLeavesMax hl.1 hl.2, badRange_of_mem 0 chainQuantumMax hq.1 hq.2]
  rfl

/-- two children, folded by hand -/
theorem fanin_two (child : Int64 → Int64) : ((child seed).toUInt64 + (child (seedAt seed 1)).toUInt64
    &&& busySumMask).toInt64 = fanin seed 2 child := by
  have hfold : maskedFold ([0, 1].map fun j => (child (seedAt seed j)).toUInt64)
      = ((0 + (child (seedAt seed 0)).toUInt64 &&& busySumMask) + (child (seedAt seed 1)).toUInt64)
        &&& busySumMask := rfl
  have hzero : (0 : UInt64).toNat = 0 := rfl
  have hfanin : fanin seed 2 child
      = (maskedFold ([0, 1].map fun j => (child (seedAt seed j)).toUInt64)).toInt64 := rfl
  rw [hfanin, hfold, seedAt_zero]
  congr 1
  apply UInt64.toNat_inj.mp
  rw [masked_add, masked_add, masked_add, hzero, Nat.zero_add, Nat.mod_add_mod]

theorem invoke_overlapProbe (hm : mode = 0 ∨ mode = 1)
    (hq : 0 ≤ quantum.toInt ∧ quantum.toInt ≤ 100000) :
    invoke overlapProbe [seed, quantum, mode] = some (fanin seed 2 (overlapArm mode quantum)) := by
  rw [← fanin_two]
  refine invoke_done (guardArgs_pass ?_)
  rw [badRange_of_mem 0 chainQuantumMax hq.1 hq.2, Bool.false_or]
  rcases hm with rfl | rfl <;> rfl

end

/-! ## the law -/

/-- no signed expression of a body is undefined: it runs as if its arithmetic were exact -/
def NeverUndefined (checked : CheckedFn Unit) (fn : OpFn Unit) : Prop :=
  ∀ a, checked a = (fn a).mapErr Fault.exc

/-- the equal-work identities from one seed -/
structure FaninFamily (seed : Int64) : Prop where
  chainFanout : ∀ count steps quantum : Int64, 1 ≤ count → count ≤ chainFanoutKMax → 0 ≤ steps →
    steps ≤ chainStepsMax → 0 ≤ quantum → quantum ≤ chainQuantumMax →
    ∃ v child, invoke RayX.chainFanout [seed, count, steps, quantum] = some v ∧
      (∀ x, invoke chainSumLoop [x, steps, quantum] = some (child x)) ∧
      FaninLaw seed count.toInt.toNat child v
  barrierFanin : ∀ leaves quantum : Int64, 1 ≤ leaves → leaves ≤ faninLeavesMax → 0 ≤ quantum →
    quantum ≤ chainQuantumMax →
    ∃ v, invoke RayX.barrierFanin [seed, leaves, quantum] = some v ∧
      invoke RayX.chainFanout [seed, leaves, 1, quantum] = some v ∧
      ∀ s, Reach (Gate.step seed quantum leaves.toInt.toNat) Gate.init s → s.main = .finished →
        s.result = v
  overlapProbe : ∀ quantum : Int64, 0 ≤ quantum → quantum ≤ chainQuantumMax →
    ∃ v, invoke RayX.overlapProbe [seed, quantum, 0] = some v ∧
      invoke RayX.overlapProbe [seed, quantum, 1] = some v ∧
      invoke RayX.chainFanout [seed, 2, 1, quantum] = some v ∧
      FaninLaw seed 2 (overlapArm 0 quantum) v ∧ FaninLaw seed 2 (overlapArm 1 quantum) v ∧
      ∀ x, overlapArm 1 quantum x = overlapArm 0 quantum x
  seeds : ∀ j : Nat, (seedAt seed j).toInt = (seed.toInt + j).bmod (2 ^ 64)
  fits : NeverUndefined Checked.chainFanout RayX.chainFanout ∧
    NeverUndefined Checked.barrierFanin RayX.barrierFanin ∧
    NeverUndefined Checked.overlapProbe RayX.overlapProbe ∧
    NeverUndefined Checked.diamondFanin RayX.diamondFanin

/-- **The fan-in family** obeys its equal-work identities from every seed. -/
theorem fanin_family (seed : Int64) : FaninFamily seed := by
  have hone : (1 : Int64).toInt = 1 := rfl
  have htwo : (2 : Int64).toInt = 2 := rfl
  -- a chain of one stage
  have hstage : ∀ q : Int64, chainStages q (1 : Int64).toInt.toNat = (chainStage · q) := by
    intro q
    funext x
    rfl
  refine ⟨?_, ?_, ?_, seedAt_toInt seed, ?_⟩
  · intro count steps quantum hc hc' hs hs' hq hq'
    have h : ChainArgs steps quantum := ⟨Int64.le_iff_toInt_le.1 hs, Int64.le_iff_toInt_le.1 hs',
      Int64.le_iff_toInt_le.1 hq, Int64.le_iff_toInt_le.1 hq'⟩
    refine ⟨_, chainStages quantum steps.toInt.toNat, invoke_chainFanout
      ⟨Int64.le_iff_toInt_le.1 hc, Int64.le_iff_toInt_le.1 hc'⟩ h, fun x => invoke_chainSum h, ?_⟩
    exact fanin_schedules _ _ _
  · intro leaves quantum hl hl' hq hq'
    have hleaves : 1 ≤ leaves.toInt ∧ leaves.toInt ≤ 64 :=
      ⟨Int64.le_iff_toInt_le.1 hl, Int64.le_iff_toInt_le.1 hl'⟩
    have hquantum : 0 ≤ quantum.toInt ∧ quantum.toInt ≤ 100000 :=
      ⟨Int64.le_iff_toInt_le.1 hq, Int64.le_iff_toInt_le.1 hq'⟩
    refine ⟨_, invoke_barrierFanin hleaves hquantum, ?_, fun s hs hm => ?_⟩
    · rw [invoke_chainFanout ⟨hleaves.1, by omega⟩ ⟨by omega, by omega, hquantum.1, hquantum.2⟩, hstage]
    · have hn : 0 < leaves.toInt.toNat := by omega
      exact ((Barrier.reach hn hs).exit hn hm).value
  · intro quantum hq hq'
    have hquantum : 0 ≤ quantum.toInt ∧ quantum.toInt ≤ 100000 :=
      ⟨Int64.le_iff_toInt_le.1 hq, Int64.le_iff_toInt_le.1 hq'⟩
    have harm : ∀ mode, overlapArm mode quantum = (chainStage · quantum) := by
      intro mode
      funext x
      exact overlapArm_eq hquantum.1 hquantum.2 x
    refine ⟨fanin seed 2 (chainStage · quantum), ?_, ?_, ?_, ?_, ?_, ?_⟩
    · rw [invoke_overlapProbe (Or.inl rfl) hquantum, harm]
    · rw [invoke_overlapProbe (Or.inr rfl) hquantum, harm]
    · rw [invoke_chainFanout ⟨by omega, by omega⟩ ⟨by omega, by omega, hquantum.1, hquantum.2⟩, hstage]
      rfl
    · rw [harm]
      exact fanin_schedules seed 2 _
    · rw [harm]
      exact fanin_schedules seed 2 _
    · intro x
      rw [harm, harm]
  · exact ⟨Checked.chainFanout_eq, Checked.barrierFanin_eq, Checked.overlapProbe_eq,
      Checked.diamondFanin_eq⟩

end RayX
