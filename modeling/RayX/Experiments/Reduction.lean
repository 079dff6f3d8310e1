import RayX.Lib.Words
import RayX.Ops.Fanout
import RayX.Ops.Validate

/-!
# Flat and tree reductions

The leaves of a remote fan-out, reduced at the root or block by block at the localities, and the closed
oracles of the two languages.

* `Native.reduceRemoteLeaves`, `Native.reducePartials`   the two reductions at the root;
* `Native.dispatchedBlocks`      the blocks of the tree, one for each remote locality;
* `Native.compositeOracle`, `Python.compositeOracle`   the oracles;
* `dispatchedBlocks_pos`, `blocks_tile`   the blocks are not empty and tile the leaves;
* `reduction`                    **every order of either reduction gives the value of either oracle**.
-/

namespace RayX
namespace Reduction
open Sys

namespace Native

structure LeafRecord where
  value : Int64
  locality : UInt32
  deriving DecidableEq

structure PartialRecord where
  partialSum : Int64
  iBegin : Int64
  iCount : Int64
  locality : UInt32
  deriving DecidableEq

def leafXor : UInt64 := 0x52415958

def leafWord (x i : Int64) : UInt64 := (x.toUInt64 ^^^ leafXor) + (i.toUInt64 <<< 1)

def leafValue (x i : Int64) : Int64 := (leafWord x i).toInt64

def compositeOracle (x n : Int64) : Int64 := (wordSum ((counter 0 n).map fun i => leafWord x i)).toInt64

/-- `exp63_leaf` at a locality -/
def leaf (x i : Int64) (locality : UInt32) : LeafRecord := ⟨leafValue x i, locality⟩

/-- `exp63_partial` at a locality -/
def partialOf (x iBegin iCount : Int64) (locality : UInt32) : PartialRecord :=
  let acc := wordSum ((counter 0 iCount).map fun k => (leafValue x (iBegin + k)).toUInt64)
  ⟨acc.toInt64, iBegin, iCount, locality⟩

/-- the accumulator of a reduction at the root -/
def reduceValues (vs : List Int64) : Int64 := (wordSum (vs.map Int64.toUInt64)).toInt64

def reduceRemoteLeaves (ready : List LeafRecord) : Int64 × List (Int64 × Int64 × UInt32) :=
  (reduceValues (ready.map fun lr => lr.value),
    ready.zipIdx.map fun p => (Int64.ofNat p.2, p.1.value, p.1.locality))

def reducePartials (ready : List PartialRecord) : Int64 × List (Int64 × Int64 × Int64 × UInt32) :=
  (reduceValues (ready.map fun pr => pr.partialSum),
    ready.map fun pr => (pr.partialSum, pr.iBegin, pr.iCount, pr.locality))

/-- the blocks `(i_begin, i_count)` from locality `j` on, `r` localities left -/
def treeBlocks (base rem : Int64) : Nat → Int64 → Int64 → List (Int64 × Int64)
  | 0, _, _ => []
  | r + 1, j, iBegin =>
    let iCount := base + if j < rem then 1 else 0
    (iBegin, iCount) :: treeBlocks base rem r (j + 1) (iBegin + iCount)

def dispatchedBlocks (n : Int64) (r : Nat) : List (Int64 × Int64) :=
  treeBlocks (n / Int64.ofNat r) (n % Int64.ofNat r) r 0 0

/-- the leaves of the flat fan-out, dealt to the remote localities in turn -/
def flatLeaves (x n : Int64) (remotes : List UInt32) : List LeafRecord :=
  (counter 0 n).map fun i => leaf x i (remotes.getD (i.toInt.toNat % remotes.length) 0)

/-- the partials of the tree, one of each remote locality -/
def treePartials (x n : Int64) (remotes : List UInt32) : List PartialRecord :=
  ((dispatchedBlocks n remotes.length).zip remotes).map fun p => partialOf x p.1.1 p.1.2 p.2

end Native

namespace Python

def leafTerm (x i : Int) : Int := Int.xor x 0x52415958 + i <<< (1 : Nat)

def i64 (v : Int) : Int :=
  let v := v % 2 ^ 64
  if 2 ^ 63 ≤ v then v - 2 ^ 64 else v

def leafValue (x i : Int) : Int := i64 (leafTerm x i)

def compositeOracle (x n : Int) : Except PyErr Int :=
  if n < 0 then valueError "n must be >= 0"
  else .ok (i64 ((span 0 n).map (leafTerm x)).sum)

end Python

/-! ## words -/

theorem i64_eq (v : Int) : Python.i64 v = v.bmod (2 ^ 64) := by
  unfold Python.i64
  rw [Int.bmod_def]
  dsimp only
  split <;> split <;> omega

theorem leafTerm_eq (x i : Int) : Python.leafTerm x i = Int.xor x 0x52415958 + 2 * i := by
  have h : i <<< (1 : Nat) = i * 2 := Int.shiftLeft_eq' i 1
  rw [Python.leafTerm, h, Int.mul_comm]

theorem leafWord_eq (x i : Int64) :
    Native.leafWord x i = UInt64.ofInt (Python.leafTerm x.toInt i.toInt) := by
  have hxor : UInt64.ofInt (Int.xor x.toInt 0x52415958) = UInt64.ofInt x.toInt ^^^ Native.leafXor :=
    ofInt_xor x.toInt 0x52415958
  rw [Native.leafWord, leafTerm_eq, UInt64.ofInt_add, hxor, ← ofInt_shift, toUInt64_eq, toUInt64_eq]

/-- **The leaves of the two languages are equal.** -/
theorem leafValue_eq (x i : Int64) :
    (Native.leafValue x i).toInt = Python.leafValue x.toInt i.toInt := by
  rw [Native.leafValue, leafWord_eq, toInt_word, Python.leafValue, i64_eq]

/-- the words of counted leaves sum to the word of the unbounded sum -/
theorem wordSum_leaves (x : Int64) (l : List Int64) :
    wordSum (l.map fun i => Native.leafWord x i)
      = UInt64.ofInt ((l.map Int64.toInt).map (Python.leafTerm x.toInt)).sum := by
  have hmap : (l.map fun i => Native.leafWord x i)
      = (l.map Int64.toInt).map fun i => UInt64.ofInt (Python.leafTerm x.toInt i) := by
    rw [List.map_map]
    exact List.map_congr_left fun i _ => leafWord_eq x i
  rw [hmap, wordSum_eq]

theorem compositeOracle_eq (x n : Int64) : Native.compositeOracle x n
    = (UInt64.ofInt ((span 0 n.toInt).map (Python.leafTerm x.toInt)).sum).toInt64 := by
  rw [Native.compositeOracle, wordSum_leaves, counter_toInt]
  rfl

theorem compositeOracle_python {x n : Int64} (h : 0 ≤ n.toInt) :
    Python.compositeOracle x.toInt n.toInt = .ok (Native.compositeOracle x n).toInt := by
  rw [Python.compositeOracle, if_neg (by omega), compositeOracle_eq, toInt_word, i64_eq]

theorem reduceValues_perm {vs vs' : List Int64} (h : vs.Perm vs') :
    Native.reduceValues vs = Native.reduceValues vs' := by
  rw [Native.reduceValues, Native.reduceValues, wordSum_perm (h.map Int64.toUInt64)]

/-! ## the flat reduction -/

section
variable {x n : Int64} {remotes : List UInt32}

theorem flat_value : Native.reduceValues ((Native.flatLeaves x n remotes).map fun lr => lr.value)
    = Native.compositeOracle x n := by
  rw [Native.reduceValues, Native.flatLeaves, List.map_map, List.map_map]
  rfl

/-! ## the blocks -/

/-- the leaves of a block -/
def extent (b : Int64 × Int64) : Int × Int := (b.1.toInt, b.1.toInt + b.2.toInt)

section
variable {base rem : Int64}

theorem treeBlocks_ranges (r : Nat) (j iBegin : Int64) :
    (Native.treeBlocks base rem r j iBegin).map (fun b => (b.1, b.1 + b.2))
      = fanoutRanges base rem r j iBegin := by
  induction r generalizing j iBegin with
  | zero => rfl
  | succ r ih =>
    rw [Native.treeBlocks, List.map_cons, ih, fanoutRanges]

theorem treeBlocks_length (r : Nat) (j iBegin : Int64) :
    (Native.treeBlocks base rem r j iBegin).length = r := by
  induction r generalizing j iBegin with
  | zero => rfl
  | succ r ih => rw [Native.treeBlocks, List.length_cons, ih]

/-- a block has one leaf more than the quotient only where there is a remainder -/
theorem treeBlocks_count (r : Nat) (j iBegin : Int64) (h0 : 0 ≤ j.toInt) (hj : j.toInt + r < 2 ^ 63) :
    ∀ b ∈ Native.treeBlocks base rem r j iBegin, b.2 = base ∨ b.2 = base + 1 ∧ 0 < rem.toInt := by
  induction r generalizing j iBegin with
  | zero =>
    intro b hb
    cases hb
  | succ r ih =>
    intro b hb
    rcases List.mem_cons.mp hb with rfl | hb
    · by_cases hlt : j < rem
      · refine Or.inr ⟨?_, Int.lt_of_le_of_lt h0 (Int64.lt_iff_toInt_lt.mp hlt)⟩
        show base + (if j < rem then 1 else 0) = base + 1
        rw [if_pos hlt]
      · refine Or.inl ?_
        show base + (if j < rem then 1 else 0) = base
        rw [if_neg hlt, Int64.add_zero]
    · have hsucc : (j + 1).toInt = j.toInt + 1 := toInt_succ (succ_inRange hj)
      exact ih (j + 1) _ (by omega) (by omega) b hb

end

section
variable {r : Nat}

/-- no locality is without a leaf -/
theorem dispatchedBlocks_pos (h1 : 1 ≤ r) (hr : (r : Int) ≤ n.toInt) :
    ∀ b ∈ Native.dispatchedBlocks n r, 0 < b.2.toInt := by
  intro b hb
  have hz : (0 : Int64).toInt = 0 := rfl
  have hlt := Int64.toInt_lt n
  have hof : (Int64.ofNat r).toInt = r := Int64.toInt_ofNat_of_lt (by omega)
  have hdiv : (n / Int64.ofNat r).toInt = n.toInt / r := by
    rw [toInt_div_of_nonneg (by omega) (by omega), hof]
  have hmod : (n % Int64.ofNat r).toInt = n.toInt % r := by
    rw [toInt_mod_of_nonneg _ (by omega), hof]
  have hbase : 1 ≤ n.toInt / r := (Int.le_ediv_iff_mul_le (by omega)).mpr (by omega)
  rcases treeBlocks_count r 0 0 (by omega) (by omega) b hb with h | ⟨h, hrem⟩
  · rw [h, hdiv]
    omega
  · -- where there is a remainder, the quotient is less than the count
    have hsplit := Int.mul_ediv_add_emod n.toInt r
    have hle : n.toInt / r ≤ r * (n.toInt / r) := by
      have := Int.mul_le_mul_of_nonneg_right (show (1 : Int) ≤ r by omega)
        (show 0 ≤ n.toInt / r by omega)
      omega
    have hadd : (n / Int64.ofNat r + 1).toInt = n.toInt / r + 1 := by
      rw [← hdiv]
      exact toInt_succ (succ_inRange (r := 0) (by omega))
    rw [h, hadd]
    omega

/-- a block that ends after it starts has not wrapped around -/
theorem extent_eq {b : Int64 × Int64} (h0 : 0 ≤ b.1.toInt) (h1 : b.1.toInt ≤ (b.1 + b.2).toInt)
    (hpos : 0 < b.2.toInt) : extent b = bounds (b.1, b.1 + b.2) := by
  have hlt1 := Int64.toInt_lt b.1
  have hlt2 := Int64.toInt_lt b.2
  have hsum := Int64.toInt_add b.1 b.2
  have hno : (b.1 + b.2).toInt = b.1.toInt + b.2.toInt := by
    rw [Int.bmod_def] at hsum
    split at hsum <;> omega
  show (b.1.toInt, b.1.toInt + b.2.toInt) = (b.1.toInt, (b.1 + b.2).toInt)
  rw [hno]

/-- **The blocks tile the leaves.** -/
theorem blocks_tile (h1 : 1 ≤ r) (hr : (r : Int) ≤ n.toInt) :
    Tiles 0 n.toInt ((Native.dispatchedBlocks n r).map extent) := by
  have hlt := Int64.toInt_lt n
  have hof : (Int64.ofNat r).toInt = r := Int64.toInt_ofNat_of_lt (by omega)
  have hranges : launched n (Int64.ofNat r)
      = (Native.dispatchedBlocks n r).map fun b => (b.1, b.1 + b.2) := by
    rw [launched, hof, Int.toNat_natCast]
    exact (treeBlocks_ranges r 0 0).symm
  have htiles := (launched_tiles (show 0 ≤ n.toInt by omega)
    (show 1 ≤ (Int64.ofNat r).toInt by omega)).1
  rw [hranges, List.map_map] at htiles
  have hmap : (Native.dispatchedBlocks n r).map extent
      = (Native.dispatchedBlocks n r).map (bounds ∘ fun b => (b.1, b.1 + b.2)) := by
    refine List.map_congr_left fun b hb => ?_
    obtain ⟨h0, hle, _⟩ := htiles.inside _ (List.mem_map_of_mem hb)
    exact extent_eq h0 hle (dispatchedBlocks_pos h1 hr b hb)
  rw [hmap]
  exact htiles

end

/-! ## the tree -/

/-- the counter of a block, from its first leaf on -/
theorem counter_shift {b c : Int64} (h : (b + c).toInt = b.toInt + c.toInt) :
    (counter 0 c).map (b + ·) = counter b (b + c) := by
  have hz : (0 : Int64).toInt = 0 := rfl
  have hlen : ((b + c).toInt - b.toInt).toNat = (c.toInt - (0 : Int64).toInt).toNat := by omega
  rw [counter, counter, hlen, List.map_map]
  refine List.map_congr_left fun j _ => ?_
  show b + (0 + Int64.ofNat j) = b + Int64.ofNat j
  rw [Int64.zero_add]

/-- **A partial** is the word of the unbounded sum over its block. -/
theorem partial_word {b : Int64 × Int64} {locality : UInt32}
    (h : (b.1 + b.2).toInt = b.1.toInt + b.2.toInt) :
    (Native.partialOf x b.1 b.2 locality).partialSum.toUInt64
      = UInt64.ofInt ((span (extent b).1 (extent b).2).map (Python.leafTerm x.toInt)).sum := by
  have hacc : (Native.partialOf x b.1 b.2 locality).partialSum.toUInt64
      = wordSum (((counter 0 b.2).map (b.1 + ·)).map fun i => Native.leafWord x i) := by
    rw [List.map_map]
    rfl
  rw [hacc, wordSum_leaves, counter_shift h, counter_toInt, h]
  rfl

/-- **The tree** reduces to the value of the oracle. -/
theorem tree_value (h1 : 1 ≤ remotes.length) (hr : (remotes.length : Int) ≤ n.toInt) :
    Native.reduceValues ((Native.treePartials x n remotes).map fun pr => pr.partialSum)
      = Native.compositeOracle x n := by
  have htiles := blocks_tile h1 hr
  have hpos := dispatchedBlocks_pos h1 hr
  let total := fun r : Int × Int => ((span r.1 r.2).map (Python.leafTerm x.toInt)).sum
  have hword : ∀ p ∈ (Native.dispatchedBlocks n remotes.length).zip remotes,
      (Native.partialOf x p.1.1 p.1.2 p.2).partialSum.toUInt64
        = UInt64.ofInt (total (extent p.1)) := by
    intro p hp
    have hb := (List.of_mem_zip hp).1
    have hin := htiles.inside _ (List.mem_map_of_mem hb)
    have hend : p.1.1.toInt + p.1.2.toInt ≤ n.toInt := hin.2.2
    have hbegin : 0 ≤ p.1.1.toInt := hin.1
    have hcount := hpos p.1 hb
    have hlt := Int64.toInt_lt n
    refine partial_word ?_
    rw [Int64.toInt_add]
    exact Int.bmod_eq_of_le (by omega) (by omega)
  have hzip : ((Native.dispatchedBlocks n remotes.length).zip remotes).map Prod.fst
      = Native.dispatchedBlocks n remotes.length :=
    List.map_fst_zip (Nat.le_of_eq (treeBlocks_length _ _ _))
  have hwords : ((Native.treePartials x n remotes).map fun pr => pr.partialSum).map Int64.toUInt64
      = ((Native.dispatchedBlocks n remotes.length).map extent).map
        fun r => UInt64.ofInt (total r) := by
    rw [Native.treePartials, List.map_map, List.map_map, List.map_map]
    refine (List.map_congr_left hword).trans ?_
    conv_rhs => rw [← hzip, List.map_map]
    rfl
  rw [Native.reduceValues, hwords, wordSum_eq, htiles.sum_span, compositeOracle_eq]

/-! ## the law -/

/-- the leaves of a fan-out to `remotes` and its tree of partials -/
structure Reduces (x n : Int64) (remotes : List UInt32) : Prop where
  blocks : (Native.dispatchedBlocks n remotes.length).length = remotes.length
  tiles : Tiles 0 n.toInt ((Native.dispatchedBlocks n remotes.length).map extent)
  nonempty : ∀ b ∈ Native.dispatchedBlocks n remotes.length, 0 < b.2.toInt
  /-- in any order of the leaves and of the partials -/
  flat : ∀ l : List Native.LeafRecord, l.Perm (Native.flatLeaves x n remotes) →
    (Native.reduceRemoteLeaves l).1 = Native.compositeOracle x n
  tree : ∀ l : List Native.PartialRecord, l.Perm (Native.treePartials x n remotes) →
    (Native.reducePartials l).1 = Native.compositeOracle x n
  /-- in any order in which the futures become ready -/
  flatSchedules : (FutureGraph.fanIn (Native.flatLeaves x n remotes).length
      (fun i => ((Native.flatLeaves x n remotes).map fun lr => lr.value).getD i 0)
      Native.reduceValues).Yields (Native.flatLeaves x n remotes).length (Native.compositeOracle x n)
  treeSchedules : (FutureGraph.fanIn (Native.treePartials x n remotes).length
      (fun j => ((Native.treePartials x n remotes).map fun pr => pr.partialSum).getD j 0)
      Native.reduceValues).Yields (Native.treePartials x n remotes).length
        (Native.compositeOracle x n)
  oracle : Python.compositeOracle x.toInt n.toInt = .ok (Native.compositeOracle x n).toInt

/-- a join of `vs` waits for all of them -/
theorem join_schedules {vs : List Int64} {m : Nat} {v : Int64} (hm : vs.length = m)
    (h : Native.reduceValues vs = v) :
    (FutureGraph.fanIn m (fun i => vs.getD i 0) Native.reduceValues).Yields m v := by
  have hy := FutureGraph.fanIn_yields m (fun i => vs.getD i 0) Native.reduceValues
  have hvs : (List.range m).map (fun i => vs.getD i 0) = vs := by
    refine List.ext_getElem (by rw [List.length_map, List.length_range, hm]) fun i h1 h2 => ?_
    rw [List.getElem_map, List.getElem_range, List.getD_eq_getElem _ _ h2]
  rw [hvs, h] at hy
  exact hy

/-- **Flat fan-in, tree of partials and oracle agree.** -/
theorem reduction (x n : Int64) (remotes : List UInt32) (h1 : 1 ≤ remotes.length)
    (hr : (remotes.length : Int) ≤ n.toInt) : Reduces x n remotes where
  blocks := treeBlocks_length _ _ _
  tiles := blocks_tile h1 hr
  nonempty := dispatchedBlocks_pos h1 hr
  flat l hl := (reduceValues_perm (hl.map _)).trans flat_value
  tree l hl := (reduceValues_perm (hl.map _)).trans (tree_value h1 hr)
  flatSchedules := join_schedules (List.length_map _) flat_value
  treeSchedules := join_schedules (List.length_map _) (tree_value h1 hr)
  oracle := compositeOracle_python (by omega)

/-- seven leaves of a negative seed on three localities -/
theorem reduction_seven : Reduces (-9) 7 [1, 2, 3] := reduction (-9) 7 [1, 2, 3] (by decide) (by decide)

end

end Reduction
end RayX
