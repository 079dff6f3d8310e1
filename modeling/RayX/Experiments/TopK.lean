import RayX.Lib.TopK
import RayX.Lib.Words
import Mathlib.Algebra.Group.Int.Defs
import Mathlib.Algebra.Group.Nat.Defs

/-!
# Vocabulary-sharded top-k

The candidates of a shard, the cut to its best `k` and the merge of two cuts, in C++ and in the oracle
of the controller.

* `singleBits`, `singleKey`     the float of a grid value as a pattern, and the order of the patterns;
* `Native.localTopk`, `Native.mergeTopk`, `Native.coordinate`   the shard, the merge, a coordinator;
* `Python.oracleTopk`           the oracle;
* `gridValue_eq`                the two grid values are equal for every token and seed;
* `ranks`                       the comparison is a total order of the candidates of a range;
* `sharded_topk`                **the merge of two shards is the cut of the whole range and the list of
                                the oracle**.
-/

namespace RayX
namespace TopK
open Sys

/-! ## logits -/

/-- the pattern of the single-precision value `grid / 8`, which is exact -/
def singleBits (grid : Int) : UInt32 :=
  if grid = 0 then 0
  else
    let m := grid.natAbs
    let e := m.log2
    UInt32.ofNat ((if grid < 0 then 2 ^ 31 else 0) + (e + 124) * 2 ^ 23 + (m * 2 ^ (23 - e) - 2 ^ 23))

/-- patterns other than those of NaNs compare as their magnitudes with the sign, the zeros as equal -/
def singleKey (bits : UInt32) : Int :=
  if bits.toNat < 2 ^ 31 then bits.toNat else 2 ^ 31 - (bits.toNat : Int)

namespace Native

/-- a token id and the pattern of its logit -/
abbrev Cand := Int64 × UInt32

def gridValue (tokenId seed : Int64) : Int :=
  let h : UInt32 := tokenId.toUInt64.toUInt32 * 2654435761 + seed.toUInt64.toUInt32 * 40503
  (h % 131).toNat - 65

def logitBits (tokenId seed : Int64) : UInt32 := singleBits (gridValue tokenId seed)

/-- higher logit, then lower token id -/
def better (a b : Cand) : Bool :=
  if singleKey a.2 ≠ singleKey b.2 then decide (singleKey b.2 < singleKey a.2)
  else decide (a.1 < b.1)

/-- `stable_sort` by `better` -/
def stableSort (l : List Cand) : List Cand := l.mergeSort fun a b => !better b a

/-- `resize(k)` if the size, as an `int`, exceeds `k` -/
def resize (k : Nat) (l : List Cand) : List Cand :=
  if (k : Int) < (Int32.ofNat l.length).toInt then l.take k else l

def cands (lo hi seed : Int64) : List Cand := (counter lo hi).map fun t => (t, logitBits t seed)

def localTopk (lo hi seed : Int64) (k : Nat) : List Cand := resize k (stableSort (cands lo hi seed))

def mergeTopk (a b : List Cand) (k : Nat) : List Cand := resize k (stableSort (a ++ b))

/-- the continuation of `ext_coordinate`: the own cut with the reply of the peer -/
def coordinate (ownLo ownHi peerLo peerHi seed : Int64) (k : Nat) : List Cand :=
  mergeTopk (localTopk ownLo ownHi seed k) (localTopk peerLo peerHi seed k) k

end Native

namespace Python

abbrev Cand := Int × UInt32

/-- `& 0xFFFFFFFF` of an unbounded integer -/
def mask32 (x : Int) : Nat := (x % 2 ^ 32).toNat

def gridValue (tokenId seed : Int) : Int :=
  let h := mask32 (tokenId * 2654435761)
  let h := mask32 ((h + mask32 (seed * 40503) : Nat) : Int)
  (h % 131 : Nat) - 65

def logitBits (tokenId seed : Int) : UInt32 := singleBits (gridValue tokenId seed)

/-- the comparison of the keys `(-logit, id)` -/
def keyLe (a b : Cand) : Bool :=
  decide (-singleKey a.2 < -singleKey b.2) || (decide (-singleKey a.2 = -singleKey b.2) && decide (a.1 ≤ b.1))

def oracleTopk (lo hi seed : Int) (k : Nat) : List Cand :=
  let cand := (span lo hi).map fun t => (t, logitBits t seed)
  (cand.mergeSort keyLe).take k

def isSortedTotalOrder : List Cand → Bool
  | c :: d :: l =>
    if singleKey c.2 < singleKey d.2 then false
    else if singleKey c.2 = singleKey d.2 ∧ d.1 ≤ c.1 then false
    else isSortedTotalOrder (d :: l)
  | _ => true

end Python

/-! ## the grid -/

theorem toNat_ofInt32 (x : Int) : (UInt32.ofInt x).toNat = Python.mask32 x := by
  show (UInt32.ofNat (x % 2 ^ 32).toNat).toNat = _
  rw [UInt32.toNat_ofNat', Python.mask32]
  omega

theorem mask32_add (x y : Int) :
    Python.mask32 ((Python.mask32 x + Python.mask32 y : Nat) : Int) = Python.mask32 (x + y) := by
  unfold Python.mask32
  omega

theorem toNat_mod131 (h : UInt32) : (h % 131).toNat = h.toNat % 131 := by
  rw [UInt32.toNat_mod]
  rfl

/-- **The grid values of the two languages are equal.** -/
theorem gridValue_eq (tokenId seed : Int64) :
    Native.gridValue tokenId seed = Python.gridValue tokenId.toInt seed.toInt := by
  have hmul : (2654435761 : UInt32) = UInt32.ofInt 2654435761 := by decide
  have hseed : (40503 : UInt32) = UInt32.ofInt 40503 := by decide
  unfold Native.gridValue Python.gridValue
  dsimp only
  rw [toNat_mod131, toUInt64_eq, toUInt64_eq, toUInt32_ofInt, toUInt32_ofInt, hmul, hseed,
    ← UInt32.ofInt_mul, ← UInt32.ofInt_mul, ← UInt32.ofInt_add, toNat_ofInt32, mask32_add]

/-! ## the total order -/

/-- the order in which `stable_sort` leaves the candidates -/
def rank (a b : Native.Cand) : Bool := !Native.better b a

theorem better_iff {a b : Native.Cand} : Native.better a b = true ↔
    singleKey b.2 < singleKey a.2 ∨ singleKey a.2 = singleKey b.2 ∧ a.1.toInt < b.1.toInt := by
  unfold Native.better
  split
  · rename_i h
    rw [decide_eq_true_iff]
    exact ⟨Or.inl, fun h' => h'.resolve_right fun h' => h h'.1⟩
  · rename_i h
    have h := Classical.not_not.mp h
    rw [decide_eq_true_iff, Int64.lt_iff_toInt_lt]
    refine ⟨fun hlt => Or.inr ⟨h, hlt⟩, fun h' => ?_⟩
    rcases h' with h' | h'
    · exact absurd h' (by omega)
    · exact h'.2

theorem rank_iff {a b : Native.Cand} : rank a b = true ↔
    singleKey b.2 ≤ singleKey a.2 ∧ (singleKey a.2 = singleKey b.2 → a.1.toInt ≤ b.1.toInt) := by
  have h : rank a b = true ↔ ¬ Native.better b a = true := by
    unfold rank
    cases Native.better b a <;> decide
  rw [h, better_iff]
  omega

section
variable {lo split hi seed : Int64} {k : Nat}

theorem cands_append (h1 : lo ≤ split) (h2 : split ≤ hi) :
    Native.cands lo split seed ++ Native.cands split hi seed = Native.cands lo hi seed := by
  rw [Native.cands, Native.cands, Native.cands, ← List.map_append, counter_append h1 h2]

theorem cands_length (lo hi seed : Int64) :
    (Native.cands lo hi seed).length = (hi.toInt - lo.toInt).toNat := by
  rw [Native.cands, List.length_map, counter_length]

/-- **The comparison is a total order of the candidates of a range.** -/
theorem ranks (lo hi seed : Int64) : Ranks rank (Native.cands lo hi seed) where
  trans a b c hab hbc := by
    rw [rank_iff] at hab hbc ⊢
    omega
  total a b := by
    rw [Bool.or_eq_true, rank_iff, rank_iff]
    omega
  antisymm a ha b hb hab hba := by
    rw [rank_iff] at hab hba
    obtain ⟨t, _, rfl⟩ := List.mem_map.mp ha
    obtain ⟨t', _, rfl⟩ := List.mem_map.mp hb
    have ht : t.toInt = t'.toInt := by
      have hkey : singleKey (Native.logitBits t seed) = singleKey (Native.logitBits t' seed) :=
        Int.le_antisymm hba.1 hab.1
      exact Int.le_antisymm (hab.2 hkey) (hba.2 hkey.symm)
    rw [Int64.toInt_inj.mp ht]
  nodup := (counter_nodup lo hi).map fun t t' h => (Prod.mk.inj h).1

/-- a cut is in strict order -/
theorem cut_sorted :
    (topk rank k (Native.cands lo hi seed)).Pairwise fun a b => Native.better a b = true := by
  have hranks := ranks lo hi seed
  have hnodup : (topk rank k (Native.cands lo hi seed)).Nodup := topk_nodup hranks.nodup
  refine ((topk_sorted hranks).and hnodup).imp_of_mem fun {a b} ha hb hab => ?_
  have hmem : ∀ c ∈ topk rank k (Native.cands lo hi seed), c ∈ Native.cands lo hi seed :=
    fun c hc => topk_subperm.subset hc
  have hstrict := hranks.strict (hmem a ha) (hmem b hb) hab.1 hab.2
  unfold rank at hstrict
  exact (Bool.not_eq_false' _).mp hstrict

theorem cut_distinct : ((topk rank k (Native.cands lo hi seed)).map Prod.fst).Nodup := by
  refine (topk_nodup (ranks lo hi seed).nodup).map_on fun a ha b hb hab => ?_
  obtain ⟨t, _, rfl⟩ := List.mem_map.mp (topk_subperm.subset ha)
  obtain ⟨t', _, rfl⟩ := List.mem_map.mp (topk_subperm.subset hb)
  have hab : t = t' := hab
  rw [hab]

theorem resize_eq {l : List Native.Cand} (h : l.length < 2 ^ 31) : Native.resize k l = l.take k := by
  have hlen : (Int32.ofNat l.length).toInt = l.length := Int32.toInt_ofNat_of_lt h
  rw [Native.resize, hlen]
  split
  · rfl
  · rw [List.take_of_length_le (by omega)]

theorem localTopk_eq (h : hi.toInt - lo.toInt < 2 ^ 31) :
    Native.localTopk lo hi seed k = topk rank k (Native.cands lo hi seed) := by
  refine resize_eq ?_
  rw [Native.stableSort, List.length_mergeSort, cands_length]
  omega

theorem mergeTopk_eq {a b : List Native.Cand} (h : a.length + b.length < 2 ^ 31) :
    Native.mergeTopk a b k = topk rank k (a ++ b) := by
  refine resize_eq ?_
  rw [Native.stableSort, List.length_mergeSort, List.length_append]
  exact h

/-- the merge of two cuts, each at most as long as its shard -/
theorem merge_cuts {lo' hi' : Int64} (h : (hi.toInt - lo.toInt).toNat + (hi'.toInt - lo'.toInt).toNat
    < 2 ^ 31) : Native.mergeTopk (Native.localTopk lo hi seed k) (Native.localTopk lo' hi' seed k) k
      = topk rank k (topk rank k (Native.cands lo hi seed) ++ topk rank k (Native.cands lo' hi' seed)) := by
  rw [localTopk_eq (by omega), localTopk_eq (by omega)]
  refine mergeTopk_eq ?_
  rw [topk_length, topk_length, cands_length, cands_length]
  omega

/-! ## the oracle -/

/-- a candidate as the controller sees it -/
def toPython (c : Native.Cand) : Python.Cand := (c.1.toInt, c.2)

theorem keyLe_toPython (a b : Native.Cand) : rank a b = Python.keyLe (toPython a) (toPython b) := by
  have h : Python.keyLe (toPython a) (toPython b) = true ↔
      singleKey b.2 ≤ singleKey a.2 ∧ (singleKey a.2 = singleKey b.2 → a.1.toInt ≤ b.1.toInt) := by
    unfold Python.keyLe
    rw [Bool.or_eq_true, Bool.and_eq_true, decide_eq_true_iff, decide_eq_true_iff,
      decide_eq_true_iff]
    show -singleKey a.2 < -singleKey b.2 ∨ -singleKey a.2 = -singleKey b.2 ∧ a.1.toInt ≤ b.1.toInt ↔ _
    omega
  rw [Bool.eq_iff_iff, rank_iff, h]

theorem logitBits_eq (t seed : Int64) :
    Native.logitBits t seed = Python.logitBits t.toInt seed.toInt := by
  rw [Native.logitBits, Python.logitBits, gridValue_eq]

theorem cands_toPython (lo hi seed : Int64) : (Native.cands lo hi seed).map toPython
    = (span lo.toInt hi.toInt).map fun t => (t, Python.logitBits t seed.toInt) := by
  rw [Native.cands, ← counter_toInt, List.map_map, List.map_map]
  refine List.map_congr_left fun t _ => ?_
  show (t.toInt, Native.logitBits t seed) = (t.toInt, Python.logitBits t.toInt seed.toInt)
  rw [logitBits_eq]

theorem topk_toPython (lo hi seed : Int64) (k : Nat) :
    (topk rank k (Native.cands lo hi seed)).map toPython
      = Python.oracleTopk lo.toInt hi.toInt seed.toInt k := by
  rw [topk, List.map_take, List.map_mergeSort fun a _ b _ => keyLe_toPython a b, cands_toPython]
  rfl

theorem isSortedTotalOrder_of_better {l : List Native.Cand}
    (h : l.Pairwise fun a b => Native.better a b = true) :
    Python.isSortedTotalOrder (l.map toPython) = true := by
  induction l with
  | nil => rfl
  | cons c l ih =>
    obtain ⟨hc, hl⟩ := List.pairwise_cons.mp h
    cases l with
    | nil => rfl
    | cons d l =>
      have hcd := better_iff.mp (hc d List.mem_cons_self)
      show (if singleKey c.2 < singleKey d.2 then false
        else if singleKey c.2 = singleKey d.2 ∧ d.1.toInt ≤ c.1.toInt then false
        else Python.isSortedTotalOrder ((d :: l).map toPython)) = true
      rw [if_neg (by omega), if_neg (by omega)]
      exact ih hl

end

/-! ## the law -/

/-- two shards of a range, their cuts and the cut of the range -/
structure Sharded (lo split hi seed : Int64) (k : Nat) : Prop where
  merged : Native.mergeTopk (Native.localTopk lo split seed k) (Native.localTopk split hi seed k) k
    = Native.localTopk lo hi seed k
  swapped : Native.mergeTopk (Native.localTopk split hi seed k) (Native.localTopk lo split seed k) k
    = Native.localTopk lo hi seed k
  /-- either owner of a shard may coordinate -/
  coordinated : Native.coordinate lo split split hi seed k = Native.localTopk lo hi seed k ∧
    Native.coordinate split hi lo split seed k = Native.localTopk lo hi seed k
  oracle : (Native.localTopk lo hi seed k).map toPython
    = Python.oracleTopk lo.toInt hi.toInt seed.toInt k
  sorted : (Native.localTopk lo hi seed k).Pairwise fun a b => Native.better a b = true
  checked : Python.isSortedTotalOrder (Python.oracleTopk lo.toInt hi.toInt seed.toInt k) = true
  size : ((Native.localTopk lo hi seed k).length : Int) = min (k : Int) (hi.toInt - lo.toInt)
  distinct : ((Native.localTopk lo hi seed k).map Prod.fst).Nodup

/-- **Sharded top-k is global top-k**, in both languages. -/
theorem sharded_topk (lo split hi seed : Int64) (k : Nat) (h1 : lo ≤ split) (h2 : split ≤ hi)
    (hsize : hi.toInt - lo.toInt < 2 ^ 31) : Sharded lo split hi seed k := by
  have h1' := Int64.le_iff_toInt_le.mp h1
  have h2' := Int64.le_iff_toInt_le.mp h2
  have hlocal : Native.localTopk lo hi seed k = topk rank k (Native.cands lo hi seed) :=
    localTopk_eq hsize
  have hcands : Native.cands lo split seed ++ Native.cands split hi seed = Native.cands lo hi seed :=
    cands_append h1 h2
  have hboth : Ranks rank (Native.cands lo split seed ++ Native.cands split hi seed) := by
    rw [hcands]
    exact ranks lo hi seed
  have hmerged : Native.mergeTopk (Native.localTopk lo split seed k)
      (Native.localTopk split hi seed k) k = Native.localTopk lo hi seed k := by
    rw [merge_cuts (by omega), topk_append hboth, hcands, hlocal]
  have hswapped : Native.mergeTopk (Native.localTopk split hi seed k)
      (Native.localTopk lo split seed k) k = Native.localTopk lo hi seed k := by
    rw [merge_cuts (by omega), topk_append (hboth.perm List.perm_append_comm),
      topk_perm (hboth.perm List.perm_append_comm) List.perm_append_comm, hcands, hlocal]
  have horacle : (Native.localTopk lo hi seed k).map toPython
      = Python.oracleTopk lo.toInt hi.toInt seed.toInt k := by
    rw [hlocal]
    exact topk_toPython lo hi seed k
  have hsorted : (Native.localTopk lo hi seed k).Pairwise fun a b => Native.better a b = true := by
    rw [hlocal]
    exact cut_sorted
  refine ⟨hmerged, hswapped, ⟨hmerged, hswapped⟩, horacle, hsorted, ?_, ?_, ?_⟩
  · rw [← horacle]
    exact isSortedTotalOrder_of_better hsorted
  · rw [hlocal, topk_length, cands_length]
    omega
  · rw [hlocal]
    exact cut_distinct

/-- a range with negative ids, cut short of its middle -/
theorem sharded_topk_five : Sharded (-3) (-1) 4 7 5 :=
  sharded_topk (-3) (-1) 4 7 5 (by decide) (by decide) (by decide)

end TopK
end RayX
