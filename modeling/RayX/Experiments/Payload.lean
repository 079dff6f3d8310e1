import RayX.Experiments.Reduction

/-!
# Payload digests

The bytes of a leaf's response are a sawtooth of period 256; their sum over all leaves is the digest.

* `Native.payloadByte`, `Native.payloadLeaf`   the bytes that the leaf action fills in;
* `Python.payloadDigestNaive`, `Python.payloadDigest`   the digest byte by byte, and in full periods;
* `Python.foldPayloadDigest`    the digest of the bytes that came back;
* `byteSum_period`              a full period has one sum, wherever it starts;
* `payloadByte_eq`              the bytes of the two languages are equal;
* `payload_digest`              **the three digests agree**, in any order of the leaves.
-/

namespace RayX
namespace Payload
open Sys

namespace Native

/-- a leaf record, its buffer as bytes -/
structure PayloadLeafRecord where
  value : Int64
  locality : UInt32
  payload : List UInt8
  deriving DecidableEq

def leafValue (x i : Int64) : Int64 := Reduction.Native.leafValue x i

def payloadByte (x i k : Int64) : UInt8 :=
  (((leafValue x i).toUInt64 + k.toUInt64) &&& 0xFF).toUInt8

/-- `exp64_payload_leaf` at a locality -/
def payloadLeaf (x i payloadBytes : Int64) (locality : UInt32) : PayloadLeafRecord :=
  let s := if 0 < payloadBytes then payloadBytes.toInt.toNat else 0
  ⟨leafValue x i, locality, (List.range s).map fun k => payloadByte x i (Int64.ofNat k)⟩

/-- the leaves of a fan-out, dealt to the remote localities in turn -/
def payloadLeaves (x n s : Int64) (remotes : List UInt32) : List PayloadLeafRecord :=
  (counter 0 n).map fun i => payloadLeaf x i s (remotes.getD (i.toInt.toNat % remotes.length) 0)

end Native

namespace Python

def mask64 (x : Int) : Int := x % 2 ^ 64

/-- `_to_int64` -/
def toInt64 (u : Int) : Int := Reduction.Python.i64 u

def leafValue (x i : Int) : Int := toInt64 (Int.xor (mask64 x) 0x52415958 + mask64 i <<< (1 : Nat))

def payloadByte (x i k : Int) : Int := (mask64 (leafValue x i) + mask64 k) % 256

def payloadDigestNaive (x n s : Int) : Int :=
  toInt64 ((span 0 n).foldl (fun acc i =>
    let base := mask64 (leafValue x i)
    (span 0 s).foldl (fun acc k => mask64 (acc + (base + k) % 256)) acc) 0)

def fullPeriodByteSum : Int := (span 0 256).sum

def payloadDigest (x n s : Int) : Except PyErr Int :=
  if s < 0 then valueError "payload size S must be >= 0"
  else
    let full := s / 256
    let rem := s % 256
    .ok (toInt64 ((span 0 n).foldl (fun acc i =>
      let b0 := leafValue x i % 256
      let leafSum := (span 0 rem).foldl (fun leafSum j => leafSum + (b0 + j) % 256)
        (full * fullPeriodByteSum)
      mask64 (acc + leafSum)) 0))

def payloadBytes (x i s : Int) : List Int :=
  let base := mask64 (leafValue x i)
  (span 0 s).map fun k => (base + k) % 256

/-- the leaves as the extension returns them, the payload as `bytes` -/
def foldPayloadDigest (leaves : List Native.PayloadLeafRecord) : Int :=
  toInt64 (leaves.foldl (fun acc lf =>
    mask64 (acc + (lf.payload.map fun b => (b.toNat : Int)).sum)) 0)

end Python

/-! ## periods -/

/-- the sum of `m` bytes of a sawtooth from `b` on -/
def byteSum (b : Int) (m : Nat) : Int := ((List.range m).map fun j : Nat => (b + j) % 256).sum

theorem byteSum_succ (b : Int) (m : Nat) : byteSum b (m + 1) = byteSum b m + (b + m) % 256 := by
  rw [byteSum, List.range_succ, List.map_append, List.sum_append, List.map_singleton,
    List.sum_singleton]
  rfl

theorem byteSum_emod (b : Int) (m : Nat) : byteSum (b % 256) m = byteSum b m := by
  induction m with
  | zero => rfl
  | succ m ih => rw [byteSum_succ, byteSum_succ, ih, Int.emod_add_emod]

/-- a window that moves by one loses a byte and gains one -/
theorem byteSum_shift (b : Int) (m : Nat) : byteSum (b + 1) m + b % 256 = byteSum b m + (b + m) % 256 := by
  induction m with
  | zero =>
    show 0 + b % 256 = 0 + (b + 0) % 256
    rw [Int.add_zero]
  | succ m ih =>
    rw [byteSum_succ, byteSum_succ]
    push_cast
    have hnext : b + 1 + (m : Int) = b + (m + 1) := by omega
    rw [hnext]
    omega

/-- **A full period has one sum**, wherever it starts. -/
theorem byteSum_period (b : Int) : byteSum b 256 = Python.fullPeriodByteSum := by
  have hnat : ∀ n : Nat, byteSum n 256 = byteSum 0 256 := by
    intro n
    induction n with
    | zero => rfl
    | succ n ih =>
      have hshift := byteSum_shift n 256
      have hcast : ((n + 1 : Nat) : Int) = n + 1 := Int.natCast_succ n
      rw [hcast]
      omega
  have hzero : byteSum 0 256 = Python.fullPeriodByteSum := by decide +kernel
  have hb : ((b % 256).toNat : Int) = b % 256 := by omega
  rw [← byteSum_emod, ← hb, hnat, hzero]

/-- **Full periods and a remainder.** -/
theorem byteSum_full (b : Int) (q r : Nat) :
    byteSum b (256 * q + r) = q * Python.fullPeriodByteSum + byteSum b r := by
  induction q with
  | zero =>
    show byteSum b (0 + r) = 0 * _ + _
    rw [Nat.zero_add, Int.zero_mul, Int.zero_add]
  | succ q ih =>
    have hlen : 256 * (q + 1) + r = 256 + (256 * q + r) := by omega
    -- the period in front
    have hfront : ∀ m, byteSum b (256 + m) = byteSum b 256 + byteSum b m := by
      intro m
      induction m with
      | zero => exact (Int.add_zero _).symm
      | succ m ihm =>
        rw [← Nat.add_assoc, byteSum_succ b (256 + m), ihm, byteSum_succ b m]
        push_cast
        omega
    rw [hlen, hfront, byteSum_period, ih, Int.natCast_succ, Int.add_mul, Int.one_mul]
    omega

theorem span_byteSum (b s : Int) : ((span 0 s).map fun k => (b + k) % 256).sum = byteSum b s.toNat := by
  rw [span, List.map_map, Int.sub_zero, byteSum]
  congr 1
  refine List.map_congr_left fun j _ => ?_
  show (b + (0 + (j : Int))) % 256 = (b + j) % 256
  rw [Int.zero_add]

/-- the bytes of a leaf in full periods -/
theorem leafSum_eq (b s : Int) (hs : 0 ≤ s) :
    (span 0 (s % 256)).foldl (fun leafSum j => leafSum + (b % 256 + j) % 256)
      (s / 256 * Python.fullPeriodByteSum) = byteSum b s.toNat := by
  have hfold : ∀ (l : List Int) (f : Int → Int) (a : Int),
      l.foldl (fun acc j => acc + f j) a = a + (l.map f).sum := by
    intro l f
    induction l with
    | nil => exact fun a => (Int.add_zero a).symm
    | cons j l ih =>
      intro a
      rw [List.foldl_cons, ih, List.map_cons, List.sum_cons, Int.add_assoc]
  have hlen : s.toNat = 256 * (s / 256).toNat + (s % 256).toNat := by omega
  have hq : (((s / 256).toNat : Nat) : Int) = s / 256 := by omega
  rw [hfold, span_byteSum, byteSum_emod, hlen, byteSum_full, hq]

/-! ## the digests -/

theorem mask64_emod (x : Int) : Python.mask64 x % 2 ^ 64 = x % 2 ^ 64 := Int.emod_emod _ _

theorem toInt64_congr {u v : Int} (h : u % 2 ^ 64 = v % 2 ^ 64) :
    Python.toInt64 u = Python.toInt64 v := by
  unfold Python.toInt64 Reduction.Python.i64
  rw [h]

/-- the sum of all bytes of all leaves -/
def total (x n s : Int) : Int := ((span 0 n).map fun i => byteSum (Python.leafValue x i) s.toNat).sum

theorem naive_total (x n s : Int) :
    Python.payloadDigestNaive x n s = Python.toInt64 (total x n s) := by
  refine toInt64_congr ?_
  refine (foldl_emod (f := fun i => byteSum (Python.leafValue x i) s.toNat) (fun i _ a => ?_) 0).trans ?_
  · have hk := foldl_emod (g := fun acc k => Python.mask64
      (acc + (Python.mask64 (Python.leafValue x i) + k) % 256)) (l := span 0 s)
      (fun k _ acc => mask64_emod (acc + (Python.mask64 (Python.leafValue x i) + k) % 256)) a
    have hbase : byteSum (Python.mask64 (Python.leafValue x i)) s.toNat
        = byteSum (Python.leafValue x i) s.toNat := by
      rw [← byteSum_emod, ← byteSum_emod (Python.leafValue x i), Python.mask64]
      congr 1
      omega
    rw [span_byteSum, hbase] at hk
    exact hk
  · rw [Int.zero_add]
    rfl

/-- **The fast digest is the naive one.** -/
theorem payloadDigest_eq (x n : Int) {s : Int} (hs : 0 ≤ s) :
    Python.payloadDigest x n s = .ok (Python.payloadDigestNaive x n s) := by
  rw [Python.payloadDigest, if_neg (by omega), naive_total]
  refine congrArg Except.ok (toInt64_congr ?_)
  refine (foldl_emod (f := fun i => byteSum (Python.leafValue x i) s.toNat) (fun i _ a => ?_) 0).trans ?_
  · dsimp only
    rw [leafSum_eq _ _ hs]
    exact mask64_emod _
  · rw [Int.zero_add]
    rfl

/-! ## the two languages -/

theorem ofInt_emod (x : Int) : UInt64.ofInt (x % 2 ^ 64) = UInt64.ofInt x := by
  apply UInt64.toNat_inj.mp
  rw [toNat_ofInt, toNat_ofInt, Int.emod_emod]

/-- the masks of a leaf change nothing -/
theorem leafValue_mask (x i : Int) : Python.leafValue x i = Reduction.Python.leafValue x i := by
  have hword : UInt64.ofInt (Reduction.Python.leafTerm (x % 2 ^ 64) (i % 2 ^ 64))
      = UInt64.ofInt (Reduction.Python.leafTerm x i) := by
    have hxor : ∀ y : Int, UInt64.ofInt (Int.xor y 0x52415958)
        = UInt64.ofInt y ^^^ UInt64.ofNat 0x52415958 := fun y => ofInt_xor y 0x52415958
    rw [Reduction.leafTerm_eq, Reduction.leafTerm_eq, UInt64.ofInt_add, UInt64.ofInt_add, hxor,
      hxor, ← ofInt_shift, ← ofInt_shift, ofInt_emod, ofInt_emod]
  have hword : (UInt64.ofInt (Reduction.Python.leafTerm (x % 2 ^ 64) (i % 2 ^ 64))).toInt64.toInt
      = (UInt64.ofInt (Reduction.Python.leafTerm x i)).toInt64.toInt := by
    rw [hword]
  rw [toInt_word, toInt_word, ← Reduction.i64_eq, ← Reduction.i64_eq] at hword
  exact hword

theorem leafValue_eq (x i : Int64) :
    (Native.leafValue x i).toInt = Python.leafValue x.toInt i.toInt := by
  rw [leafValue_mask]
  exact Reduction.leafValue_eq x i

/-- **The bytes of the two languages are equal.** -/
theorem payloadByte_eq (x i k : Int64) : ((Native.payloadByte x i k).toNat : Int)
    = Python.payloadByte x.toInt i.toInt k.toInt := by
  have hmask : (0xFF : UInt64).toNat = 2 ^ 8 - 1 := rfl
  have hleaf := leafValue_eq x i
  rw [Native.payloadByte, UInt64.toNat_toUInt8, UInt64.toNat_and, hmask,
    Nat.and_two_pow_sub_one_eq_mod, UInt64.toNat_add, toUInt64_eq, toUInt64_eq, toNat_ofInt,
    toNat_ofInt, hleaf, Python.payloadByte, Python.mask64, Python.mask64]
  omega

/-- a byte past the first mask -/
theorem payloadByte_base (x i k : Int) :
    Python.payloadByte x i k = (Python.mask64 (Python.leafValue x i) + k) % 256 := by
  unfold Python.payloadByte Python.mask64
  omega

section
variable {x i s : Int64} {locality : UInt32}

theorem payloadLeaf_payload : (Native.payloadLeaf x i s locality).payload
    = (List.range s.toInt.toNat).map fun k => Native.payloadByte x i (Int64.ofNat k) := by
  have hlen : (if 0 < s then s.toInt.toNat else 0) = s.toInt.toNat := by
    split
    · rfl
    · rename_i h
      have h : ¬ (0 : Int64).toInt < s.toInt := fun hlt => h (Int64.lt_iff_toInt_lt.mpr hlt)
      have hz : (0 : Int64).toInt = 0 := rfl
      omega
  rw [← hlen]
  rfl

/-- **The buffer of the leaf action** is the `bytes` object of the controller. -/
theorem payloadLeaf_bytes :
    ((Native.payloadLeaf x i s locality).payload.map fun b => (b.toNat : Int))
      = Python.payloadBytes x.toInt i.toInt s.toInt := by
  rw [payloadLeaf_payload, List.map_map, Python.payloadBytes, span, List.map_map, Int.sub_zero]
  refine List.map_congr_left fun k hk => ?_
  have hk := List.mem_range.mp hk
  have hlt := Int64.toInt_lt s
  have hof : (Int64.ofNat k).toInt = k := Int64.toInt_ofNat_of_lt (by omega)
  show ((Native.payloadByte x i (Int64.ofNat k)).toNat : Int)
    = (Python.mask64 (Python.leafValue x.toInt i.toInt) + (0 + (k : Int))) % 256
  rw [payloadByte_eq, hof, payloadByte_base, Int.zero_add]

theorem payloadLeaf_sum :
    ((Native.payloadLeaf x i s locality).payload.map fun b => (b.toNat : Int)).sum
      = byteSum (Python.leafValue x.toInt i.toInt) s.toInt.toNat := by
  have hbase : byteSum (Python.mask64 (Python.leafValue x.toInt i.toInt)) s.toInt.toNat
      = byteSum (Python.leafValue x.toInt i.toInt) s.toInt.toNat := by
    rw [← byteSum_emod, ← byteSum_emod (Python.leafValue x.toInt i.toInt), Python.mask64]
    congr 1
    omega
  rw [payloadLeaf_bytes, Python.payloadBytes, span_byteSum, hbase]

/-- **The fold of the bytes that crossed the boundary.** -/
theorem fold_total {x n s : Int64} {remotes : List UInt32}
    {l : List Native.PayloadLeafRecord} (hl : l.Perm (Native.payloadLeaves x n s remotes)) :
    Python.foldPayloadDigest l = Python.toInt64 (total x.toInt n.toInt s.toInt) := by
  refine toInt64_congr ?_
  have hfold := foldl_emod (g := fun acc lf => Python.mask64
    (acc + (lf.payload.map fun b : UInt8 => (b.toNat : Int)).sum)) (l := l)
    (fun lf _ acc => mask64_emod (acc + (lf.payload.map fun b : UInt8 => (b.toNat : Int)).sum)) 0
  have hleaves : (Native.payloadLeaves x n s remotes).map
      (fun lf => (lf.payload.map fun b : UInt8 => (b.toNat : Int)).sum)
      = (span 0 n.toInt).map fun i => byteSum (Python.leafValue x.toInt i) s.toInt.toNat := by
    have hz : (0 : Int64).toInt = 0 := rfl
    rw [Native.payloadLeaves, List.map_map, ← hz, ← counter_toInt, List.map_map]
    exact List.map_congr_left fun i _ => payloadLeaf_sum
  rw [hfold, (hl.map _).sum_eq, hleaves, Int.zero_add]
  rfl

end

/-! ## the law -/

/-- the digests of `n` leaves of `s` bytes -/
structure Digests (x : Int64) (n s : Int) : Prop where
  naive : Python.payloadDigest x.toInt n s = .ok (Python.payloadDigestNaive x.toInt n s)
  /-- the leaves in any order, from any localities -/
  folded : ∀ (n' s' : Int64) (remotes : List UInt32), n'.toInt = n → s'.toInt = s →
    ∀ l : List Native.PayloadLeafRecord, l.Perm (Native.payloadLeaves x n' s' remotes) →
      Python.foldPayloadDigest l = Python.payloadDigestNaive x.toInt n s
  /-- byte `k` of leaf `i` -/
  buffer : ∀ (i s' : Int64) (locality : UInt32), s'.toInt = s →
    (Native.payloadLeaf x i s' locality).payload
      = (List.range s.toNat).map (fun k => Native.payloadByte x i (Int64.ofNat k)) ∧
    ((Native.payloadLeaf x i s' locality).payload.map fun b => (b.toNat : Int))
      = Python.payloadBytes x.toInt i.toInt s
  bytes : ∀ i k : Int64, ((Native.payloadByte x i k).toNat : Int)
    = Python.payloadByte x.toInt i.toInt k.toInt

/-- **Fast digest, naive digest and the fold of the bytes agree.** -/
theorem payload_digest (x : Int64) (n s : Int) (hs : 0 ≤ s) : Digests x n s where
  naive := payloadDigest_eq x.toInt n hs
  folded n' s' remotes hn hs' l hl := by
    subst hn hs'
    rw [fold_total hl, naive_total]
  buffer i s' locality hs' := by
    subst hs'
    exact ⟨payloadLeaf_payload, payloadLeaf_bytes⟩
  bytes := payloadByte_eq x

/-- three leaves of a negative seed, a period and a remainder -/
theorem payload_digest_three : Digests (-9) 3 300 := payload_digest (-9) 3 300 (by decide)

end Payload
end RayX
