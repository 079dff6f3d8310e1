import RayX.Lib.Dataflow
import RayX.Lib.Ranges
import RayX.Ops.Checked

/-!
# The split of `fanout_sum`

`fanout_sum` cuts `0 .. n - 1` into `parts` ranges, launches a masked sum for each and folds the
partial sums.

* `maskedRange_modEq`     a masked sum over a range is the distance of two triangle numbers mod `2^31`;
* `maskedFold_toNat`      the fold of masked values is their sum mod `2^31`, in any order;
* `fanoutRanges_tiles`    the ranges of the launch loop tile `0 .. n - 1`, and its indices fit;
* `fanoutGraph`           the futures of the body: the parts, and the fold that waits for all of them;
* `fanoutSum_split`       **the ranges are an exact cover, no index overflows, and whatever the order
                          of completion the value is the closed form.**
-/

namespace RayX
open Sys

/-! ## masked sums in any order -/

theorem two_pow_dvd : (2 : Nat) ^ 31 ∣ 2 ^ 64 := Nat.pow_dvd_pow 2 (by omega)

/-- one masked addition -/
theorem masked_add (acc v : UInt64) :
    ((acc + v) &&& busySumMask).toNat = (acc.toNat + v.toNat) % 2 ^ 31 := by
  rw [toNat_mask, UInt64.toNat_add, Nat.mod_mod_of_dvd _ two_pow_dvd]

/-- a run of masked rounds takes a masked accumulator from one triangle number to a later one -/
theorem maskedSteps_modEq (steps : Nat) (acc : UInt64) {i : Int64} {m : Nat}
    (hacc : acc.toNat < 2 ^ 31) (hi : i.toInt = m) (hfit : m + steps < 2 ^ 63) :
    (maskedSteps acc i steps).toNat < 2 ^ 31 ∧
      Nat.ModEq (2 ^ 31) ((maskedSteps acc i steps).toNat + triangle m)
        (acc.toNat + triangle (m + steps)) := by
  induction steps generalizing acc i m with
  | zero => exact ⟨hacc, rfl⟩
  | succ steps ih =>
    have hnext : (i + 1).toInt = ((m + 1 : Nat) : Int) :=
      toInt_add_of hi one_toInt (by omega) (by omega)
    have hround : ((acc + i.toUInt64) &&& busySumMask).toNat = (acc.toNat + m) % 2 ^ 31 := by
      rw [masked_add, toNat_toUInt64 hi]
    obtain ⟨hlt, hmod⟩ := ih ((acc + i.toUInt64) &&& busySumMask)
      (by rw [hround]; exact Nat.mod_lt _ (by decide)) hnext (by omega)
    rw [maskedSteps]
    refine ⟨hlt, ?_⟩
    -- both sides of the rest carry the index `m` of this round
    have hidx : m + 1 + steps = m + (steps + 1) := by omega
    rw [hround, triangle_succ, hidx] at hmod
    refine Nat.ModEq.add_right_cancel' m ?_
    calc (maskedSteps ((acc + i.toUInt64) &&& busySumMask) (i + 1) steps).toNat + triangle m + m
        ≡ (acc.toNat + m) % 2 ^ 31 + triangle (m + (steps + 1)) [MOD 2 ^ 31] := by
          rw [Nat.add_assoc]
          exact hmod
      _ ≡ acc.toNat + m + triangle (m + (steps + 1)) [MOD 2 ^ 31] :=
          (Nat.mod_modEq _ _).add_right _
      _ = acc.toNat + triangle (m + (steps + 1)) + m := by omega

theorem maskedRange_modEq (acc : UInt64) {first last : Int64} (hacc : acc.toNat < 2 ^ 31)
    (h0 : 0 ≤ first.toInt) (hle : first.toInt ≤ last.toInt) :
    (maskedRange acc first last).toNat < 2 ^ 31 ∧
      Nat.ModEq (2 ^ 31) ((maskedRange acc first last).toNat + triangle first.toInt.toNat)
        (acc.toNat + triangle last.toInt.toNat) := by
  have hlt := Int64.toInt_lt last
  have h := maskedSteps_modEq (last.toInt - first.toInt).toNat acc (i := first)
    (m := first.toInt.toNat) hacc (by omega) (by omega)
  have hend : first.toInt.toNat + (last.toInt - first.toInt).toNat = last.toInt.toNat := by omega
  rw [hend] at h
  exact h

/-- **The fold of partial values** is their sum mod `2^31`. -/
theorem maskedFold_toNat (l : List UInt64) :
    (maskedFold l).toNat = (l.map UInt64.toNat).sum % 2 ^ 31 := by
  -- from any masked accumulator on
  have hfold : ∀ acc : UInt64, acc.toNat < 2 ^ 31 →
      (l.foldl (fun acc v => (acc + v) &&& busySumMask) acc).toNat
        = (acc.toNat + (l.map UInt64.toNat).sum) % 2 ^ 31 := by
    induction l with
    | nil =>
      intro acc hacc
      exact (Nat.mod_eq_of_lt hacc).symm
    | cons v l ih =>
      intro acc _
      have hround := masked_add acc v
      rw [List.foldl_cons, ih _ (by rw [hround]; exact Nat.mod_lt _ (by decide)), hround,
        Nat.mod_add_mod, List.map_cons, List.sum_cons, Nat.add_assoc]
  have h := hfold 0 (by decide)
  have h0 : (0 : UInt64).toNat = 0 := rfl
  rw [h0, Nat.zero_add] at h
  exact h

theorem maskedFold_perm {l l' : List UInt64} (h : l.Perm l') : maskedFold l = maskedFold l' := by
  apply UInt64.toNat_inj.mp
  rw [maskedFold_toNat, maskedFold_toNat, (h.map UInt64.toNat).sum_eq]

theorem maskedFold_lt (l : List UInt64) : (maskedFold l).toNat < 2 ^ 31 := by
  rw [maskedFold_toNat]
  exact Nat.mod_lt _ (by decide)

/-! ## the launch loop -/

/-- the bounds of a range as integers -/
def bounds (r : Int64 × Int64) : Int × Int := (r.1.toInt, r.2.toInt)

section
variable {base rem : Int64}

/-- **The launch loop** from part `k` on, `r` parts left: the ranges tile what is left, and no index
leaves `int64`.  What is left is `r` times `base` and one more for each part below `rem`. -/
theorem fanoutRanges_tiles (r : Nat) (k first : Int64) {b : Int} (hb : 0 ≤ base.toInt)
    (hk0 : 0 ≤ k.toInt) (hk : k.toInt + r < 2 ^ 63) (hfirst : 0 ≤ first.toInt)
    (hleft : first.toInt + r * base.toInt + max 0 (min (r : Int) (rem.toInt - k.toInt)) = b)
    (hfit : b < 2 ^ 63) :
    Tiles first.toInt b ((fanoutRanges base rem r k first).map bounds) ∧
      fanoutRangesS base rem r k first = some (fanoutRanges base rem r k first) := by
  induction r generalizing k first with
  | zero =>
    refine ⟨?_, rfl⟩
    show first.toInt = b
    omega
  | succ r ih =>
    have hmul : ((r + 1 : Nat) : Int) * base.toInt = r * base.toInt + base.toInt := by
      push_cast
      rw [Int.add_mul, Int.one_mul]
    have hr : (0 : Int) ≤ r * base.toInt := Int.mul_nonneg (by omega) hb
    rw [hmul] at hleft
    generalize (r : Int) * base.toInt = left at hleft hr ih
    have hin := succ_inRange hk
    have hk1 := toInt_succ hin
    have hone : (if k < rem then (1 : Int64) else 0).toInt = if k.toInt < rem.toInt then 1 else 0 := by
      by_cases hlt : k < rem
      · rw [if_pos hlt, if_pos (Int64.lt_iff_toInt_lt.1 hlt)]
        rfl
      · rw [if_neg hlt, if_neg (fun h => hlt (Int64.lt_iff_toInt_lt.2 h))]
        rfl
    have hlen : (base + if k < rem then 1 else 0).toInt
        = base.toInt + if k.toInt < rem.toInt then 1 else 0 :=
      toInt_add_of rfl hone (by omega) (by omega)
    have hlast : (first + (base + if k < rem then 1 else 0)).toInt
        = first.toInt + (base.toInt + if k.toInt < rem.toInt then 1 else 0) :=
      toInt_add_of rfl hlen (by omega) (by omega)
    obtain ⟨htiles, hrest⟩ := ih (k + 1) (first + (base + if k < rem then 1 else 0))
      (by omega) (by omega) (by omega) (by omega)
    refine ⟨⟨rfl, ?_, htiles⟩, ?_⟩
    · show first.toInt ≤ (first + (base + if k < rem then 1 else 0)).toInt
      omega
    · have hadd : InRange (base.toInt + (if k < rem then (1 : Int64) else 0).toInt) := by
        rw [hone]
        constructor <;> omega
      have hadd' : InRange (first.toInt + (base + if k < rem then 1 else 0).toInt) := by
        rw [hlen]
        constructor <;> omega
      rw [fanoutRangesS, some_bind (addS_eq hadd), some_bind (addS_eq hadd'),
        some_bind (addS_eq hin), some_bind hrest]
      rfl

theorem fanoutRanges_length (r : Nat) (k first : Int64) :
    (fanoutRanges base rem r k first).length = r := by
  induction r generalizing k first with
  | zero => rfl
  | succ r ih =>
    rw [fanoutRanges, List.length_cons, ih]

end

/-- the ranges that the body launches -/
def launched (n parts : Int64) : List (Int64 × Int64) :=
  fanoutRanges (n / parts) (n % parts) parts.toInt.toNat 0 0

/-- what the guard of the body admits -/
structure Splittable (n parts : Int64) : Prop where
  n_nonneg : 0 ≤ n.toInt
  parts_pos : 1 ≤ parts.toInt
  parts_le : parts.toInt ≤ 1024

section
variable {n parts : Int64}

/-- **The ranges tile `0 .. n - 1`**, for any number of parts. -/
theorem launched_tiles (hn : 0 ≤ n.toInt) (hp : 1 ≤ parts.toInt) :
    Tiles 0 n.toInt ((launched n parts).map bounds) ∧
      fanoutRangesS (n / parts) (n % parts) parts.toInt.toNat 0 0 = some (launched n parts) := by
  have hz : (0 : Int64).toInt = 0 := rfl
  have hlt := Int64.toInt_lt n
  have hlt' := Int64.toInt_lt parts
  have hdiv := toInt_div_of_nonneg hn (show 0 < parts.toInt by omega)
  have hmod := toInt_mod_of_nonneg parts hn
  have hb : 0 ≤ n.toInt / parts.toInt := Int.ediv_nonneg hn (by omega)
  have hm0 := Int.emod_nonneg n.toInt (show parts.toInt ≠ 0 by omega)
  have hm1 := Int.emod_lt_of_pos n.toInt (show 0 < parts.toInt by omega)
  have hcast : ((parts.toInt.toNat : Nat) : Int) = parts.toInt := by omega
  have hsplit := Int.mul_ediv_add_emod n.toInt parts.toInt
  refine fanoutRanges_tiles _ 0 0 ?_ (Int.le_refl 0) ?_ (Int.le_refl 0) ?_ hlt
  · rw [hdiv]
    exact hb
  · rw [hz]
    omega
  · rw [hdiv, hmod, hz, hcast]
    omega

/-- the partial sums of the launched ranges -/
def partials (n parts : Int64) : List UInt64 :=
  (launched n parts).map fun r => maskedRangeSum r.1 r.2

theorem maskedFold_partials (h : Splittable n parts) :
    (maskedFold (partials n parts)).toNat = closedForm n := by
  have htiles := (launched_tiles h.n_nonneg h.parts_pos).1
  -- each part takes the triangle number of its start to that of its end
  have hpart : ∀ r ∈ launched n parts, Nat.ModEq (2 ^ 31)
      ((maskedRangeSum r.1 r.2).toNat + triangle r.1.toInt.toNat) (triangle r.2.toInt.toNat) := by
    intro r hr
    have hin := htiles.inside (bounds r) (List.mem_map_of_mem hr)
    have hmod := (maskedRange_modEq 0 (by decide) hin.1 hin.2.1).2
    have h0 : (0 : UInt64).toNat = 0 := rfl
    rw [h0, Nat.zero_add] at hmod
    exact hmod
  have hsum := htiles.sum_modEq (g := bounds) (f := fun i => triangle i.toNat)
    (v := fun r => (maskedRangeSum r.1 r.2).toNat) (m := 2 ^ 31) hpart
  rw [maskedFold_toNat, closedForm, partials, List.map_map]
  exact hsum

/-- the guard of the body -/
theorem splittable_of_guard (h : (decide (n < 0) || badRange 1 fanoutPartsMax parts) = false) :
    Splittable n parts := by
  obtain ⟨hn, hp⟩ := Bool.or_eq_false_iff.1 h
  have hparts := (badRange_iff _ _ _).1 hp
  refine ⟨?_, hparts.1, hparts.2⟩
  exact Int.not_lt.1 (fun hlt => of_decide_eq_false hn (Int64.lt_iff_toInt_lt.2 hlt))

/-! ## the futures of the body -/

/-- the task of part `k` -/
def partialAt (n parts : Int64) (k : Nat) : UInt64 :=
  match (launched n parts)[k]? with
  | some r => maskedRangeSum r.1 r.2
  | none => 0

/-- one future for each launched range, and the fold that waits for all of them -/
def fanoutGraph (n parts : Int64) : FutureGraph UInt64 :=
  FutureGraph.fanIn parts.toInt.toNat (partialAt n parts) maskedFold

theorem map_partialAt (n parts : Int64) :
    (List.range parts.toInt.toNat).map (partialAt n parts) = partials n parts := by
  have hlen : (launched n parts).length = parts.toInt.toNat := fanoutRanges_length _ 0 0
  apply List.ext_getElem
  · rw [List.length_map, List.length_range, partials, List.length_map, hlen]
  · intro k hk hk'
    have hk'' : k < (launched n parts).length := by
      rw [partials, List.length_map] at hk'
      exact hk'
    rw [List.getElem_map, List.getElem_range, partialAt, List.getElem?_eq_getElem hk'']
    exact (List.getElem_map (fun r : Int64 × Int64 => maskedRangeSum r.1 r.2) (h := hk')).symm

theorem fanoutGraph_yields (n parts : Int64) :
    (fanoutGraph n parts).Yields parts.toInt.toNat (maskedFold (partials n parts)) := by
  rw [← map_partialAt]
  exact FutureGraph.fanIn_yields _ _ _

end

/-! ## the law -/

section
variable {σ : Type}

/-- a body whose arithmetic fits: the parts are summed only behind the guard -/
theorem Checked.fanoutSum_eq (a : OpArgs) :
    (fanoutSum a : Prog σ Fault OpOutcome) = (RayX.fanoutSum a).mapErr Fault.exc := by
  refine int64Arg_bind (fun n => int64Arg_bind (fun parts => guardFault_bind (fun hg => ?_)))
  have hs := splittable_of_guard hg
  obtain ⟨h0, h1⟩ := ne_of_toInt_pos (show 0 < parts.toInt from hs.parts_pos)
  refine defined_bind (divS_eq h0 h1) (defined_bind (modS_eq h0 h1) ?_)
  refine defined_bind (launched_tiles hs.n_nonneg hs.parts_pos).2 ?_
  exact defined_bind (mapM_some (launched n parts) (fun r _ => maskedRangeSumS_eq r.1 r.2)) rfl

/-- what `fanout_sum` promises for `n` and `parts`: the ranges are disjoint and contiguous and cover
`0 .. n - 1`; no expression of the body is undefined; every schedule of its futures, and the fold
in any order, gives the closed form, and so does the body -/
structure FanoutLaw (σ : Type) (n parts : Int64) : Prop where
  count : (launched n parts).length = parts.toInt.toNat
  contiguous : Tiles 0 n.toInt ((launched n parts).map bounds)
  disjoint : ((launched n parts).map bounds).Pairwise
    (fun r r' => ∀ i, r.1 ≤ i ∧ i < r.2 → ¬ (r'.1 ≤ i ∧ i < r'.2))
  cover : ∀ i, (0 ≤ i ∧ i < n.toInt) ↔ ∃ r ∈ (launched n parts).map bounds, r.1 ≤ i ∧ i < r.2
  fits : (Checked.fanoutSum [.int64 n, .int64 parts] : Prog σ Fault OpOutcome)
    = pure (.done (.int64 (Int64.ofNat (closedForm n))))
  schedules : (fanoutGraph n parts).Yields parts.toInt.toNat (UInt64.ofNat (closedForm n))
  orders : ∀ l : List UInt64, l.Perm (partials n parts) → (maskedFold l).toNat = closedForm n
  value : (fanoutSum [.int64 n, .int64 parts] : Prog σ Exc OpOutcome)
    = pure (.done (.int64 (Int64.ofNat (closedForm n))))

/-- the body behind its guard -/
theorem fanoutSum_value {n parts : Int64} (h : Splittable n parts) :
    (fanoutSum [.int64 n, .int64 parts] : Prog σ Exc OpOutcome)
      = pure (.done (.int64 (Int64.ofNat (closedForm n)))) := by
  have hn : ¬ n < 0 := fun hlt => Int.not_lt.2 h.n_nonneg (Int64.lt_iff_toInt_lt.1 hlt)
  have hguard : (decide (n < 0) || badRange 1 fanoutPartsMax parts) = false := by
    rw [decide_eq_false hn, badRange_of_mem 1 fanoutPartsMax h.parts_pos h.parts_le]
    rfl
  have hbody : (fanoutSum [.int64 n, .int64 parts] : Prog σ Exc OpOutcome)
      = guardArgs (decide (n < 0) || badRange 1 fanoutPartsMax parts)
          ("fanout_sum requires n >= 0 and 1 <= parts <= " ++ toString fanoutPartsMax) >>=
        fun _ => pure (.done (.int64 (maskedFold (partials n parts)).toInt64)) := rfl
  have hcast : (maskedFold (partials n parts)).toInt64 = Int64.ofNat (closedForm n) := by
    rw [← maskedFold_partials h, ← UInt64.toInt64_ofNat', UInt64.ofNat_toNat]
  rw [hbody, hguard, hcast]
  rfl

/-- **`fanout_sum` does not depend on the split.**  For every `n` and every number of parts that the
guard admits, the ranges are an exact cover, no index leaves `int64`, and every order of completion
gives the closed form. -/
theorem fanoutSum_split {n parts : Int64} (hn : 0 ≤ n) (hp : 1 ≤ parts)
    (hp' : parts ≤ fanoutPartsMax) : FanoutLaw σ n parts := by
  have hs : Splittable n parts :=
    ⟨Int64.le_iff_toInt_le.1 hn, Int64.le_iff_toInt_le.1 hp, Int64.le_iff_toInt_le.1 hp'⟩
  have htiles := (launched_tiles hs.n_nonneg hs.parts_pos).1
  have hfold := maskedFold_partials hs
  refine ⟨fanoutRanges_length _ 0 0, htiles, htiles.disjoint, htiles.cover, ?_, ?_, ?_,
    fanoutSum_value hs⟩
  · rw [Checked.fanoutSum_eq, fanoutSum_value hs]
    rfl
  · rw [← hfold, UInt64.ofNat_toNat]
    exact fanoutGraph_yields n parts
  · intro l hl
    rw [maskedFold_perm hl, hfold]

/-- more parts than indices: the ranges after the third are empty -/
theorem fanoutSum_split_three : (launched 3 5).map bounds = [(0, 1), (1, 2), (2, 3), (3, 3), (3, 3)] ∧
    FanoutLaw Unit 3 5 :=
  ⟨by decide, fanoutSum_split (by decide) (by decide) (by decide)⟩

end

end RayX
