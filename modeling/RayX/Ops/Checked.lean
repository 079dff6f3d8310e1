import RayX.Lib.Signed
import RayX.Ops.ClosedForm

/-!
# The bodies with their signed arithmetic checked

Every body once more, each signed expression of the native code through `addS`, `mulS`, …, so that an
overflow or a division by zero shows as `Fault.undefined` instead of wrapping around.

* `Fault`, `defined`               what a checked body can end with;
* `maskedRangeS_eq`, `chainStagesS_eq`, `chunkedSumS_eq`, …    the kernels have a value, that of the
                                   unchecked ones, under the bounds of their loops;
* `Checked.square`, …              the checked bodies, under the names of the source;
* `Checked.busySum_eq`, …          **a body whose arithmetic fits is the unchecked one**, whatever the
                                   polls answer.
-/

namespace RayX
open Sys

/-! ## faults -/

/-- a throw of the body, or an expression without a value -/
inductive Fault where
  | exc (e : Exc)
  | undefined
  deriving DecidableEq, Repr

section
variable {σ α β : Type}

def defined : Option α → Prog σ Fault α
  | some a => pure a
  | none => .throw .undefined

theorem defined_some (a : α) (f : α → Prog σ Fault β) : defined (some a) >>= f = f a := rfl

/-- a throw or a result, no undefined expression -/
def noFault : Except Fault α → Prop
  | .error .undefined => False
  | _ => True

/-- **A body that keeps its throws only** evaluates no undefined expression. -/
theorem noFault_mapErr (p : Prog σ Exc α) (s : σ) :
    (p.mapErr Fault.exc).wp (fun r _ => noFault r) s := by
  refine Prog.wp_mapErr (Prog.wp_mono ?_ p s (p.wp_true s))
  intro r s' _
  cases r <;> trivial

end

/-! ## kernels -/

def checkpointsS (stride n : Int64) : Option Int :=
  if n ≤ stride then some 1
  else do
    let m ← subS n 1
    let d ← divS m stride
    let c ← addS d 1
    some (if intMax < c then intMax.toInt else c.toInt)

def maskedStepsS (acc : UInt64) (i : Int64) : Nat → Option UInt64
  | 0 => some acc
  | steps + 1 => do
    let i' ← addS i 1
    maskedStepsS ((acc + i.toUInt64) &&& busySumMask) i' steps

def maskedRangeS (acc : UInt64) (first last : Int64) : Option UInt64 :=
  maskedStepsS acc first (last.toInt - first.toInt).toNat

def maskedRangeSumS (first last : Int64) : Option UInt64 := maskedRangeS 0 first last

/-- chunk `k`, and the increment of the chunk counter -/
def maskedChunkS (n : Int64) (k : Int) (acc : UInt64) : Option UInt64 := do
  let first ← mulS (Int64.ofInt k) busySumStride
  let last ← addS first busySumStride
  let acc ← maskedRangeS acc first (min last n)
  let _ ← intS (k + 1)
  some acc

def chainStageS (x q : Int64) : Option Int64 := do
  let acc ← maskedRangeSumS 0 q
  some ((x.toUInt64 + acc) &&& busySumMask).toInt64

/-- `r` stages left of a loop that has reached stage `k` -/
def chainStagesS (q : Int64) : Nat → Int64 → Int64 → Option Int64
  | 0, _, x => some x
  | r + 1, k, x => do
    let x' ← chainStageS x q
    let k' ← addS k 1
    chainStagesS q r k' x'

def fanoutRangesS (base rem : Int64) : Nat → Int64 → Int64 → Option (List (Int64 × Int64))
  | 0, _, _ => some []
  | r + 1, k, first => do
    let len ← addS base (if k < rem then 1 else 0)
    let last ← addS first len
    let k' ← addS k 1
    let rest ← fanoutRangesS base rem r k' last
    some ((first, last) :: rest)

def chunkedSumS (quantum : Int64) : Nat → Int → UInt64 → Option UInt64
  | 0, _, acc => some acc
  | r + 1, k, acc => do
    let acc' ← maskedChunkS quantum k acc
    chunkedSumS quantum r (k + 1) acc'

/-- the launch loop over `count` children, then their values in the order of the launch -/
def faninS (seed : Int64) (count : Nat) (child : Int64 → Option Int64) : Option Int64 := do
  let _ ← countS count 0
  let vs ← (List.range count).mapM fun j => child (seedAt seed j)
  some (maskedFold (vs.map Int64.toUInt64)).toInt64

theorem checkpointsS_eq {stride n : Int64} (h0 : 1 < stride.toInt) :
    checkpointsS stride n = some (checkpoints stride n) := by
  unfold checkpointsS checkpoints
  by_cases hle : n ≤ stride
  · rw [if_pos hle, if_pos hle]
  · have hN : ¬ n.toInt ≤ stride.toInt := fun h => hle (Int64.le_iff_toInt_le.2 h)
    have hlt := Int64.toInt_lt n
    have hsub : InRange (n.toInt - (1 : Int64).toInt) := by
      rw [one_toInt]
      constructor <;> omega
    obtain ⟨hz, hm⟩ := ne_of_toInt_pos (show 0 < stride.toInt by omega)
    have hn1 : (n - 1).toInt = n.toInt - 1 := by
      rw [Int64.toInt_sub, one_toInt]
      exact Int.bmod_eq_of_le (by omega) (by omega)
    -- a quotient by more than one leaves room for the increment
    have hadd : InRange (((n - 1) / stride).toInt + (1 : Int64).toInt) := by
      rw [toInt_div_of_nonneg (by omega) (by omega), hn1, one_toInt]
      have h1 : 0 ≤ (n.toInt - 1) / stride.toInt := Int.ediv_nonneg (by omega) (by omega)
      have h2 : (n.toInt - 1) / stride.toInt ≤ n.toInt - 1 := Int.ediv_le_self _ (by omega)
      constructor <;> omega
    rw [if_neg hle, if_neg hle, some_bind (subS_eq hsub), some_bind (divS_eq hz hm),
      some_bind (addS_eq hadd)]

theorem maskedStepsS_eq (steps : Nat) {acc : UInt64} {i : Int64} (h : i.toInt + steps < 2 ^ 63) :
    maskedStepsS acc i steps = some (maskedSteps acc i steps) := by
  induction steps generalizing acc i with
  | zero => rfl
  | succ steps ih =>
    have hin := succ_inRange h
    rw [maskedStepsS, maskedSteps, some_bind (addS_eq hin)]
    exact ih (by rw [toInt_succ hin]; omega)

/-- no index of a range leaves `int64`, wherever the range lies -/
theorem maskedRangeS_eq (acc : UInt64) (first last : Int64) :
    maskedRangeS acc first last = some (maskedRange acc first last) := by
  have h1 := Int64.toInt_lt last
  have h2 := Int64.toInt_lt first
  exact maskedStepsS_eq _ (by omega)

theorem maskedRangeSumS_eq (first last : Int64) :
    maskedRangeSumS first last = some (maskedRangeSum first last) := maskedRangeS_eq 0 first last

theorem maskedChunkS_eq {n : Int64} {k : Int} {acc : UInt64} (h0 : 0 ≤ k) (hk : k < 2147483647) :
    maskedChunkS n k acc = some (maskedChunk n k acc) := by
  have hofInt : (Int64.ofInt k).toInt = k := Int64.toInt_ofInt_of_le (by omega) (by omega)
  have hmul : InRange ((Int64.ofInt k).toInt * busySumStride.toInt) := by
    rw [hofInt, stride_toInt]
    constructor <;> omega
  have hfirst := (chunkExact n h0 hk).first
  have hadd : InRange ((Int64.ofInt k * busySumStride).toInt + busySumStride.toInt) := by
    rw [hfirst, stride_toInt]
    constructor <;> omega
  have hint : intS (k + 1) = some (k + 1) := intS_eq (by omega) (by omega)
  rw [maskedChunkS, some_bind (mulS_eq hmul), some_bind (addS_eq hadd),
    some_bind (maskedRangeS_eq acc _ _), some_bind hint]
  rfl

theorem chainStageS_eq (x q : Int64) : chainStageS x q = some (chainStage x q) := by
  rw [chainStageS, some_bind (maskedRangeSumS_eq 0 q)]
  rfl

theorem chainStagesS_eq (q : Int64) (r : Nat) {k x : Int64} (h : k.toInt + r < 2 ^ 63) :
    chainStagesS q r k x = some (chainStages q r x) := by
  induction r generalizing k x with
  | zero => rfl
  | succ r ih =>
    have hin := succ_inRange h
    rw [chainStagesS, chainStages, some_bind (chainStageS_eq x q), some_bind (addS_eq hin)]
    exact ih (by rw [toInt_succ hin]; omega)

theorem chunkedSumS_eq {quantum : Int64} (r : Nat) {k : Int} {acc : UInt64} (h0 : 0 ≤ k)
    (hr : k + r ≤ 2147483647) :
    chunkedSumS quantum r k acc = some (chunkedSum quantum r k acc) := by
  induction r generalizing k acc with
  | zero => rfl
  | succ r ih =>
    rw [chunkedSumS, chunkedSum, some_bind (maskedChunkS_eq h0 (by omega))]
    exact ih (by omega) (by omega)

/-- partial functions that have values on a list -/
theorem mapM_some {α β : Type} {f : α → Option β} {g : α → β} (l : List α)
    (h : ∀ a ∈ l, f a = some (g a)) : l.mapM f = some (l.map g) := by
  induction l with
  | nil => rfl
  | cons a l ih =>
    rw [List.mapM_cons, some_bind (h a List.mem_cons_self),
      some_bind (ih (fun b hb => h b (List.mem_cons_of_mem a hb)))]
    rfl

theorem faninS_eq {seed : Int64} {count : Nat} {child : Int64 → Int64}
    {childS : Int64 → Option Int64} (hc : count < 2 ^ 63)
    (h : ∀ x, childS x = some (child x)) :
    faninS seed count childS = some (fanin seed count child) := by
  have hz : (0 : Int64).toInt = 0 := rfl
  obtain ⟨j, hj⟩ := countS_eq count (j := 0) (by rw [hz]; omega)
  rw [faninS, some_bind hj, some_bind (mapM_some (List.range count) (fun j _ => h (seedAt seed j))),
    List.map_map]
  rfl

/-! ## loops -/

section
variable {σ ε ε' α : Type} {g : ε → ε'} {nChk : Int}

/-- a loop whose chunks are renamed is the renamed loop -/
theorem runCheckpoints_mapErr {chunk : Int → α → Prog σ ε α} {chunkS : Int → α → Prog σ ε' α}
    (h : ∀ k a, 0 ≤ k → k < nChk → chunkS k a = (chunk k a).mapErr g) (a : α) :
    runCheckpoints nChk chunkS a = (runCheckpoints nChk chunk a).mapErr g := by
  -- the chunks left, from any chunk on
  have hloop : ∀ (r : Nat) (k : Int) (a : α), 0 ≤ k → k + r ≤ nChk →
      checkpointLoop nChk chunkS r k a = (checkpointLoop nChk chunk r k a).mapErr g := by
    intro r
    induction r with
    | zero =>
      intro k a _ _
      rfl
    | succ r ih =>
      intro k a h0 hr
      have hrest : chunkS k a >>= (fun a' => checkpointLoop nChk chunkS r (k + 1) a')
          = (chunk k a >>= fun a' => checkpointLoop nChk chunk r (k + 1) a').mapErr g := by
        rw [h k a h0 (by omega)]
        exact Prog.bind_mapErr (fun a' => ih (k + 1) a' (by omega) (by omega))
      by_cases hk : 0 < k
      · rw [checkpointLoop_succ a hk, checkpointLoop_succ a hk]
        refine congrArg (Prog.poll _) (funext fun b => ?_)
        cases b with
        | true => rfl
        | false => exact hrest
      · rw [checkpointLoop, checkpointLoop, if_neg hk, if_neg hk]
        exact hrest
  by_cases hn : 0 ≤ nChk
  · exact hloop _ 0 a (by omega) (by omega)
  · have h0 : nChk.toNat = 0 := by omega
    rw [runCheckpoints, runCheckpoints, h0]
    rfl

end

theorem checkpoints_le (stride n : Int64) : checkpoints stride n ≤ 2147483647 := by
  have hmax : intMax.toInt = 2147483647 := rfl
  unfold checkpoints
  by_cases hle : n ≤ stride
  · rw [if_pos hle]
    decide
  · rw [if_neg hle]
    by_cases hc : intMax < (n - 1) / stride + 1
    · rw [if_pos hc, hmax]
    · rw [if_neg hc, ← hmax]
      exact Int.not_lt.1 (fun h => hc (Int64.lt_iff_toInt_lt.2 h))

section
variable {σ : Type}

def runMaskedCheckpointLoopS (n : Int64) : Prog σ Fault (Option UInt64) := do
  let nChk ← defined (checkpointsS busySumStride n)
  runCheckpoints nChk (fun k acc => defined (maskedChunkS n k acc)) 0

/-- the chunk of a park, and the increment of the chunk counter -/
def parkChunkS (k : Int) (remaining : Int64) : Prog σ Fault Int64 :=
  let chunk := if remaining < parkMsStride then remaining else parkMsStride
  let next : Option Int64 := do
    let rest ← subS remaining chunk
    let _ ← intS (k + 1)
    some rest
  if 0 < chunk then Prog.sleepFor chunk.toInt >>= fun _ => defined next else defined next

def parkLoopS (ms : Int64) : Prog σ Fault (Option Int64) := do
  let nChk ← defined (checkpointsS parkMsStride ms)
  runCheckpoints nChk parkChunkS ms

theorem runMaskedCheckpointLoopS_eq (n : Int64) :
    (runMaskedCheckpointLoopS n : Prog σ Fault (Option UInt64))
      = (runMaskedCheckpointLoop n).mapErr Fault.exc := by
  rw [runMaskedCheckpointLoopS, checkpointsS_eq (by decide), defined_some]
  refine runCheckpoints_mapErr (fun k acc h0 hk => ?_) 0
  have hle := checkpoints_le busySumStride n
  rw [maskedChunkS_eq h0 (by omega)]
  rfl

theorem parkChunkS_eq {k : Int} (h0 : 0 ≤ k) (hk : k < 2147483647) (remaining : Int64) :
    (parkChunkS k remaining : Prog σ Fault Int64) = (parkChunk remaining).mapErr Fault.exc := by
  have hstride : parkMsStride.toInt = 10 := rfl
  have hlo := Int64.le_toInt remaining
  have hhi := Int64.toInt_lt remaining
  unfold parkChunkS parkChunk
  -- what is left is not negative, or less by one stride
  have hsub : InRange (remaining.toInt
      - (if remaining < parkMsStride then remaining else parkMsStride).toInt) := by
    split
    · rw [Int.sub_self]
      decide
    · rename_i hge
      have h10 : 10 ≤ remaining.toInt := Int.not_lt.1 (fun h => hge (Int64.lt_iff_toInt_lt.2 h))
      rw [hstride]
      constructor <;> omega
  dsimp only
  rw [some_bind (subS_eq hsub), some_bind (intS_eq (x := k + 1) (by omega) (by omega))]
  generalize (if remaining < parkMsStride then remaining else parkMsStride) = chunk
  by_cases hc : 0 < chunk
  · rw [if_pos hc, if_pos hc]
    rfl
  · rw [if_neg hc, if_neg hc]
    rfl

theorem parkLoopS_eq (ms : Int64) :
    (parkLoopS ms : Prog σ Fault (Option Int64)) = (parkLoop ms).mapErr Fault.exc := by
  rw [parkLoopS, checkpointsS_eq (by decide), defined_some]
  refine runCheckpoints_mapErr (fun k remaining h0 hk => ?_) ms
  have hle := checkpoints_le parkMsStride ms
  exact parkChunkS_eq h0 (by omega) remaining

end

/-! ## the checked bodies -/

/-- a checked body -/
abbrev CheckedFn (σ : Type) := OpArgs → Prog σ Fault OpOutcome

section
variable {σ : Type}

def int64Arg (a : OpArgs) (i : Nat) (op : String) : Prog σ Fault Int64 :=
  (Prog.ofExcept (asInt64 a i op)).mapErr Fault.exc

def doubleArg (a : OpArgs) (i : Nat) (op : String) : Prog σ Fault Float :=
  (Prog.ofExcept (asDouble a i op)).mapErr Fault.exc

def guardFault (bad : Bool) (msg : String) : Prog σ Fault Unit := (guardArgs bad msg).mapErr Fault.exc

end

namespace Checked

section
variable {σ : Type}

def square : CheckedFn σ := fun a => do
  let x ← int64Arg a 0 "square"
  let v ← defined (mulS x x)
  pure (.done (.int64 v))

def add : CheckedFn σ := fun a => do
  let x ← int64Arg a 0 "add"
  let y ← int64Arg a 1 "add"
  let v ← defined (addS x y)
  pure (.done (.int64 v))

def boom : CheckedFn σ := fun a => (RayX.boom a).mapErr Fault.exc

def busySum : CheckedFn σ := fun a => do
  let n ← int64Arg a 0 "busy_sum"
  let acc ← runMaskedCheckpointLoopS n
  pure (loopOutcome (fun acc => .int64 acc.toInt64) acc)

def scaleDouble : CheckedFn σ := fun a => do
  let x ← doubleArg a 0 "scale_double"
  let factor ← doubleArg a 1 "scale_double"
  pure (.done (.double (x * factor)))

/-- the loop of `chain_sum_loop`; `chain_sum_then` counts its launches and runs its continuations -/
def chainSum (op : String) : CheckedFn σ := fun a => do
  let seed ← int64Arg a 0 op
  let steps ← int64Arg a 1 op
  let quantum ← int64Arg a 2 op
  guardFault (badRange 0 chainStepsMax steps || badRange 0 chainQuantumMax quantum)
    (op ++ " requires 0 <= steps <= " ++ toString chainStepsMax ++ " and 0 <= quantum <= "
      ++ toString chainQuantumMax)
  let x ← defined (chainStagesS quantum steps.toInt.toNat 0 seed)
  pure (.done (.int64 x))

def chainSumLoop : CheckedFn σ := chainSum "chain_sum_loop"
def chainSumThen : CheckedFn σ := chainSum "chain_sum_then"

def fanoutSum : CheckedFn σ := fun a => do
  let n ← int64Arg a 0 "fanout_sum"
  let parts ← int64Arg a 1 "fanout_sum"
  guardFault (decide (n < 0) || badRange 1 fanoutPartsMax parts)
    ("fanout_sum requires n >= 0 and 1 <= parts <= " ++ toString fanoutPartsMax)
  let base ← defined (divS n parts)
  let rem ← defined (modS n parts)
  let ranges ← defined (fanoutRangesS base rem parts.toInt.toNat 0 0)
  let partials ← defined (ranges.mapM fun r => maskedRangeSumS r.1 r.2)
  pure (.done (.int64 (maskedFold partials).toInt64))

def parkMs : CheckedFn σ := fun a => do
  let ms ← int64Arg a 0 "park_ms"
  guardFault (badRange 0 parkMsMax ms) ("park_ms requires 0 <= ms <= " ++ toString parkMsMax)
  let remaining ← parkLoopS ms
  pure (loopOutcome (fun _ => .int64 ms) remaining)

def chainFanout : CheckedFn σ := fun a => do
  let seed ← int64Arg a 0 "chain_fanout"
  let count ← int64Arg a 1 "chain_fanout"
  let steps ← int64Arg a 2 "chain_fanout"
  let quantum ← int64Arg a 3 "chain_fanout"
  guardFault (badRange 1 chainFanoutKMax count || badRange 0 chainStepsMax steps
      || badRange 0 chainQuantumMax quantum)
    ("chain_fanout requires 1 <= count <= " ++ toString chainFanoutKMax ++ ", 0 <= steps <= "
      ++ toString chainStepsMax ++ ", and 0 <= quantum <= " ++ toString chainQuantumMax)
  let v ← defined (faninS seed count.toInt.toNat (chainStagesS quantum steps.toInt.toNat 0))
  pure (.done (.int64 v))

/-- the launch counter is an `int` that ends at `leaves` -/
def barrierFanin : CheckedFn σ := fun a => do
  let seed ← int64Arg a 0 "barrier_fanin"
  let leaves ← int64Arg a 1 "barrier_fanin"
  let quantum ← int64Arg a 2 "barrier_fanin"
  guardFault (badRange 1 faninLeavesMax leaves || badRange 0 chainQuantumMax quantum)
    ("barrier_fanin requires 1 <= leaves <= " ++ toString faninLeavesMax
      ++ " and 0 <= quantum <= " ++ toString chainQuantumMax)
  let n ← defined (intS leaves.toInt)
  let v ← defined (faninS seed n.toNat (chainStageS · quantum))
  pure (.done (.int64 v))

def diamondFanin : CheckedFn σ := fun a => do
  let seed ← int64Arg a 0 "diamond_fanin"
  let quantum ← int64Arg a 1 "diamond_fanin"
  guardFault (badRange 0 chainQuantumMax quantum)
    ("diamond_fanin requires 0 <= quantum <= " ++ toString chainQuantumMax)
  let root ← defined (chainStageS seed quantum)
  let b ← defined ((addS root 1).bind (chainStageS · quantum))
  let c ← defined ((addS root 2).bind (chainStageS · quantum))
  let joined := (b.toUInt64 + c.toUInt64) &&& busySumMask
  let v ← defined (chainStageS joined.toInt64 quantum)
  pure (.done (.int64 v))

def overlapArm (mode quantum x : Int64) : Option Int64 :=
  if mode = 0 then chainStageS x quantum
  else do
    let nChunks ← checkpointsS busySumStride quantum
    let acc ← chunkedSumS quantum nChunks.toNat 0 0
    some ((x.toUInt64 + acc) &&& busySumMask).toInt64

def overlapProbe : CheckedFn σ := fun a => do
  let seed ← int64Arg a 0 "overlap_probe"
  let quantum ← int64Arg a 1 "overlap_probe"
  let mode ← int64Arg a 2 "overlap_probe"
  guardFault (badRange 0 chainQuantumMax quantum || (mode != 0 && mode != 1))
    ("overlap_probe requires 0 <= quantum <= " ++ toString chainQuantumMax
      ++ " and mode in \x7b0, 1\x7d")
  let leaf0 ← defined (overlapArm mode quantum seed)
  let leaf1 ← defined (overlapArm mode quantum (seedAt seed 1))
  pure (.done (.int64 ((leaf0.toUInt64 + leaf1.toUInt64) &&& busySumMask).toInt64))

end

end Checked

/-! ## a body whose arithmetic fits is the unchecked one -/

section
variable {σ β : Type} {a : OpArgs} {i : Nat} {op : String}

theorem int64Arg_bind {f : Int64 → Prog σ Exc β} {f' : Int64 → Prog σ Fault β}
    (h : ∀ x, f' x = (f x).mapErr Fault.exc) :
    int64Arg a i op >>= f' = (liftM (asInt64 a i op) >>= f).mapErr Fault.exc := Prog.bind_mapErr h

theorem guardFault_bind {bad : Bool} {msg : String} {f : Unit → Prog σ Exc β}
    {f' : Unit → Prog σ Fault β} (h : bad = false → f' () = (f ()).mapErr Fault.exc) :
    guardFault bad msg >>= f' = (guardArgs bad msg >>= f).mapErr Fault.exc := by
  unfold guardFault guardArgs
  cases bad with
  | true => rfl
  | false => exact h rfl

theorem defined_bind {γ : Type} {x : Option γ} {v : γ} {f : γ → Prog σ Fault β}
    {p : Prog σ Exc β} (hx : x = some v) (h : f v = p.mapErr Fault.exc) :
    defined x >>= f = p.mapErr Fault.exc := by
  rw [hx, defined_some, h]

namespace Checked

theorem boom_eq (a : OpArgs) : (boom a : Prog σ Fault OpOutcome) = (RayX.boom a).mapErr Fault.exc := rfl

theorem scaleDouble_eq (a : OpArgs) :
    (scaleDouble a : Prog σ Fault OpOutcome) = (RayX.scaleDouble a).mapErr Fault.exc :=
  Prog.bind_mapErr (fun _ => Prog.bind_mapErr (fun _ => rfl))

theorem busySum_eq (a : OpArgs) :
    (busySum a : Prog σ Fault OpOutcome) = (RayX.busySum a).mapErr Fault.exc := by
  refine int64Arg_bind (fun n => ?_)
  rw [runMaskedCheckpointLoopS_eq]
  exact Prog.bind_mapErr (fun _ => rfl)

theorem parkMs_eq (a : OpArgs) :
    (parkMs a : Prog σ Fault OpOutcome) = (RayX.parkMs a).mapErr Fault.exc := by
  refine int64Arg_bind (fun ms => guardFault_bind (fun _ => ?_))
  rw [parkLoopS_eq]
  exact Prog.bind_mapErr (fun _ => rfl)

/-- a counter that starts at `0` and counts the argument `x` down -/
theorem zero_add_lt (x : Int64) : (0 : Int64).toInt + x.toInt.toNat < 2 ^ 63 := by
  have h0 : (0 : Int64).toInt = 0 := rfl
  have hlt := Int64.toInt_lt x
  omega

theorem chainSum_eq (op : String) (a : OpArgs) :
    (chainSum op a : Prog σ Fault OpOutcome) = (RayX.chainSum op a).mapErr Fault.exc := by
  refine int64Arg_bind (fun seed => int64Arg_bind (fun steps => int64Arg_bind (fun quantum => ?_)))
  refine guardFault_bind (fun _ => ?_)
  exact defined_bind (chainStagesS_eq quantum _ (zero_add_lt steps)) rfl

theorem chainFanout_eq (a : OpArgs) :
    (chainFanout a : Prog σ Fault OpOutcome) = (RayX.chainFanout a).mapErr Fault.exc := by
  refine int64Arg_bind (fun seed => int64Arg_bind (fun count => int64Arg_bind (fun steps => ?_)))
  refine int64Arg_bind (fun quantum => guardFault_bind (fun _ => ?_))
  have hlt := Int64.toInt_lt count
  refine defined_bind (faninS_eq (by omega) (fun x => ?_)) rfl
  exact chainStagesS_eq quantum _ (zero_add_lt steps)

theorem barrierFanin_eq (a : OpArgs) :
    (barrierFanin a : Prog σ Fault OpOutcome) = (RayX.barrierFanin a).mapErr Fault.exc := by
  refine int64Arg_bind (fun seed => int64Arg_bind (fun leaves => int64Arg_bind (fun quantum => ?_)))
  refine guardFault_bind (fun hg => ?_)
  have hleaves := (badRange_iff _ _ _).1 (Bool.or_eq_false_iff.1 hg).1
  have h1 : (1 : Int64).toInt = 1 := rfl
  have h64 : faninLeavesMax.toInt = 64 := rfl
  refine defined_bind (intS_eq (by omega) (by omega)) ?_
  exact defined_bind (faninS_eq (by omega) (fun x => chainStageS_eq x quantum)) rfl

/-- a stage is a masked value, `0` to `2^31 - 1` -/
theorem chainStage_range (x q : Int64) : 0 ≤ (chainStage x q).toInt ∧ (chainStage x q).toInt < 2 ^ 31 := by
  unfold chainStage
  generalize x.toUInt64 + maskedRangeSum 0 q = w
  have hw : (w &&& busySumMask).toNat < 2 ^ 31 := by
    rw [toNat_mask]
    exact Nat.mod_lt _ (by decide)
  have hcast : (w &&& busySumMask).toInt64 = Int64.ofNat (w &&& busySumMask).toNat := by
    rw [← UInt64.toInt64_ofNat', UInt64.ofNat_toNat]
  rw [hcast, Int64.toInt_ofNat_of_lt (by omega)]
  omega

theorem diamondFanin_eq (a : OpArgs) :
    (diamondFanin a : Prog σ Fault OpOutcome) = (RayX.diamondFanin a).mapErr Fault.exc := by
  refine int64Arg_bind (fun seed => int64Arg_bind (fun quantum => guardFault_bind (fun _ => ?_)))
  obtain ⟨h0, hlt⟩ := chainStage_range seed quantum
  -- the two arms start one and two above the root
  have harm : ∀ d : Int64, 0 ≤ d.toInt → d.toInt ≤ 2 →
      (addS (chainStage seed quantum) d).bind (chainStageS · quantum)
        = some (chainStage (chainStage seed quantum + d) quantum) := by
    intro d hd0 hd2
    rw [addS_eq ⟨by omega, by omega⟩]
    exact chainStageS_eq _ quantum
  refine defined_bind (chainStageS_eq seed quantum) ?_
  refine defined_bind (harm 1 (by decide) (by decide)) ?_
  refine defined_bind (harm 2 (by decide) (by decide)) ?_
  exact defined_bind (chainStageS_eq _ quantum) rfl

theorem overlapArm_eq (mode quantum x : Int64) :
    overlapArm mode quantum x = some (RayX.overlapArm mode quantum x) := by
  unfold overlapArm RayX.overlapArm
  by_cases hm : mode = 0
  · rw [if_pos hm, if_pos hm, chainStageS_eq]
  · have hle := checkpoints_le busySumStride quantum
    rw [if_neg hm, if_neg hm, some_bind (checkpointsS_eq (by decide)),
      some_bind (chunkedSumS_eq _ (by decide) (by omega))]
    rfl

theorem overlapProbe_eq (a : OpArgs) :
    (overlapProbe a : Prog σ Fault OpOutcome) = (RayX.overlapProbe a).mapErr Fault.exc := by
  refine int64Arg_bind (fun seed => int64Arg_bind (fun quantum => int64Arg_bind (fun mode => ?_)))
  refine guardFault_bind (fun _ => ?_)
  exact defined_bind (overlapArm_eq mode quantum seed) (defined_bind (overlapArm_eq mode quantum _) rfl)

end Checked

end

end RayX
