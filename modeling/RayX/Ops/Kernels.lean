import RayX.Ops.Value

/-!
# Kernels of the registered operations

The pure and the checkpointed work shared by the operation bodies.

* `checkpoints`            the ceiling that arms running cancellation, at least `1`
                           (`busySumCheckpoints`, `parkMsCheckpoints`);
* `checkpointLoop`         one loop over the chunks that polls before every chunk but the first;
                           `runMaskedCheckpointLoop` and `parkLoop` are instances;
* `checkpointLoop_polls`   **a loop over `c` chunks polls `c - 1` times, the last one final**;
* `checkpointLoop_halts`   a loop that is told to stop does nothing more;
* `maskedRangeSum`, `chainStage`, `fanoutRanges`, `maskedFold`   the kernels of the composed
                           operations.
-/

namespace RayX
open Sys

/-! ## checkpoint counts -/

def busySumStride : Int64 := 8192
def busySumMask : UInt64 := 0x7FFFFFFF
def parkMsMax : Int64 := 60000
def parkMsStride : Int64 := 10
def fanoutPartsMax : Int64 := 1024
def chainStepsMax : Int64 := 10000
def chainQuantumMax : Int64 := 100000
def chainFanoutKMax : Int64 := 256
def faninLeavesMax : Int64 := 64

/-- `INT_MAX` -/
def intMax : Int64 := 2147483647

/-- `ceil(n / stride)` in the overflow-safe form, at least `1`, clamped to `INT_MAX` -/
def checkpoints (stride n : Int64) : Int :=
  if n ≤ stride then 1
  else
    let c := (n - 1) / stride + 1
    if intMax < c then intMax.toInt else c.toInt

def busySumCheckpoints (n : Int64) : Int := checkpoints busySumStride n
def parkMsCheckpoints (ms : Int64) : Int := checkpoints parkMsStride ms

/-- launch-all: no running-cancel boundary -/
def fanoutSumCheckpoints (_parts : Int64) : Int := 1

/-! ## the checkpoint loop -/

section
variable {σ ε α : Type}

/-- chunks `k .. nChk - 1`, `r` of them left; `none` is an honored running cancel -/
def checkpointLoop (nChk : Int) (chunk : Int → α → Prog σ ε α) :
    Nat → Int → α → Prog σ ε (Option α)
  | 0, _, a => pure (some a)
  | r + 1, k, a =>
    (if 0 < k then Prog.stop (k == nChk - 1) else pure false) >>= fun stopped =>
      if stopped then pure none
      else chunk k a >>= fun a' => checkpointLoop nChk chunk r (k + 1) a'

/-- the whole loop, from chunk `0` -/
def runCheckpoints (nChk : Int) (chunk : Int → α → Prog σ ε α) (a : α) : Prog σ ε (Option α) :=
  checkpointLoop nChk chunk nChk.toNat 0 a

variable {nChk : Int} {chunk : Int → α → Prog σ ε α}

theorem checkpointLoop_succ {r : Nat} {k : Int} (a : α) (hk : 0 < k) :
    checkpointLoop nChk chunk (r + 1) k a = Prog.poll (k == nChk - 1) (fun stopped =>
      if stopped then pure none
      else chunk k a >>= fun a' => checkpointLoop nChk chunk r (k + 1) a') := by
  rw [checkpointLoop, if_pos hk]
  rfl

/-- every chunk after the first polls once, the last one with the final flag; what one chunk hands
to the next one, `P k`, holds of the result -/
theorem checkpointLoop_polls {P : Int → α → Prop}
    (hc : ∀ k a, 0 ≤ k → k < nChk → P k a → (chunk k a).Quiet (fun r => ∃ a', r = .ok a' ∧ P (k + 1) a'))
    (r : Nat) {k : Int} (a : α) (hk : 0 < k) (hr : k + r = nChk) (hP : P k a) :
    (checkpointLoop nChk chunk r k a).Polls (fun x => ∃ a', x = .ok (some a') ∧ P nChk a')
      (fun x => x = .ok none) r := by
  induction r generalizing k a with
  | zero =>
    have hend : k = nChk := by omega
    exact ⟨rfl, a, rfl, hend ▸ hP⟩
  | succ r ih =>
    rw [checkpointLoop_succ a hk]
    refine ⟨r, rfl, ?_, ?_, rfl⟩
    · rw [Bool.eq_iff_iff, beq_iff_eq, beq_iff_eq]
      omega
    · refine Prog.Quiet.bind_polls (hc k a (by omega) (by omega) hP) ?_ ?_
      · rintro a' ⟨_, ⟨⟩, hP'⟩
        exact ih a' (by omega) (by omega) hP'
      · rintro e ⟨a', h, _⟩
        cases h

/-- **A loop over `nChk` chunks polls `nChk - 1` times**, and its chunks compose. -/
theorem runCheckpoints_inv {P : Int → α → Prop} (hn : 0 < nChk)
    (hc : ∀ k a, 0 ≤ k → k < nChk → P k a → (chunk k a).Quiet (fun r => ∃ a', r = .ok a' ∧ P (k + 1) a'))
    (a : α) (hP : P 0 a) :
    (runCheckpoints nChk chunk a).Polls (fun x => ∃ a', x = .ok (some a') ∧ P nChk a')
      (fun x => x = .ok none) (nChk - 1).toNat := by
  obtain ⟨r, h⟩ : ∃ r, nChk.toNat = r + 1 := ⟨nChk.toNat - 1, by omega⟩
  have h1 : (nChk - 1).toNat = r := by omega
  rw [runCheckpoints, h, h1]
  -- the first chunk does not poll
  show (chunk 0 a >>= fun a' => checkpointLoop nChk chunk r (0 + 1) a').Polls _ _ r
  refine Prog.Quiet.bind_polls (hc 0 a (by omega) hn hP) ?_ ?_
  · rintro a' ⟨_, ⟨⟩, hP'⟩
    exact checkpointLoop_polls hc r a' (by omega) (by omega) hP'
  · rintro e ⟨a', h', _⟩
    cases h'

theorem runCheckpoints_polls (hc : ∀ k a, (chunk k a).Quiet (fun r => ∃ a', r = .ok a')) (a : α) :
    (runCheckpoints nChk chunk a).Polls (fun x => ∃ a', x = .ok (some a'))
      (fun x => x = .ok none) (nChk - 1).toNat := by
  by_cases hn : 0 < nChk
  · refine (runCheckpoints_inv (P := fun _ _ => True) hn ?_ a trivial).mono ?_
    · intro k a _ _ _
      refine (hc k a).mono ?_
      rintro x ⟨a', h⟩
      exact ⟨a', h, trivial⟩
    · rintro x ⟨a', h, _⟩
      exact ⟨a', h⟩
  · have h0 : nChk.toNat = 0 := by omega
    have h1 : (nChk - 1).toNat = 0 := by omega
    rw [runCheckpoints, h0, h1]
    exact ⟨rfl, a, rfl⟩

/-- a loop whose chunks do not poll does nothing after a stop -/
theorem checkpointLoop_halts {D : Except ε α → Prop} (hc : ∀ k a, (chunk k a).Quiet D) (r : Nat)
    (k : Int) (a : α) : (checkpointLoop nChk chunk r k a).Halts none := by
  induction r generalizing k a with
  | zero => trivial
  | succ r ih =>
    have hrest := Prog.Quiet.bind_halts (hc k a) (fun a' => ih (k + 1) a')
    by_cases hk : 0 < k
    · rw [checkpointLoop_succ a hk]
      exact ⟨rfl, hrest⟩
    · rw [checkpointLoop, if_neg hk]
      exact hrest

/-- a loop whose chunks leave the state alone leaves it alone -/
theorem checkpointLoop_wp {s : σ}
    (hc : ∀ k a, (chunk k a).wp (fun r s' => s' = s ∧ ∃ a', r = .ok a') s)
    {Q : Except ε (Option α) → σ → Prop} (hQ : ∀ x, Q (.ok x) s) (r : Nat) (k : Int) (a : α) :
    (checkpointLoop nChk chunk r k a).wp Q s := by
  induction r generalizing k a with
  | zero => exact hQ (some a)
  | succ r ih =>
    have hrest : (chunk k a >>= fun a' => checkpointLoop nChk chunk r (k + 1) a').wp Q s := by
      refine Prog.wp_bind _ _ s (Prog.wp_mono ?_ (chunk k a) s (hc k a))
      rintro x s' ⟨rfl, a', rfl⟩
      exact ih (k + 1) a'
    by_cases hk : 0 < k
    · rw [checkpointLoop_succ a hk]
      intro b
      cases b with
      | true => exact hQ none
      | false => exact hrest
    · rw [checkpointLoop, if_neg hk]
      exact hrest

end

/-! ## masked sums -/

/-- `steps` rounds of `acc = (acc + i) & BUSY_SUM_MASK`, from `i` on -/
def maskedSteps (acc : UInt64) (i : Int64) : Nat → UInt64
  | 0 => acc
  | steps + 1 => maskedSteps ((acc + i.toUInt64) &&& busySumMask) (i + 1) steps

/-- the rounds `begin .. end - 1`; none when `end ≤ begin` -/
def maskedRange (acc : UInt64) (first last : Int64) : UInt64 :=
  maskedSteps acc first (last.toInt - first.toInt).toNat

def maskedRangeSum (first last : Int64) : UInt64 := maskedRange 0 first last

/-- chunk `k` of the masked sum over `0 .. n - 1` -/
def maskedChunk (n : Int64) (k : Int) (acc : UInt64) : UInt64 :=
  let first := Int64.ofInt k * busySumStride
  maskedRange acc first (min (first + busySumStride) n)

section
variable {σ ε : Type}

def runMaskedCheckpointLoop (n : Int64) : Prog σ ε (Option UInt64) :=
  runCheckpoints (busySumCheckpoints n) (fun k acc => pure (maskedChunk n k acc)) 0

/-- the chunks of a park: sleep for the next `PARK_MS_STRIDE` milliseconds at most -/
def parkChunk (remaining : Int64) : Prog σ ε Int64 :=
  let chunk := if remaining < parkMsStride then remaining else parkMsStride
  if 0 < chunk then Prog.sleepFor chunk.toInt >>= fun _ => pure (remaining - chunk)
  else pure (remaining - chunk)

def parkLoop (ms : Int64) : Prog σ ε (Option Int64) :=
  runCheckpoints (parkMsCheckpoints ms) (fun _ remaining => parkChunk remaining) ms

theorem runMaskedCheckpointLoop_polls (n : Int64) :
    (runMaskedCheckpointLoop n : Prog σ ε (Option UInt64)).Polls
      (fun x => ∃ acc, x = .ok (some acc)) (fun x => x = .ok none)
      (busySumCheckpoints n - 1).toNat :=
  runCheckpoints_polls (fun k acc => Prog.Quiet.pure ⟨maskedChunk n k acc, rfl⟩) 0

theorem parkLoop_polls (ms : Int64) :
    (parkLoop ms : Prog σ ε (Option Int64)).Polls (fun x => ∃ r, x = .ok (some r))
      (fun x => x = .ok none) (parkMsCheckpoints ms - 1).toNat := by
  refine runCheckpoints_polls (fun _ remaining => ?_) ms
  by_cases h : 0 < if remaining < parkMsStride then remaining else parkMsStride
  · rw [parkChunk, if_pos h]
    exact ⟨_, rfl⟩
  · rw [parkChunk, if_neg h]
    exact ⟨_, rfl⟩

theorem runMaskedCheckpointLoop_wp (n : Int64) {s : σ} {Q : Except ε (Option UInt64) → σ → Prop}
    (hQ : ∀ x, Q (.ok x) s) : (runMaskedCheckpointLoop n).wp Q s :=
  checkpointLoop_wp (fun k acc => Prog.wp_pure ⟨rfl, maskedChunk n k acc, rfl⟩) hQ _ _ _

end

example : (runMaskedCheckpointLoop 5 : Prog Unit Exc (Option UInt64)).eval 0 () = (.ok (some 10), ()) :=
  rfl

/-! ## chains and folds -/

def chainStage (x q : Int64) : Int64 := ((x.toUInt64 + maskedRangeSum 0 q) &&& busySumMask).toInt64

/-- `steps` dependent stages -/
def chainStages (q : Int64) : Nat → Int64 → Int64
  | 0, x => x
  | k + 1, x => chainStages q k (chainStage x q)

/-- the fold of the partial results under the mask -/
def maskedFold (parts : List UInt64) : UInt64 :=
  parts.foldl (fun acc v => (acc + v) &&& busySumMask) 0

/-- the ranges launched by `fanout_sum`: `parts` pieces of `base` or `base + 1` steps -/
def fanoutRanges (base rem : Int64) : Nat → Int64 → Int64 → List (Int64 × Int64)
  | 0, _, _ => []
  | r + 1, k, first =>
    let last := first + (base + if k < rem then 1 else 0)
    (first, last) :: fanoutRanges base rem r (k + 1) last

/-- `seed + j` in `uint64`, read back as signed -/
def seedAt (seed : Int64) (j : Nat) : Int64 := (seed.toUInt64 + UInt64.ofNat j).toInt64

/-- the arm of `overlap_probe` in mode `1`: the masked sum chunk by chunk, no poll -/
def chunkedSum (quantum : Int64) : Nat → Int → UInt64 → UInt64
  | 0, _, acc => acc
  | r + 1, k, acc => chunkedSum quantum r (k + 1) (maskedChunk quantum k acc)

end RayX
