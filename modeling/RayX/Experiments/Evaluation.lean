import Mathlib.Algebra.Order.Field.Rat
import Mathlib.Tactic.FieldSimp
import Mathlib.Tactic.Linarith
import RayX.Experiments.Batch

/-!
# The evaluation of a throughput batch

The gates of `eval_throughput_batch_gates` over what the scheduler has measured and what the actors
report, and the class of `classify_throughput_batch`.

* `Metrics`, `Readings`      the two halves of `bm`;
* `evalThroughputBatchGates`, `classifyThroughputBatch`   the gates, and the class of a batch;
* `classify_pass_iff`        the class is `pass` exactly when every gate is;
* `full_iff`, `verified_iff`, `bounded_iff`, `achieved_iff`   what each gate over the measurements
                             shows;
* `batch_pass_iff`           **what a batch has done exactly when it passes.**
-/

namespace RayX
namespace Throughput
open Sys
variable {ρ : Type}

/-- the part of `bm` that the scheduler and the verifier fill in -/
structure Metrics where
  nCompleted : Nat
  timeouts : Nat
  flags : List String
  capacity : Nat
  highWater : Nat
  enqueueBlockNs : Nat
  verified : Nat
  invalid : Nat
  exception : Option String
  mean : Option ℚ
  peerFrozen : Bool := true

/-- the counters of the mechanisms, as differences over the batch -/
structure Deltas where
  coordOutgoingRayFetch : Int
  peerServingRayFetch : Int
  peerHpxActionsServed : Int
  coordServingRayFetch : Int
  coordHpxActionsServed : Int
  peerOutgoingRayFetch : Int
  deriving DecidableEq

/-- the part of `bm` that the actors report after the batch -/
structure Readings where
  deltas : Deltas
  coordinateActiveMax : Option Int
  coordCurrents : List (Option Int)
  peerCurrents : List (Option Int)
  coordUnderflow : Option Bool
  peerUnderflow : Option Bool

structure BatchGates where
  fullCompletions : Bool
  allVerified : Bool
  verifierBounded : Bool
  witnessDeltasOk : Bool
  coordinatorServiceOverlap : Bool
  noCounterLeak : Bool
  noCounterUnderflow : Bool
  achievedConcurrencyOk : Bool
  peerImmutable : Bool

inductive BatchClass where
  | pass
  | verifierBackpressureContaminatedBatch
  | verifierException
  | throughputBatchInvalidatedByInvalidResult
  | activeCallCounterUnderflow
  | activeCallCounterLeak
  | hpxActionUsedByRayArm
  | rayPeerUsedByHpxArm
  | invalidInstrumentation
  | coordinatorServiceSerialized
  | peerConcurrencyCapabilityNotAvailable
  | achievedConcurrencyBelowTarget
  | timeout
  | peerConfigMutatedDuringMeasurement
  deriving DecidableEq

/-- the deltas of a batch in which each request used the mechanism of its arm, once -/
def Deltas.of (cfg : BatchConfig) : Deltas :=
  match cfg.arm with
  | .ray => ⟨cfg.n, cfg.n, 0, 0, 0, 0⟩
  | .hpx => ⟨0, 0, cfg.n, 0, 0, 0⟩

/-- `sum(xs) / len(xs)`, the exact quotient -/
def meanOf (xs : List Nat) : Option ℚ := if xs = [] then none else some ((xs.sum : ℚ) / xs.length)

def Batch.metrics (s : Batch ρ) : Metrics where
  nCompleted := s.completed
  timeouts := s.timeouts
  flags := s.flags
  capacity := s.verifier.capacity
  highWater := s.verifier.highWater
  enqueueBlockNs := s.verifier.enqueueBlockNs
  verified := s.verifier.verified
  invalid := s.verifier.invalid
  exception := s.verifier.exception
  mean := meanOf s.outstandingSamples

def evalThroughputBatchGates (cfg : BatchConfig) (m : Metrics) (rd : Readings) : BatchGates where
  fullCompletions := decide (m.nCompleted = cfg.n ∧ m.timeouts = 0 ∧ "timeout" ∉ m.flags)
  allVerified := decide (m.verified = cfg.n ∧ m.invalid = 0 ∧ m.exception = none)
  verifierBounded := decide (m.highWater < m.capacity ∧ m.enqueueBlockNs = 0)
  witnessDeltasOk := decide (rd.deltas = Deltas.of cfg)
  coordinatorServiceOverlap :=
    if 1 < cfg.c then decide (2 ≤ rd.coordinateActiveMax.getD 0) else true
  noCounterLeak := (rd.coordCurrents ++ rd.peerCurrents).all fun x => x == some 0
  noCounterUnderflow := !(rd.coordUnderflow.getD false || rd.peerUnderflow.getD false)
  achievedConcurrencyOk := decide ((cfg.c : ℚ) - 1 / 2 ≤ m.mean.getD 0)
  peerImmutable := m.peerFrozen

def BatchGates.all (g : BatchGates) : Bool :=
  g.fullCompletions && g.allVerified && g.verifierBounded && g.witnessDeltasOk &&
    g.coordinatorServiceOverlap && g.noCounterLeak && g.noCounterUnderflow &&
    g.achievedConcurrencyOk && g.peerImmutable

/-- `capability`: the gate `capability_proof_available`, which the batch does not have before the
linkage of the islands -/
def classifyThroughputBatch (arm : Arm) (m : Metrics) (rd : Readings) (g : BatchGates)
    (capability : Bool := true) : BatchClass :=
  if g.all && capability then .pass
  else if !g.verifierBounded then .verifierBackpressureContaminatedBatch
  else if m.exception.getD "" ≠ "" then .verifierException
  else if !g.allVerified then .throughputBatchInvalidatedByInvalidResult
  else if !g.noCounterUnderflow then .activeCallCounterUnderflow
  else if !g.noCounterLeak then .activeCallCounterLeak
  else if !g.witnessDeltasOk then
    if arm = .ray ∧ rd.deltas.peerHpxActionsServed ≠ 0 then .hpxActionUsedByRayArm
    else if arm = .hpx ∧ (rd.deltas.peerServingRayFetch ≠ 0 ∨ rd.deltas.coordOutgoingRayFetch ≠ 0) then
      .rayPeerUsedByHpxArm
    else .invalidInstrumentation
  else if !g.coordinatorServiceOverlap then .coordinatorServiceSerialized
  else if !capability then .peerConcurrencyCapabilityNotAvailable
  else if !g.achievedConcurrencyOk then .achievedConcurrencyBelowTarget
  else if !g.fullCompletions then .timeout
  else if !g.peerImmutable then .peerConfigMutatedDuringMeasurement
  else .invalidInstrumentation

/-! ## the class -/

theorem ite_not_pass {p : Prop} [Decidable p] {x y : BatchClass} (hx : x ≠ .pass) (hy : y ≠ .pass) :
    (if p then x else y) ≠ .pass := by
  split
  · exact hx
  · exact hy

theorem classify_pass_iff {arm : Arm} {m : Metrics} {rd : Readings} {g : BatchGates}
    {capability : Bool} :
    classifyThroughputBatch arm m rd g capability = .pass ↔ g.all = true ∧ capability = true := by
  unfold classifyThroughputBatch
  by_cases h : (g.all && capability) = true
  · rw [if_pos h]
    exact ⟨fun _ => Bool.and_eq_true_iff.mp h, fun _ => rfl⟩
  · rw [if_neg h]
    refine ⟨fun hc => absurd hc ?_, fun hb => absurd (Bool.and_eq_true_iff.mpr hb) h⟩
    -- no other branch gives the class
    have hmech := ite_not_pass (p := arm = .ray ∧ rd.deltas.peerHpxActionsServed ≠ 0)
      (x := .hpxActionUsedByRayArm) nofun (ite_not_pass
        (p := arm = .hpx ∧
          (rd.deltas.peerServingRayFetch ≠ 0 ∨ rd.deltas.coordOutgoingRayFetch ≠ 0))
        (x := .rayPeerUsedByHpxArm) (y := .invalidInstrumentation) nofun nofun)
    exact ite_not_pass nofun (ite_not_pass nofun (ite_not_pass nofun (ite_not_pass nofun
      (ite_not_pass nofun (ite_not_pass hmech (ite_not_pass nofun (ite_not_pass nofun
        (ite_not_pass nofun (ite_not_pass nofun (ite_not_pass nofun nofun))))))))))

/-! ## the gates of a batch that is over -/

variable {cfg : BatchConfig} {verify : Item ρ → Verdict} {s : Batch ρ} {rd : Readings}

/-- the evaluation of the batch -/
def Batch.gates (cfg : BatchConfig) (s : Batch ρ) (rd : Readings) : BatchGates :=
  evalThroughputBatchGates cfg s.metrics rd

/-- once `finish` of the verifier has returned the loop is over, and the verifier has every reply -/
theorem Batch.Sound.finished (h : s.Sound cfg verify) (hf : s.verifier.caller = .finished) :
    s.ended = true ∧ s.fetched = s.verifier.accepted := by
  have hcalls := h.calls
  have hheld := h.held
  unfold Batch.Calls at hcalls
  unfold Batch.holds at hheld
  unfold Batch.ended
  cases hpc : s.pc with
  | finishing =>
    rw [hpc, hf] at hheld
    exact ⟨rfl, hheld.trans (List.append_nil _)⟩
  | enqueuing =>
    rw [hpc, hf] at hcalls
    cases hcalls.2
  | _ =>
    rw [hpc, hf] at hcalls
    cases hcalls

theorem full_iff (h : s.Sound cfg verify) :
    (s.gates cfg rd).fullCompletions = true ↔ s.completed = cfg.n := by
  show decide (s.completed = cfg.n ∧ s.timeouts = 0 ∧ "timeout" ∉ s.flags) = true ↔ _
  rw [decide_eq_true_iff]
  refine ⟨fun hc => hc.1, fun hc => ?_⟩
  rcases h.gone with ⟨ht, hf, _⟩ | ⟨_, hlt, _⟩
  · exact ⟨hc, ht, by rw [hf]; exact List.not_mem_nil⟩
  · omega

theorem verified_iff (h : s.Sound cfg verify) (hf : s.verifier.caller = .finished) :
    (s.gates cfg rd).allVerified = true ↔ s.completed = cfg.n ∧ s.verifier.judged = s.fetched ∧
      ∀ item ∈ s.fetched, verify item = .right := by
  obtain ⟨_, hfetched⟩ := h.finished hf
  have hle : s.verifier.accepted.length ≤ cfg.n := by
    rw [← hfetched, h.counted]
    rcases h.gone with ⟨_, _, _, hle, _⟩ | ⟨_, hlt, _⟩
    · exact hle
    · exact Nat.le_of_lt hlt
  show decide (s.verifier.verified = cfg.n ∧ s.verifier.invalid = 0 ∧ s.verifier.exception = none) =
    true ↔ _
  rw [decide_eq_true_iff, h.verifier.all_right_iff hle, ← hfetched, h.counted]
  refine and_congr_right fun _ => and_congr_right fun hj => ?_
  rw [hj]

theorem bounded_iff (h : s.Sound cfg verify) :
    (s.gates cfg rd).verifierBounded = true ↔ ∀ d ∈ s.verifier.depths, d < cfg.capacity := by
  have hcap := h.capacity
  have hlt := h.verifier.high_lt_iff (by rw [hcap]; exact cfg.bounded)
  rw [hcap] at hlt
  show decide (s.verifier.highWater < s.verifier.capacity ∧ s.verifier.enqueueBlockNs = 0) = true ↔ _
  rw [decide_eq_true_iff, hcap, ← hlt]
  exact ⟨fun hb => hb.1, fun hb => ⟨hb, (h.verifier.unblocked (by rw [hcap]; exact hb)).2⟩⟩

/-- **The concurrency of a full batch is achieved exactly when the batch is long enough.** -/
theorem achieved_iff (h : s.Sound cfg verify) (hn : s.completed = cfg.n) :
    (s.gates cfg rd).achievedConcurrencyOk = true ↔ cfg.c * (cfg.c - 1) ≤ cfg.n := by
  have hlost : s.lost = [] := by
    rcases h.gone with ⟨_, _, hl, _⟩ | ⟨_, hlt, _⟩
    · exact hl
    · omega
  have hsamples : s.outstandingSamples = outstandings cfg.c cfg.n := by
    rw [h.sampled, hlost, hn]
    exact List.append_nil _
  have hlen : (outstandings cfg.c cfg.n).length = cfg.n := by
    rw [outstandings, List.length_map, List.length_range]
  have hmean : s.metrics.mean = some (((outstandings cfg.c cfg.n).sum : ℚ) / cfg.n) := by
    show meanOf s.outstandingSamples = _
    rw [hsamples, meanOf, if_neg, hlen]
    intro hnil
    rw [hnil] at hlen
    have hone := cfg.one_le_n
    rw [← hlen] at hone
    cases hone
  show decide ((cfg.c : ℚ) - 1 / 2 ≤ s.metrics.mean.getD 0) = true ↔ _
  rw [decide_eq_true_iff, hmean, Option.getD_some, ← mean_outstanding_iff cfg.one_le_c cfg.one_le_n]
  have hpos : (0 : ℚ) < cfg.n := by exact_mod_cast cfg.one_le_n
  rw [le_div_iff₀ hpos]
  have hodd : ((2 * cfg.c - 1 : Nat) : ℚ) = 2 * cfg.c - 1 := by
    have hone := cfg.one_le_c
    rw [Nat.cast_sub (by omega)]
    push_cast
    rfl
  have hcast : ((2 * cfg.c - 1) * cfg.n ≤ 2 * (outstandings cfg.c cfg.n).sum) ↔
      ((2 * (cfg.c : ℚ) - 1) * cfg.n ≤ 2 * ((outstandings cfg.c cfg.n).sum : ℚ)) := by
    rw [← hodd]
    exact_mod_cast Iff.rfl
  rw [hcast]
  constructor
  · intro hle
    linarith
  · intro hle
    linarith

/-- every request used the mechanism of its arm, once; the coordinator served two at a time, where
there are two; and no counter of the actors is off -/
structure Readings.Clean (cfg : BatchConfig) (rd : Readings) : Prop where
  deltas : rd.deltas = Deltas.of cfg
  overlap : 1 < cfg.c → 2 ≤ rd.coordinateActiveMax.getD 0
  currents : ∀ x ∈ rd.coordCurrents ++ rd.peerCurrents, x = some 0
  underflow : rd.coordUnderflow ≠ some true ∧ rd.peerUnderflow ≠ some true

theorem getD_false_iff {x : Option Bool} : x.getD false = false ↔ x ≠ some true := by
  cases x with
  | none => simp
  | some b => simp

theorem clean_iff : rd.Clean cfg ↔ (s.gates cfg rd).witnessDeltasOk = true ∧
    (s.gates cfg rd).coordinatorServiceOverlap = true ∧ (s.gates cfg rd).noCounterLeak = true ∧
    (s.gates cfg rd).noCounterUnderflow = true := by
  show _ ↔ decide (rd.deltas = Deltas.of cfg) = true ∧
    (if 1 < cfg.c then decide (2 ≤ rd.coordinateActiveMax.getD 0) else true) = true ∧
    ((rd.coordCurrents ++ rd.peerCurrents).all fun x => x == some 0) = true ∧
    (!(rd.coordUnderflow.getD false || rd.peerUnderflow.getD false)) = true
  have hover : (if 1 < cfg.c then decide (2 ≤ rd.coordinateActiveMax.getD 0) else true) = true ↔
      (1 < cfg.c → 2 ≤ rd.coordinateActiveMax.getD 0) := by
    by_cases hc : 1 < cfg.c
    · rw [if_pos hc, decide_eq_true_iff]
      exact ⟨fun h _ => h, fun h => h hc⟩
    · rw [if_neg hc]
      exact ⟨fun _ h => absurd h hc, fun _ => rfl⟩
  rw [decide_eq_true_iff, hover, List.all_eq_true, Bool.not_eq_true', Bool.or_eq_false_iff,
    getD_false_iff, getD_false_iff]
  simp only [beq_iff_eq]
  exact ⟨fun h => ⟨h.deltas, h.overlap, h.currents, h.underflow⟩,
    fun ⟨hd, ho, hc, hu⟩ => ⟨hd, ho, hc, hu⟩⟩

namespace Batch

/-- **What a batch has done exactly when it passes**: all `N` requests came back, the verifier judged
each reply and found it right, no `enqueue` saw the queue full, the batch was long enough for its
window, and the actors report a clean run.  No `enqueue` of such a batch has waited. -/
theorem batch_pass_iff {t : Nat} (h : Reach (step cfg verify) (start cfg t) s)
    (hf : s.verifier.caller = .finished) (rd : Readings) :
    (classifyThroughputBatch cfg.arm s.metrics rd (s.gates cfg rd) = .pass ↔
      s.completed = cfg.n ∧ s.verifier.judged = s.fetched ∧
        (∀ item ∈ s.fetched, verify item = .right) ∧
        (∀ d ∈ s.verifier.depths, d < cfg.capacity) ∧ cfg.c * (cfg.c - 1) ≤ cfg.n ∧ rd.Clean cfg) ∧
      ((s.gates cfg rd).verifierBounded = true → s.verifier.waited = 0) := by
  have hs := sound_reach h
  refine ⟨?_, ?_⟩
  · rw [classify_pass_iff]
    simp only [BatchGates.all, Bool.and_eq_true]
    rw [full_iff hs, verified_iff hs hf, bounded_iff hs, clean_iff (s := s)]
    constructor
    · rintro ⟨⟨⟨⟨⟨⟨⟨⟨⟨hn, _, hj, hr⟩, hb⟩, hw⟩, ho⟩, hl⟩, hu⟩, ha⟩, _⟩, _⟩
      exact ⟨hn, hj, hr, hb, (achieved_iff hs hn).mp ha, hw, ho, hl, hu⟩
    · rintro ⟨hn, hj, hr, hb, ha, hw, ho, hl, hu⟩
      exact ⟨⟨⟨⟨⟨⟨⟨⟨⟨hn, hn, hj, hr⟩, hb⟩, hw⟩, ho⟩, hl⟩, hu⟩, (achieved_iff hs hn).mpr ha⟩, rfl⟩, trivial⟩
  · intro hb
    rw [bounded_iff hs] at hb
    have hcap := hs.capacity
    refine (hs.verifier.unblocked ?_).1
    rw [hs.verifier.high_lt_iff (by rw [hcap]; exact cfg.bounded), hcap]
    exact hb

/-- what the actors report after the batch of two -/
def pairReadings : Readings where
  deltas := Deltas.of pairBatch
  coordinateActiveMax := some 2
  coordCurrents := [some 0]
  peerCurrents := [some 0]
  coordUnderflow := none
  peerUnderflow := some false

theorem batch_pass_pair : ∃ s : Batch Unit,
    Reach (step pairBatch fun _ => .right) (start pairBatch 0) s ∧
    classifyThroughputBatch .hpx s.metrics pairReadings (s.gates pairBatch pairReadings) = .pass := by
  obtain ⟨s, hrun, hf, hc, _, hj, hd⟩ := pairMoves_end
  have h : Reach (step pairBatch fun _ => .right) (start pairBatch 0) s := ⟨pairMoves, hrun⟩
  refine ⟨s, h, (batch_pass_iff h hf pairReadings).1.mpr ?_⟩
  refine ⟨hc, hj, fun _ _ => rfl, ?_, by decide, ?_⟩
  · rw [hd]
    decide
  · exact ⟨rfl, fun _ => by decide, by decide, by decide, by decide⟩

end Batch
end Throughput
end RayX
