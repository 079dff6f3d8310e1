import RayX.Ops.Fanin
import RayX.Ops.Trace

/-!
# The join of `overlap_probe`

* `ArmPc.Ok`             where an arm can be, and what it has summed there;
* `Overlap.result_eq`    **every interleaving of the arms computes what `overlapProbe` computes**;
* `ArmPc.left`           a bound on the steps that are left to an arm on its own;
* `Overlap.completes`    **from every state that is reached, a call can come to its end.**
-/

namespace RayX
open Sys

/-! ## where an arm can be -/

section
variable (mode quantum x : Int64)

/-- the sum before chunk `k`, in the loop of mode `1` -/
def SumSoFar (k : Nat) (acc : UInt64) : Prop :=
  mode ≠ 0 ∧ chunkedSum quantum (nChunks quantum - k) k acc = chunkedSum quantum (nChunks quantum) 0 0

def Site.Ok : Site → Prop
  | .enter => True
  | .chunk k acc => 0 < k ∧ k < nChunks quantum ∧ SumSoFar mode quantum k acc
  | .leave v => v = overlapArm mode quantum x

def ArmPc.Ok : ArmPc → Prop
  | .stamps c _ | .pushes c _ _ | .notes c _ => c.Ok mode quantum x
  | .loops k acc => k ≤ nChunks quantum ∧ SumSoFar mode quantum k acc
  | .adds k acc => k < nChunks quantum ∧ SumSoFar mode quantum k acc
  | .lands v | .samples v | .completes v | .returned v => v = overlapArm mode quantum x
  | _ => True

end

section
variable {mode quantum x : Int64} {j : Nat} {wid : Int} {weak : Bool} {g g' : OverlapVars}
  {pc pc' : ArmPc}

theorem SumSoFar.next {k : Nat} {acc : UInt64} (hk : k < nChunks quantum)
    (h : SumSoFar mode quantum k acc) :
    SumSoFar mode quantum (k + 1) (maskedChunk quantum k acc) := by
  refine ⟨h.1, ?_⟩
  have hleft : nChunks quantum - k = nChunks quantum - (k + 1) + 1 := by omega
  have hsum := h.2
  rw [hleft, chunkedSum] at hsum
  rw [← hsum, Nat.cast_add_one]

/-- the loop is over: its sum is that of the arm -/
theorem SumSoFar.done {k : Nat} {acc : UInt64} (hk : ¬ k < nChunks quantum)
    (h : SumSoFar mode quantum k acc) :
    ((x.toUInt64 + acc) &&& busySumMask).toInt64 = overlapArm mode quantum x := by
  have hsum := h.2
  have hleft : nChunks quantum - k = 0 := by omega
  rw [hleft, chunkedSum] at hsum
  rw [overlapArm, if_neg h.1, hsum]
  rfl

theorem ArmMove.ok (h : ArmMove mode quantum j x wid g pc g' pc') (hok : pc.Ok mode quantum x) :
    pc'.Ok mode quantum x := by
  cases h with
  | notes c s =>
    cases c with
    | enter => trivial
    | chunk k acc => exact hok.2
    | leave v => exact hok
  | flat hmode => exact (if_pos hmode).symm
  | chunked hmode => exact ⟨Nat.zero_le _, hmode, rfl⟩
  | first acc hk => exact ⟨hk, hok.2⟩
  | yields k acc hk hpos => exact ⟨hpos, hk, hok.2⟩
  | sums k acc hk => exact hok.2.done hk
  | adds k acc => exact ⟨hok.1, hok.2.next hok.1⟩
  | stamps => exact hok
  | pushes => exact hok
  | lands => exact hok
  | samples => exact hok
  | completes => exact hok
  | _ => trivial

end

namespace Overlap

section
variable {seed quantum mode : Int64} {s s' : Overlap}

/-- every arm is where it can be, and the body folds what they returned -/
structure Joins (seed quantum mode : Int64) (s : Overlap) : Prop where
  arm : ∀ j, (s.arm j).Ok mode quantum (input seed j)
  result : s.main = .records ∨ s.main = .finished →
    s.result = fanin seed 2 (overlapArm mode quantum)

theorem future_eq (h : Joins seed quantum mode s) (hjoin : s.joined = true) {j : Nat}
    (hj : j < overlapArms) : (s.future j).getD 0 = overlapArm mode quantum (input seed j) := by
  obtain ⟨v, hv⟩ := returned_of_joined hjoin hj
  have hok := h.arm j
  rw [hv] at hok
  rw [future, hv]
  exact hok

theorem joins_init (seed quantum mode : Int64) : Joins seed quantum mode (init mode) where
  arm _ := trivial
  result h := by rcases h with h | h <;> cases h

theorem joins_step (h : Joins seed quantum mode s) {a : Act}
    (hs : step seed quantum mode s a = some s') : Joins seed quantum mode s' := by
  cases a with
  | arm j wid weak =>
    obtain ⟨hj, g, pc, hstep, rfl⟩ := step_arm hs
    refine ⟨?_, h.result⟩
    exact update_all (P := fun j => ArmPc.Ok mode quantum (input seed j)) h.arm
      ((armStep_move hstep).ok (h.arm j))
  | main osWorkers =>
    cases mainStep_move hs with
    | launches j hpc hj =>
      refine ⟨h.arm, ?_⟩
      intro hm
      rcases hm with hm | hm <;> cases hm
    | launched j hpc hj =>
      refine ⟨h.arm, ?_⟩
      intro hm
      rcases hm with hm | hm <;> cases hm
    | joins v hpc hjoin hv =>
      refine ⟨h.arm, ?_⟩
      intro _
      show v = fanin seed 2 (overlapArm mode quantum)
      rw [hv, future_eq h hjoin Nat.zero_lt_two, future_eq h hjoin Nat.one_lt_two]
      exact fanin_two (overlapArm mode quantum)
    | records hpc => exact ⟨h.arm, fun _ => h.result (Or.inl hpc)⟩

theorem joins_run {as : List Act}
    (hr : run (step seed quantum mode) (init mode) as = some s) : Joins seed quantum mode s :=
  run_inv (fun _ _ _ h hs => joins_step h hs) hr (joins_init seed quantum mode)

/-- **The step model computes the operation.** -/
theorem result_eq (hm : mode = 0 ∨ mode = 1) (hq : 0 ≤ quantum.toInt ∧ quantum.toInt ≤ 100000)
    {as : List Act} (hr : run (step seed quantum mode) (init mode) as = some s)
    (hfin : s.main = .finished) : invoke overlapProbe [seed, quantum, mode] = some s.result := by
  rw [invoke_overlapProbe hm hq, (joins_run hr).result (Or.inr hfin)]

end

end Overlap

/-! ## completion -/

/-- a bound on the steps after a call of `push_event` -/
def Site.left (n : Nat) : Site → Nat
  | .leave _ => 2
  | .chunk k _ => 5 * (n - (k + 1)) + 9
  | .enter => 5 * n + 12

/-- a bound on the steps of an arm whose exchanges fail for a reason only -/
def ArmPc.left (n : Nat) (peak : Int) : ArmPc → Nat
  | .queued => 5 * n + 15
  | .stamps c _ => c.left n + 2
  | .pushes c _ _ => c.left n + 1
  | .notes c _ => c.left n
  | .flies => 5 * n + 11
  | .bumps _ => 5 * n + 10
  | .swaps _ cur => if peak = cur then 5 * n + 9 else 5 * n + 10
  | .computes => 5 * n + 8
  | .loops k _ => 5 * (n - k) + 7
  | .adds k _ => 5 * (n - (k + 1)) + 8
  | .lands _ => 6
  | .samples _ => 5
  | .completes _ => 1
  | .returned _ => 0

/-- an arm waits for nobody, and comes closer to its end -/
theorem armStep_left {mode quantum x : Int64} {j : Nat} {wid : Int} {g : OverlapVars} {pc : ArmPc}
    (hrun : ∀ v, pc ≠ .returned v) : ∃ g' pc',
      armStep mode quantum j x wid false g pc = some (g', pc') ∧
      pc'.left (nChunks quantum) g'.maxInFlight < pc.left (nChunks quantum) g.maxInFlight := by
  cases pc with
  | returned v => exact absurd rfl (hrun v)
  | notes c s =>
    cases c with
    | enter => exact ⟨_, _, rfl, Nat.lt_succ_self _⟩
    | chunk k acc => exact ⟨_, _, rfl, Nat.lt_succ_self _⟩
    | leave v => exact ⟨_, _, rfl, Nat.lt_succ_self _⟩
  | bumps v =>
    refine ⟨_, _, rfl, ?_⟩
    show (if g.maxInFlight = g.maxInFlight then _ else _) < 5 * nChunks quantum + 10
    rw [if_pos rfl]
    exact Nat.lt_succ_self _
  | swaps v cur =>
    -- an exchange that fails has loaded what the maximum is now
    by_cases hv : cur < v
    · by_cases hcur : g.maxInFlight = cur
      · refine ⟨_, _, by rw [armStep, if_pos hv, if_pos ⟨hcur, rfl⟩], ?_⟩
        rw [ArmPc.left, ArmPc.left, if_pos hcur]
        exact Nat.lt_succ_self _
      · refine ⟨_, _, by rw [armStep, if_pos hv, if_neg (fun h => hcur h.1)], ?_⟩
        rw [ArmPc.left, ArmPc.left, if_pos rfl, if_neg hcur]
        exact Nat.lt_succ_self _
    · refine ⟨_, _, by rw [armStep, if_neg hv], ?_⟩
      rw [ArmPc.left, ArmPc.left]
      split <;> omega
  | computes =>
    refine ⟨_, _, rfl, ?_⟩
    split
    · rw [ArmPc.left, ArmPc.left]
      omega
    · exact Nat.lt_succ_self _
  | loops k acc =>
    by_cases hk : k < nChunks quantum
    · by_cases hpos : 0 < k
      · refine ⟨_, _, by rw [armStep, if_pos hk, if_pos hpos], ?_⟩
        rw [ArmPc.left, ArmPc.left, Site.left]
        omega
      · refine ⟨_, _, by rw [armStep, if_pos hk, if_neg hpos], ?_⟩
        rw [ArmPc.left, ArmPc.left]
        omega
    · refine ⟨_, _, by rw [armStep, if_neg hk], ?_⟩
      rw [ArmPc.left, ArmPc.left]
      omega
  | _ => exact ⟨_, _, rfl, Nat.lt_succ_self _⟩

namespace Overlap

section
variable {seed quantum mode : Int64}

/-- an arm on its own returns -/
theorem arm_returns (j : Nat) (n : Nat) : ∀ s : Overlap, j < s.main.launched →
    (s.arm j).left (nChunks quantum) s.vars.maxInFlight ≤ n →
    ∃ s', Reach (step seed quantum mode) s s' ∧ (∃ v, s'.arm j = .returned v) ∧ s'.main = s.main ∧
      ∀ i, i ≠ j → s'.arm i = s.arm i := by
  induction n with
  | zero =>
    intro s hj hn
    by_cases hret : ∃ v, s.arm j = .returned v
    · exact ⟨s, .refl s, hret, rfl, fun _ _ => rfl⟩
    · obtain ⟨g, pc, -, hlt⟩ := @armStep_left mode quantum (input seed j) j 0 s.vars (s.arm j)
        (fun v hv => hret ⟨v, hv⟩)
      omega
  | succ n ih =>
    intro s hj hn
    by_cases hret : ∃ v, s.arm j = .returned v
    · exact ⟨s, .refl s, hret, rfl, fun _ _ => rfl⟩
    · obtain ⟨g, pc, hstep, hlt⟩ := @armStep_left mode quantum (input seed j) j 0 s.vars (s.arm j)
        (fun v hv => hret ⟨v, hv⟩)
      have hs : step seed quantum mode s (.arm j 0 false)
          = some { s with vars := g, arm := Function.update s.arm j pc } := by
        rw [step, if_pos hj, hstep]
        rfl
      have hless : (Function.update s.arm j pc j).left (nChunks quantum) g.maxInFlight ≤ n := by
        rw [Function.update_self]
        omega
      obtain ⟨s', hreach, hv, hmain, hother⟩ :=
        ih { s with vars := g, arm := Function.update s.arm j pc } hj hless
      refine ⟨s', (Reach.one _ hs).trans hreach, hv, hmain, ?_⟩
      intro i hi
      rw [hother i hi]
      exact Function.update_of_ne hi _ _

theorem records_completes {s : Overlap} (h : s.main = .records) :
    ∃ s', Reach (step seed quantum mode) s s' ∧ s'.main = .finished := by
  have hs : mainStep 1 s = some { s with
      witness := some (OverlapWitness.finalized s.vars 1), main := .finished } := by
    rw [mainStep, h]
  exact ⟨_, Reach.one (.main 1) hs, rfl⟩

/-- first one arm, then the other, then the body -/
theorem waits_completes {s : Overlap} (h : s.main = .waits) :
    ∃ s', Reach (step seed quantum mode) s s' ∧ s'.main = .finished := by
  have hlaunched : ∀ t : Overlap, t.main = s.main → ∀ j < overlapArms, j < t.main.launched := by
    intro t ht j hj
    rw [ht, h]
    exact hj
  obtain ⟨s₁, hr₁, ⟨v₀, hv₀⟩, hm₁, -⟩ := @arm_returns seed quantum mode 0 _ s
    (hlaunched s rfl 0 Nat.zero_lt_two) (Nat.le_refl _)
  obtain ⟨s₂, hr₂, ⟨v₁, hv₁⟩, hm₂, hother⟩ := @arm_returns seed quantum mode 1 _ s₁
    (hlaunched s₁ hm₁ 1 Nat.one_lt_two) (Nat.le_refl _)
  have hzero : s₂.arm 0 = .returned v₀ := by
    rw [hother 0 Nat.zero_ne_one]
    exact hv₀
  have hmain : s₂.main = .waits := by
    rw [hm₂, hm₁]
    exact h
  have hjoin : s₂.joined = true := by
    show ((s₂.future 0).isSome && ((s₂.future 1).isSome && true)) = true
    rw [future, future, hzero, hv₁]
    rfl
  obtain ⟨s₃, hs₃, hm₃⟩ : ∃ s₃, mainStep 1 s₂ = some s₃ ∧ s₃.main = .records := by
    rw [mainStep, hmain]
    exact ⟨_, if_pos hjoin, rfl⟩
  obtain ⟨s', hr', hfin⟩ := @records_completes seed quantum mode s₃ hm₃
  exact ⟨s', hr₁.trans (hr₂.trans ((Reach.one (.main 1) hs₃).trans hr')), hfin⟩

theorem launch_completes (n : Nat) : ∀ (s : Overlap) (j : Nat), s.main = .launch j →
    overlapArms - j ≤ n → ∃ s', Reach (step seed quantum mode) s s' ∧ s'.main = .finished := by
  -- the induction is on the arms that are not launched
  have hlast : ∀ (s : Overlap) (j : Nat), s.main = .launch j → ¬ j < overlapArms →
      ∃ s', Reach (step seed quantum mode) s s' ∧ s'.main = .finished := by
    intro s j h hj
    have hs : mainStep 1 s = some { s with main := .waits } := by
      rw [mainStep, h]
      exact congrArg (fun m => some { s with main := m }) (if_neg hj)
    obtain ⟨s', hr', hfin⟩ := @waits_completes seed quantum mode { s with main := .waits } rfl
    exact ⟨s', (Reach.one (.main 1) hs).trans hr', hfin⟩
  induction n with
  | zero =>
    intro s j h hn
    exact hlast s j h (by omega)
  | succ n ih =>
    intro s j h hn
    by_cases hj : j < overlapArms
    · have hs : mainStep 1 s = some { s with main := .launch (j + 1) } := by
        rw [mainStep, h]
        exact congrArg (fun m => some { s with main := m }) (if_pos hj)
      obtain ⟨s', hr', hfin⟩ := ih { s with main := .launch (j + 1) } (j + 1) rfl (by omega)
      exact ⟨s', (Reach.one (.main 1) hs).trans hr', hfin⟩
    · exact hlast s j h hj

/-- **No interleaving is stuck**: whatever the arms have done so far, the call can come to its end. -/
theorem completes (s : Overlap) :
    ∃ s', Reach (step seed quantum mode) s s' ∧ s'.main = .finished := by
  cases h : s.main with
  | launch j => exact launch_completes _ s j h (Nat.le_refl _)
  | waits => exact waits_completes h
  | records => exact records_completes h
  | finished => exact ⟨s, .refl s, h⟩

/-- there is a run to the end for all arguments -/
theorem exists_complete (seed quantum mode : Int64) : ∃ as s w,
    run (step seed quantum mode) (init mode) as = some s ∧ s.witness = some w := by
  obtain ⟨s, ⟨as, has⟩, hfin⟩ := @completes seed quantum mode (init mode)
  obtain ⟨w, hw⟩ := (inv_run has).finished hfin
  exact ⟨as, s, w, has, hw⟩

end

end Overlap

end RayX
