import RayX.Lib.Peak
import RayX.Ops.Barrier
import RayX.Ops.Trace

/-!
# The peak counters of `barrier_fanin` and `overlap_probe`

The leaves of `barrier_fanin` count themselves in `in_suspend` and keep its maximum, the arms of
`overlap_probe` in `in_flight`.

* `Gate.gauges`      the leaves move like the threads of a gauge;
* `Overlap.gauges`   so do the arms.
-/

namespace RayX
open Sys

/-! ## leaves -/

/-- where a leaf is in `bump_max` -/
def LeafPc.climb : LeafPc → Option (Climb Nat)
  | .bumps v => some (.loads v)
  | .swaps v cur => some (.swaps v cur)
  | _ => none

theorem LeafMove.climb {n : Nat} {weak : Bool} {g g' : GateVars} {pc pc' : LeafPc}
    (h : LeafMove n weak g pc g' pc') :
    Climb.Moves g.inSuspend g.maxInSuspend pc.climb g'.inSuspend g'.maxInSuspend pc'.climb := by
  cases h with
  | opens o g' o' h =>
    rw [(openStep_frame h).inSuspend, (openStep_frame h).maxInSuspend]
    exact .rests
  | opened o g' h =>
    rw [(openStep_frame h).inSuspend, (openStep_frame h).maxInSuspend]
    exact .rests
  | suspends => exact .enters _
  | bumps v => exact .loads v
  | raises v cur hv hcur => exact .raises v cur hv hcur
  | fails v cur hv => exact .fails v cur hv
  | stops v cur hv => exact .stops v cur hv
  | resumes => exact .leaves _ (Nat.sub_le _ _)
  | _ => exact .rests

namespace Gate

section
variable {seed quantum : Int64} {n : Nat} {s s' : Gate}

def gauge (s : Gate) : Gauge Nat Nat :=
  { live := s.vars.inSuspend, peak := s.vars.maxInSuspend, loop := fun j => (s.leaf j).climb }

def Act.who : Act → Option Nat
  | .leaf j _ => some j
  | .main _ => none

/-- what a step of the body leaves alone -/
structure MainFrame (n : Nat) (s s' : Gate) : Prop where
  leaf : s'.leaf = s.leaf
  inSuspend : s'.vars.inSuspend = s.vars.inSuspend
  maxInSuspend : s'.vars.maxInSuspend = s.vars.maxInSuspend
  launched : s.main.launched n ≤ n → s.main.launched n ≤ s'.main.launched n ∧ s'.main.launched n ≤ n

theorem MainMove.frame {late : Bool} (hs : MainMove n late s s') : MainFrame n s s' := by
  cases hs with
  | launches j hm hj =>
    refine ⟨rfl, rfl, rfl, ?_⟩
    rw [hm]
    exact fun _ => ⟨Nat.le_succ j, hj⟩
  | launched j hm hj =>
    refine ⟨rfl, rfl, rfl, ?_⟩
    rw [hm]
    exact fun hle => ⟨hle, Nat.le_refl n⟩
  | opens o g o' hm h =>
    refine ⟨rfl, (openStep_frame h).inSuspend, (openStep_frame h).maxInSuspend, ?_⟩
    rw [hm]
    exact fun hle => ⟨hle, hle⟩
  | opened o g hm h =>
    refine ⟨rfl, (openStep_frame h).inSuspend, (openStep_frame h).maxInSuspend, ?_⟩
    rw [hm]
    exact fun hle => ⟨hle, hle⟩
  | notes saw hm =>
    refine ⟨rfl, rfl, rfl, ?_⟩
    rw [hm]
    cases saw <;> exact fun hle => ⟨hle, hle⟩
  | polls hm | polled hm | expires hm | clock hm | sleeps hm | waits hm | reduces hm | violates hm
  | folds hm | records hm =>
    refine ⟨rfl, rfl, rfl, ?_⟩
    rw [hm]
    exact fun hle => ⟨hle, hle⟩

/-- a leaf that is not launched is queued -/
structure Launched (n : Nat) (s : Gate) : Prop where
  le : s.main.launched n ≤ n
  fresh : ∀ j, s.main.launched n ≤ j → s.leaf j = .queued

theorem launched_step (h : Launched n s) {a : Act} (hs : step seed quantum n s a = some s') :
    Launched n s' := by
  cases a with
  | leaf j weak =>
    obtain ⟨hj, g, pc, -, rfl⟩ := step_leaf hs
    refine ⟨h.le, ?_⟩
    intro i hi
    have hne : i ≠ j := Nat.ne_of_gt (Nat.lt_of_lt_of_le hj hi)
    show Function.update s.leaf j pc i = .queued
    rw [Function.update_of_ne hne]
    exact h.fresh i hi
  | main late =>
    have hframe := (mainStep_move hs).frame
    obtain ⟨hmono, hle⟩ := hframe.launched h.le
    refine ⟨hle, ?_⟩
    intro i hi
    rw [hframe.leaf]
    exact h.fresh i (Nat.le_trans hmono hi)

theorem gauges (seed quantum : Int64) (n : Nat) :
    Gauges (step seed quantum n) (fun _ => True) (Launched n) gauge Act.who where
  inv _ _ _ h _ hs := launched_step h hs
  others s a s' _ hw hs := by
    cases a with
    | leaf j weak => cases hw
    | main late =>
      have hframe := (mainStep_move hs).frame
      rw [gauge, gauge, hframe.leaf, hframe.inSuspend, hframe.maxInSuspend]
  moves s a s' i _ _ hw hs := by
    cases a with
    | main late => cases hw
    | leaf j weak =>
      cases hw
      obtain ⟨-, g, pc, hstep, rfl⟩ := step_leaf hs
      have hloop : (fun j => (Function.update s.leaf i pc j).climb)
          = Function.update (fun j => (s.leaf j).climb) i pc.climb :=
        Function.comp_update LeafPc.climb s.leaf i pc
      rw [gauge, gauge, hloop]
      exact Climb.Moves.lift (leafStep_move hstep).climb
  goes s a i r h _ hw hr := by
    cases a with
    | main late => cases hw
    | leaf j weak =>
      cases hw
      have hj : i < s.main.launched n := by
        by_contra hlt
        have hq := h.fresh i (Nat.le_of_not_lt hlt)
        have hnone : (s.gauge).loop i = none := congrArg LeafPc.climb hq
        rw [hnone] at hr
        cases hr
      have hclimb : (s.leaf i).climb = some r := hr
      have hgo : ∃ p, leafStep n weak s.vars (s.leaf i) = some p := by
        cases hpc : s.leaf i with
        | bumps v => exact ⟨_, rfl⟩
        | swaps v cur =>
          rw [leafStep]
          split
          · split <;> exact ⟨_, rfl⟩
          · exact ⟨_, rfl⟩
        | _ =>
          rw [hpc] at hclimb
          cases hclimb
      obtain ⟨p, hp⟩ := hgo
      rw [step, if_pos hj, hp]
      exact ⟨_, rfl⟩

theorem launched_init (n : Nat) : Launched n init := ⟨Nat.zero_le n, fun _ _ => rfl⟩

end

end Gate

/-! ## arms -/

/-- where an arm is in `bump_max` -/
def ArmPc.climb : ArmPc → Option (Climb Int)
  | .bumps v => some (.loads v)
  | .swaps v cur => some (.swaps v cur)
  | _ => none

theorem ArmMove.climb {mode quantum x : Int64} {j : Nat} {wid : Int} {g g' : OverlapVars}
    {pc pc' : ArmPc} (h : ArmMove mode quantum j x wid g pc g' pc') :
    Climb.Moves g.inFlight g.maxInFlight pc.climb g'.inFlight g'.maxInFlight pc'.climb := by
  cases h with
  | flies => exact .enters _
  | bumps v => exact .loads v
  | raises v cur hv hcur => exact .raises v cur hv hcur
  | fails v cur hv => exact .fails v cur hv
  | stops v cur hv => exact .stops v cur hv
  | lands v => exact .leaves _ (Int.sub_le_self _ Int.one_nonneg)
  | notes c s => cases c <;> exact .rests
  | _ => exact .rests

namespace Overlap

def gauge (s : Overlap) : Gauge Nat Int :=
  { live := s.vars.inFlight, peak := s.vars.maxInFlight, loop := fun j => (s.arm j).climb }

theorem gauges (seed quantum mode : Int64) :
    Gauges (step seed quantum mode) (fun _ => True) Inv gauge Act.who where
  inv _ _ _ h _ hs := inv_step h hs
  others s a s' _ hw hs := by
    cases a with
    | arm j wid weak => cases hw
    | main osWorkers => cases mainStep_move hs <;> rfl
  moves s a s' i _ _ hw hs := by
    cases a with
    | main osWorkers => cases hw
    | arm j wid weak =>
      cases hw
      obtain ⟨-, g, pc, hstep, rfl⟩ := step_arm hs
      have hloop : (fun j => (Function.update s.arm i pc j).climb)
          = Function.update (fun j => (s.arm j).climb) i pc.climb :=
        Function.comp_update ArmPc.climb s.arm i pc
      rw [gauge, gauge, hloop]
      exact Climb.Moves.lift (armStep_move hstep).climb
  goes s a i r h _ hw hr := by
    cases a with
    | main osWorkers => cases hw
    | arm j wid weak =>
      cases hw
      have hj : i < s.main.launched := by
        by_contra hlt
        have hq := h.fresh i (Nat.le_of_not_lt hlt)
        have hnone : (s.gauge).loop i = none := congrArg ArmPc.climb hq
        rw [hnone] at hr
        cases hr
      have hclimb : (s.arm i).climb = some r := hr
      have hgo : ∃ p, armStep mode quantum i (input seed i) wid weak s.vars (s.arm i) = some p := by
        cases hpc : s.arm i with
        | bumps v => exact ⟨_, rfl⟩
        | swaps v cur =>
          rw [armStep]
          split
          · split <;> exact ⟨_, rfl⟩
          · exact ⟨_, rfl⟩
        | _ =>
          rw [hpc] at hclimb
          cases hclimb
      obtain ⟨p, hp⟩ := hgo
      rw [step, if_pos hj, hp]
      exact ⟨_, rfl⟩

end Overlap

end RayX
