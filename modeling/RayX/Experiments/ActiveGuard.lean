import RayX.Lib.Count
import RayX.Lib.Signed
import RayX.Ops.Peaks

/-!
# The active-call witness of the top-k actions

`exp69_hpx_action_active_guard` counts the top-k actions that execute in the process, and keeps the peak
since the last reset.  Any number of threads execute actions, one after the other.

* `ActiveGuard.step`    a step of an action (constructor, serve count, body, destructor), or of
                        `exp69_reset_hpx_action_active`;
* `ActiveGuard.Counted`   the counter is the number of actions inside;
* `ActiveGuard.gauges`, `ActiveGuard.reset_fresh`   the actions move like the threads of a gauge, and a
                        reset between batches starts a new one;
* `peakCounters_exact`  **the three peak counters are exact.**
-/

namespace RayX
open Sys

/-- where a thread is; the names say what it does next -/
inductive GuardPc where
  | enters
  | loads (cur : Int64)
  | swaps (cur prev : Int64)
  | serves
  | works
  | leaves
  deriving DecidableEq

structure ActiveGuard (ι : Type) where
  activeCurrent : Int64
  activeMax : Int64
  serveCount : Int64
  call : ι → GuardPc
  /-- what a reset has loaded and not stored -/
  reset : Option Int64

namespace ActiveGuard

section
variable {ι : Type}

def init : ActiveGuard ι :=
  { activeCurrent := 0, activeMax := 0, serveCount := 0, call := fun _ => .enters, reset := none }

inductive Act (ι : Type) where
  | call (i : ι) (weak : Bool)
  | reset

/-- a step that no reset takes part in -/
def Act.isCall : Act ι → Prop
  | .call _ _ => True
  | .reset => False

def Act.who : Act ι → Option ι
  | .call i _ => some i
  | .reset => none

/-- the next step of an action; `weak` is a failure of the weak exchange for no reason -/
def callStep (weak : Bool) (s : ActiveGuard ι) : GuardPc → Option (ActiveGuard ι × GuardPc)
  -- the atomics wrap around, the sum on what `fetch_add` returns has no value when it overflows
  | .enters => (addS s.activeCurrent 1).map fun cur =>
    ({ s with activeCurrent := s.activeCurrent + 1 }, .loads cur)
  | .loads cur => some (s, .swaps cur s.activeMax)
  | .swaps cur prev =>
    if prev < cur then
      if s.activeMax = prev ∧ weak = false then some ({ s with activeMax := cur }, .serves)
      else some (s, .swaps cur s.activeMax)
    else some (s, .serves)
  | .serves => some ({ s with serveCount := s.serveCount + 1 }, .works)
  -- the reply, or an exception: the destructor runs either way
  | .works => some (s, .leaves)
  | .leaves => some ({ s with activeCurrent := s.activeCurrent - 1 }, .enters)

/-- the next step of a reset: the load, then the store -/
def resetStep (s : ActiveGuard ι) : ActiveGuard ι :=
  match s.reset with
  | none => { s with reset := some s.activeCurrent }
  | some cur => { s with activeMax := cur, reset := none }

variable [DecidableEq ι]

def step (s : ActiveGuard ι) : Act ι → Option (ActiveGuard ι)
  | .call i weak => (callStep weak s (s.call i)).map fun r =>
    { r.1 with call := Function.update s.call i r.2 }
  | .reset => some s.resetStep

end

end ActiveGuard

/-! ## the counter -/

/-- between the increment and the decrement -/
def GuardPc.inside : GuardPc → Option Unit
  | .enters => none
  | _ => some ()

namespace ActiveGuard

section
variable {ι : Type} {s s' : ActiveGuard ι}

/-- who is inside -/
def insiders (s : ActiveGuard ι) : Set ι := holders fun i => (s.call i).inside

/-- the counter is the number of actions inside -/
structure Counted (s : ActiveGuard ι) : Prop where
  nonneg : 0 ≤ s.activeCurrent.toInt
  count : s.insiders.encard = s.activeCurrent.toInt.toNat

theorem counted_init : Counted (init : ActiveGuard ι) where
  nonneg := Int.le_refl 0
  count := by
    have hempty : (init : ActiveGuard ι).insiders = ∅ :=
      Set.eq_empty_of_forall_notMem fun i hi => hi rfl
    rw [hempty, Set.encard_empty]
    rfl

variable [DecidableEq ι]

theorem step_call {i : ι} {weak : Bool} (h : step s (.call i weak) = some s') : ∃ g pc,
    callStep weak s (s.call i) = some (g, pc) ∧
      s' = { g with call := Function.update s.call i pc } := by
  obtain ⟨r, hr, hs⟩ := Option.map_eq_some_iff.mp h
  exact ⟨r.1, r.2, hr, hs.symm⟩

theorem insiders_update (s g : ActiveGuard ι) (i : ι) (pc : GuardPc) :
    insiders { g with call := Function.update s.call i pc }
      = holders (Function.update (fun j => (s.call j).inside) i pc.inside) := by
  have hfun : (fun j => (Function.update s.call i pc j).inside)
      = Function.update (fun j => (s.call j).inside) i pc.inside :=
    Function.comp_update GuardPc.inside s.call i pc
  rw [insiders, hfun]

/-- a thread that stays inside, or outside -/
theorem Counted.stays (h : Counted s) {g : ActiveGuard ι} {i : ι} {pc : GuardPc}
    (hcurrent : g.activeCurrent = s.activeCurrent) (hpc : pc.inside = (s.call i).inside) :
    Counted { g with call := Function.update s.call i pc } := by
  constructor
  · show 0 ≤ g.activeCurrent.toInt
    rw [hcurrent]
    exact h.nonneg
  · rw [insiders_update, hpc, Function.update_eq_self]
    show (holders fun j => (s.call j).inside).encard = g.activeCurrent.toInt.toNat
    rw [hcurrent]
    exact h.count

/-- an action is inside: the counter is positive, and its decrement does not wrap around -/
theorem Counted.leaving (h : Counted s) {i : ι} (hi : (s.call i).inside ≠ none) :
    (s.activeCurrent - 1).toInt = s.activeCurrent.toInt - 1 ∧ 1 ≤ s.activeCurrent.toInt := by
  have hpos := (count_give (f := fun j => (s.call j).inside) hi h.count).1
  have hlt := Int64.toInt_lt s.activeCurrent
  have hnonneg := h.nonneg
  have hone : 1 ≤ s.activeCurrent.toInt := by omega
  refine ⟨?_, hone⟩
  rw [Int64.toInt_sub, one_toInt]
  exact Int.bmod_eq_of_le (by omega) (by omega)

/-- the sum has a value: the increment does not wrap around -/
theorem entering {x v : Int64} (h : addS x 1 = some v) :
    v = x + 1 ∧ (x + 1).toInt = x.toInt + 1 := by
  rw [addS, exact] at h
  split at h
  · rename_i hin
    have hadd : addS x 1 = some (x + 1) := addS_eq hin
    rw [addS, exact, if_pos hin] at hadd
    cases h
    refine ⟨Option.some.inj hadd, ?_⟩
    rw [Int64.toInt_add, one_toInt]
    have hlo := hin.1
    have hhi := hin.2
    rw [one_toInt] at hlo hhi
    exact Int.bmod_eq_of_le (by omega) (by omega)
  · cases h

/-- the steps of an action -/
inductive CallMove (s : ActiveGuard ι) : GuardPc → ActiveGuard ι → GuardPc → Prop
  | enters (hadd : (s.activeCurrent + 1).toInt = s.activeCurrent.toInt + 1) : CallMove s .enters
      { s with activeCurrent := s.activeCurrent + 1 } (.loads (s.activeCurrent + 1))
  | loads (cur : Int64) : CallMove s (.loads cur) s (.swaps cur s.activeMax)
  | raises (cur prev : Int64) (hlt : prev.toInt < cur.toInt) (heq : s.activeMax = prev) :
      CallMove s (.swaps cur prev) { s with activeMax := cur } .serves
  | fails (cur prev : Int64) (hlt : prev.toInt < cur.toInt) :
      CallMove s (.swaps cur prev) s (.swaps cur s.activeMax)
  | stops (cur prev : Int64) (hle : cur.toInt ≤ prev.toInt) : CallMove s (.swaps cur prev) s .serves
  | serves : CallMove s .serves { s with serveCount := s.serveCount + 1 } .works
  | works : CallMove s .works s .leaves
  | leaves : CallMove s .leaves { s with activeCurrent := s.activeCurrent - 1 } .enters

omit [DecidableEq ι] in
theorem callStep_move {weak : Bool} {g : ActiveGuard ι} {p pc : GuardPc}
    (h : callStep weak s p = some (g, pc)) : CallMove s p g pc := by
  cases p with
  | enters =>
    rw [callStep] at h
    obtain ⟨cur, hcur, hr⟩ := Option.map_eq_some_iff.mp h
    obtain ⟨rfl, hadd⟩ := entering hcur
    cases hr
    exact .enters hadd
  | loads cur =>
    cases h
    exact .loads cur
  | swaps cur prev =>
    rw [callStep] at h
    split at h
    · rename_i hlt
      have hlt := Int64.lt_iff_toInt_lt.mp hlt
      split at h
      · rename_i heq
        cases h
        exact .raises cur prev hlt heq.1
      · cases h
        exact .fails cur prev hlt
    · rename_i hlt
      cases h
      refine .stops cur prev (Int.not_lt.mp ?_)
      intro hc
      exact hlt (Int64.lt_iff_toInt_lt.mpr hc)
  | serves =>
    cases h
    exact .serves
  | works =>
    cases h
    exact .works
  | leaves =>
    cases h
    exact .leaves

theorem counted_step (h : Counted s) {a : Act ι} (hs : step s a = some s') : Counted s' := by
  cases a with
  | reset =>
    cases hs
    rw [resetStep]
    split <;> exact ⟨h.nonneg, h.count⟩
  | call i weak =>
    obtain ⟨g, pc, hstep, rfl⟩ := step_call hs
    have hmove := callStep_move hstep
    generalize hpc : s.call i = p at hmove
    cases hmove with
    | enters hadd =>
      have hout : (s.call i).inside = none := by
        rw [hpc]
        rfl
      have hnonneg := h.nonneg
      constructor
      · show 0 ≤ (s.activeCurrent + 1).toInt
        omega
      · rw [insiders_update]
        show (holders (Function.update (fun j => (s.call j).inside) i (some ()))).encard
          = ((s.activeCurrent + 1).toInt.toNat : ℕ∞)
        rw [count_take (f := fun j => (s.call j).inside) hout h.count, hadd]
        congr 1
        omega
    | leaves =>
      have hin : (s.call i).inside ≠ none := by
        rw [hpc]
        exact fun hc => by cases hc
      obtain ⟨hsub, hone⟩ := h.leaving hin
      constructor
      · show 0 ≤ (s.activeCurrent - 1).toInt
        omega
      · rw [insiders_update]
        show (holders (Function.update (fun j => (s.call j).inside) i none)).encard
          = ((s.activeCurrent - 1).toInt.toNat : ℕ∞)
        rw [(count_give (f := fun j => (s.call j).inside) hin h.count).2, hsub]
        congr 1
        omega
    | _ => exact h.stays rfl (by rw [hpc]; rfl)

end

end ActiveGuard

/-! ## the peak -/

/-- where a thread is in the loop of the constructor -/
def GuardPc.climb : GuardPc → Option (Climb Int)
  | .loads cur => some (.loads cur.toInt)
  | .swaps cur prev => some (.swaps cur.toInt prev.toInt)
  | _ => none

namespace ActiveGuard

section
variable {ι : Type} {s s' g : ActiveGuard ι} {i : ι} {pc : GuardPc} {weak : Bool}

def gauge (s : ActiveGuard ι) : Gauge ι Int :=
  { live := s.activeCurrent.toInt, peak := s.activeMax.toInt, loop := fun i => (s.call i).climb }

variable [DecidableEq ι]

theorem Counted.climb (h : Counted s) (hs : CallMove s (s.call i) g pc) :
    Climb.Moves s.activeCurrent.toInt s.activeMax.toInt (s.call i).climb g.activeCurrent.toInt
      g.activeMax.toInt pc.climb := by
  generalize hpc : s.call i = p at hs
  cases hs with
  | enters hadd => exact .enters _
  | loads cur => exact .loads _
  | raises cur prev hlt heq => exact .raises _ _ hlt (congrArg Int64.toInt heq)
  | fails cur prev hlt => exact .fails _ _ hlt
  | stops cur prev hle => exact .stops _ _ hle
  | serves => exact .rests
  | works => exact .rests
  | leaves =>
    have hin : (s.call i).inside ≠ none := by
      rw [hpc]
      exact fun hc => by cases hc
    have hsub := (h.leaving hin).1
    refine .leaves _ ?_
    show (s.activeCurrent - 1).toInt ≤ s.activeCurrent.toInt
    omega

theorem gauges : Gauges (step (ι := ι)) Act.isCall Counted gauge Act.who where
  inv _ _ _ h _ hs := counted_step h hs
  others s a s' hC hw hs := by
    cases a with
    | call i weak => cases hw
    | reset => exact absurd hC id
  moves s a s' i h _ hw hs := by
    cases a with
    | reset => cases hw
    | call j weak =>
      cases hw
      obtain ⟨g, pc, hstep, rfl⟩ := step_call hs
      have hloop : (fun j => (Function.update s.call i pc j).climb)
          = Function.update (fun j => (s.call j).climb) i pc.climb :=
        Function.comp_update GuardPc.climb s.call i pc
      show Gauge.Moves i s.gauge ⟨g.activeCurrent.toInt, g.activeMax.toInt,
        fun j => (Function.update s.call i pc j).climb⟩
      rw [hloop]
      exact (h.climb (callStep_move hstep)).lift
  goes s a i r h _ hw hr := by
    cases a with
    | reset => cases hw
    | call j weak =>
      cases hw
      have hclimb : (s.call i).climb = some r := hr
      have hgo : ∃ p, callStep weak s (s.call i) = some p := by
        cases hpc : s.call i with
        | loads cur => exact ⟨_, rfl⟩
        | swaps cur prev =>
          rw [callStep]
          split
          · split <;> exact ⟨_, rfl⟩
          · exact ⟨_, rfl⟩
        | _ =>
          rw [hpc] at hclimb
          cases hclimb
      obtain ⟨p, hp⟩ := hgo
      rw [step, hp]
      exact ⟨_, rfl⟩

/-- a thread that cannot enter has as many before it as the counter can hold -/
theorem enters_goes (h : Counted s) (hpc : s.call i = .enters)
    (hroom : s.insiders.encard ≠ ((2 ^ 63 - 1 : Nat) : ℕ∞)) : ∃ s', step s (.call i weak) = some s' := by
  have hne : s.activeCurrent.toInt.toNat ≠ 2 ^ 63 - 1 := by
    intro heq
    apply hroom
    rw [h.count, heq]
  have hlt := Int64.toInt_lt s.activeCurrent
  have hnonneg := h.nonneg
  have hin : InRange (s.activeCurrent.toInt + (1 : Int64).toInt) := by
    rw [one_toInt]
    constructor <;> omega
  rw [step, hpc, callStep, addS_eq hin]
  exact ⟨_, rfl⟩

/-- **A reset between batches starts over**: no action is inside, and the peak is the counter. -/
theorem reset_fresh (h : Counted s) (hout : ∀ i, s.call i = .enters) (hreset : s.reset = none) :
    ∃ s', run step s [.reset, .reset] = some s' ∧ Counted s' ∧ s'.gauge.peak = s'.gauge.live ∧
      ∀ i, s'.gauge.loop i = none := by
  have hone : s.resetStep = { s with reset := some s.activeCurrent } := by
    rw [resetStep, hreset]
  refine ⟨{ s with activeMax := s.activeCurrent }, ?_, ⟨h.nonneg, h.count⟩, rfl, ?_⟩
  · show ((some s.resetStep).bind fun s₁ => (some s₁.resetStep).bind some) = _
    rw [hone]
    show some { s with activeMax := s.activeCurrent, reset := none } = _
    rw [← hreset]
  · intro i
    show (s.call i).climb = none
    rw [hout i]
    rfl

end

end ActiveGuard

/-! ## the three counters -/

/-- **Peak counters are exact.** -/
theorem peakCounters_exact :
    (∀ (seed quantum : Int64) (n : Nat) (as : List Gate.Act) (s : Gate),
      run (Gate.step seed quantum n) Gate.init as = some s →
      PeakExact (Gate.step seed quantum n) (fun _ => True) Gate.gauge Gate.Act.who Gate.init as s) ∧
    (∀ (seed quantum mode : Int64) (as : List Overlap.Act) (s : Overlap),
      run (Overlap.step seed quantum mode) (Overlap.init mode) as = some s →
      PeakExact (Overlap.step seed quantum mode) (fun _ => True) Overlap.gauge Overlap.Act.who
        (Overlap.init mode) as s) ∧
    (∀ (ι : Type) [DecidableEq ι] (as : List (ActiveGuard.Act ι)) (s : ActiveGuard ι),
      (∀ a ∈ as, a.isCall) → run ActiveGuard.step ActiveGuard.init as = some s →
      PeakExact ActiveGuard.step ActiveGuard.Act.isCall ActiveGuard.gauge ActiveGuard.Act.who
        ActiveGuard.init as s) := by
  refine ⟨?_, ?_, ?_⟩
  · intro seed quantum n as s hr
    exact (Gate.gauges seed quantum n).peakExact (Gate.launched_init n) rfl (fun _ => rfl)
      (fun _ _ => trivial) hr
  · intro seed quantum mode as s hr
    exact (Overlap.gauges seed quantum mode).peakExact (Overlap.inv_init mode) rfl (fun _ => rfl)
      (fun _ _ => trivial) hr
  · intro ι _ as s hC hr
    exact ActiveGuard.gauges.peakExact ActiveGuard.counted_init rfl (fun _ => rfl) hC hr

/-- two threads, the second of which has raised the maximum before the first -/
def ActiveGuard.raised : List (ActiveGuard.Act Nat) :=
  [.call 0 false, .call 1 false, .call 1 false, .call 1 false, .call 0 false, .call 0 false]

theorem peakCounters_exact_runs :
    (∃ s, run (Gate.step 0 0 1) Gate.init [.main false, .main false, .leaf 0 false] = some s ∧
      PeakExact (Gate.step 0 0 1) (fun _ => True) Gate.gauge Gate.Act.who Gate.init
        [.main false, .main false, .leaf 0 false] s) ∧
    (∃ s, run (Overlap.step 0 0 0) (Overlap.init 0) Overlap.inTurn = some s ∧
      PeakExact (Overlap.step 0 0 0) (fun _ => True) Overlap.gauge Overlap.Act.who (Overlap.init 0)
        Overlap.inTurn s) ∧
    ∃ s, run ActiveGuard.step ActiveGuard.init ActiveGuard.raised = some s ∧
      PeakExact ActiveGuard.step ActiveGuard.Act.isCall ActiveGuard.gauge ActiveGuard.Act.who
        ActiveGuard.init ActiveGuard.raised s :=
  ⟨⟨_, rfl, peakCounters_exact.1 0 0 1 _ _ rfl⟩, ⟨_, rfl, peakCounters_exact.2.1 0 0 0 _ _ rfl⟩,
    ⟨_, rfl, peakCounters_exact.2.2 Nat _ _ (by simp [ActiveGuard.raised, ActiveGuard.Act.isCall]) rfl⟩⟩

end RayX
