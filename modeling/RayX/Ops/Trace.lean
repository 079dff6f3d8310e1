import RayX.Lib.Count
import RayX.Lib.Stamp
import RayX.Ops.Overlap

/-!
# The trace of `overlap_probe`

What the bounded trace of one call holds, in every interleaving of the arms.

* `ArmMove`, `armStep_move`   the steps of an arm, `ArmMove.trace` what they do to the numbers and to
                         the trace;
* `Overlap.Inv`          the body waits for both arms, and records the trace they left;
* `events_sorted_iff`    **the trace is in the order of its numbers exactly when every event was appended
                         in turn**;
-/

namespace RayX
open Sys

/-! ## one step -/

/-- the number an arm has drawn and not appended -/
def ArmPc.held : ArmPc → Option Nat
  | .pushes _ _ s => some s
  | _ => none

section
variable {mode quantum x : Int64} {j : Nat} {wid : Int} {weak : Bool} {g g' : OverlapVars}
  {pc pc' : ArmPc}

theorem OverlapWitness.recordWorker_events (w : OverlapWitness) (arm : Nat) (wid : Int) :
    (w.recordWorker arm wid).events = w.events := by
  rw [OverlapWitness.recordWorker]
  split
  · rfl
  · split <;> rfl

/-- the steps of an arm -/
inductive ArmMove (mode quantum : Int64) (j : Nat) (x : Int64) (wid : Int) (g : OverlapVars) :
    ArmPc → OverlapVars → ArmPc → Prop
  | starts : ArmMove mode quantum j x wid g .queued { g with w := g.w.recordWorker j wid }
      (.stamps .enter wid)
  | stamps (c : Site) (w : Int) : ArmMove mode quantum j x wid g (.stamps c w)
      { g with eventSeq := g.eventSeq + 1 } (.pushes c w g.eventSeq)
  | pushes (c : Site) (w : Int) (s : Nat) : ArmMove mode quantum j x wid g (.pushes c w s)
      { g with w := g.w.append ⟨j, c.phase, s, w⟩ } (.notes c s)
  | notes (c : Site) (s : Nat) :
      ArmMove mode quantum j x wid g (.notes c s) (noted j s g c).1 (noted j s g c).2
  | flies : ArmMove mode quantum j x wid g .flies { g with inFlight := g.inFlight + 1 }
      (.bumps (g.inFlight + 1))
  | bumps (v : Int) : ArmMove mode quantum j x wid g (.bumps v) g (.swaps v g.maxInFlight)
  | raises (v cur : Int) (hv : cur < v) (hcur : g.maxInFlight = cur) :
      ArmMove mode quantum j x wid g (.swaps v cur) { g with maxInFlight := v } .computes
  | fails (v cur : Int) (hv : cur < v) :
      ArmMove mode quantum j x wid g (.swaps v cur) g (.swaps v g.maxInFlight)
  | stops (v cur : Int) (hv : v ≤ cur) : ArmMove mode quantum j x wid g (.swaps v cur) g .computes
  | flat (hmode : mode = 0) :
      ArmMove mode quantum j x wid g .computes g (.lands (chainStage x quantum))
  | chunked (hmode : mode ≠ 0) : ArmMove mode quantum j x wid g .computes g (.loops 0 0)
  | first (acc : UInt64) (hk : 0 < nChunks quantum) :
      ArmMove mode quantum j x wid g (.loops 0 acc) g (.adds 0 acc)
  | yields (k : Nat) (acc : UInt64) (hk : k < nChunks quantum) (hpos : 0 < k) :
      ArmMove mode quantum j x wid g (.loops k acc) { g with w := g.w.recordWorker j wid }
        (.stamps (.chunk k acc) wid)
  | sums (k : Nat) (acc : UInt64) (hk : ¬ k < nChunks quantum) :
      ArmMove mode quantum j x wid g (.loops k acc) g
        (.lands ((x.toUInt64 + acc) &&& busySumMask).toInt64)
  | adds (k : Nat) (acc : UInt64) :
      ArmMove mode quantum j x wid g (.adds k acc) g (.loops (k + 1) (maskedChunk quantum k acc))
  | lands (v : Int64) : ArmMove mode quantum j x wid g (.lands v)
      { g with inFlight := g.inFlight - 1 } (.samples v)
  | samples (v : Int64) : ArmMove mode quantum j x wid g (.samples v)
      { g with w := g.w.recordWorker j wid } (.stamps (.leave v) wid)
  | completes (v : Int64) : ArmMove mode quantum j x wid g (.completes v)
      { g with armsCompleted := g.armsCompleted + 1 } (.returned v)

theorem armStep_move (h : armStep mode quantum j x wid weak g pc = some (g', pc')) :
    ArmMove mode quantum j x wid g pc g' pc' := by
  cases pc with
  | queued =>
    cases h
    exact .starts
  | stamps c w =>
    cases h
    exact .stamps c w
  | pushes c w s =>
    cases h
    exact .pushes c w s
  | notes c s =>
    have hnoted : noted j s g c = (g', pc') := Option.some.inj h
    have hmove : ArmMove mode quantum j x wid g (.notes c s) (noted j s g c).1 (noted j s g c).2 :=
      .notes c s
    rw [hnoted] at hmove
    exact hmove
  | flies =>
    cases h
    exact .flies
  | bumps v =>
    cases h
    exact .bumps v
  | swaps v cur =>
    rw [armStep] at h
    split at h
    · rename_i hv
      split at h
      · rename_i hcur
        cases h
        exact .raises v cur hv hcur.1
      · cases h
        exact .fails v cur hv
    · rename_i hv
      cases h
      exact .stops v cur (Int.not_lt.mp hv)
  | computes =>
    cases h
    split
    · exact .flat ‹_›
    · exact .chunked ‹_›
  | loops k acc =>
    rw [armStep] at h
    split at h
    · rename_i hk
      split at h
      · rename_i hpos
        cases h
        exact .yields k acc hk hpos
      · rename_i hpos
        cases h
        cases Nat.eq_zero_of_not_pos hpos
        exact .first acc hk
    · rename_i hk
      cases h
      exact .sums k acc hk
  | adds k acc =>
    cases h
    exact .adds k acc
  | lands v =>
    cases h
    exact .lands v
  | samples v =>
    cases h
    exact .samples v
  | completes v =>
    cases h
    exact .completes v
  | returned v => cases h

/-- a step of an arm draws a number, appends the number it drew, or does neither -/
inductive TraceMove (j : Nat) (g : OverlapVars) : ArmPc → OverlapVars → ArmPc → Prop
  | rests (p : ArmPc) (o : OverlapVars) (p' : ArmPc) (hp : p.held = none) (hp' : p'.held = none)
      (hseq : o.eventSeq = g.eventSeq) (hevents : o.w.events = g.w.events) : TraceMove j g p o p'
  | stamps (c : Site) (wid : Int) :
      TraceMove j g (.stamps c wid) { g with eventSeq := g.eventSeq + 1 } (.pushes c wid g.eventSeq)
  | pushes (c : Site) (wid : Int) (s : Nat) :
      TraceMove j g (.pushes c wid s) { g with w := g.w.append ⟨j, c.phase, s, wid⟩ } (.notes c s)

theorem ArmMove.trace (h : ArmMove mode quantum j x wid g pc g' pc') : TraceMove j g pc g' pc' := by
  cases h with
  | stamps c w => exact .stamps c w
  | pushes c w s => exact .pushes c w s
  | starts => exact .rests _ _ _ rfl rfl rfl (OverlapWitness.recordWorker_events ..)
  | yields => exact .rests _ _ _ rfl rfl rfl (OverlapWitness.recordWorker_events ..)
  | samples => exact .rests _ _ _ rfl rfl rfl (OverlapWitness.recordWorker_events ..)
  | notes c s => cases c <;> exact .rests _ _ _ rfl rfl rfl rfl
  | _ => exact .rests _ _ _ rfl rfl rfl rfl

end

namespace Overlap

section
variable {seed quantum mode : Int64} {s s' : Overlap} {a : Act}

def Act.who : Act → Option Nat
  | .arm j _ _ => some j
  | .main _ => none

/-- the step of an arm, on the variables and on its own place -/
theorem step_arm {j : Nat} {wid : Int} {weak : Bool}
    (h : step seed quantum mode s (.arm j wid weak) = some s') :
    j < s.main.launched ∧ ∃ g pc,
      armStep mode quantum j (input seed j) wid weak s.vars (s.arm j) = some (g, pc) ∧
      s' = { s with vars := g, arm := Function.update s.arm j pc } := by
  rw [step] at h
  split at h
  · rename_i hj
    obtain ⟨r, hr, hs⟩ := Option.map_eq_some_iff.mp h
    exact ⟨hj, r.1, r.2, hr, hs.symm⟩
  · cases h

/-- what a step of the body does -/
inductive MainMove (osWorkers : Nat) (s : Overlap) : Overlap → Prop
  | launches (j : Nat) (hpc : s.main = .launch j) (hj : j < overlapArms) :
      MainMove osWorkers s { s with main := .launch (j + 1) }
  | launched (j : Nat) (hpc : s.main = .launch j) (hj : overlapArms ≤ j) :
      MainMove osWorkers s { s with main := .waits }
  | joins (v : Int64) (hpc : s.main = .waits) (hjoin : s.joined = true)
      (hv : v = (((s.future 0).getD 0).toUInt64 + ((s.future 1).getD 0).toUInt64
        &&& busySumMask).toInt64) :
      MainMove osWorkers s { s with result := v, main := .records }
  | records (hpc : s.main = .records) : MainMove osWorkers s
      { s with witness := some (OverlapWitness.finalized s.vars osWorkers), main := .finished }

theorem mainStep_move {osWorkers : Nat} (h : mainStep osWorkers s = some s') :
    MainMove osWorkers s s' := by
  rw [mainStep] at h
  cases hpc : s.main with
  | launch j =>
    rw [hpc] at h
    dsimp only at h
    split at h
    · rename_i hj
      cases h
      exact .launches j hpc hj
    · rename_i hj
      cases h
      exact .launched j hpc (Nat.le_of_not_lt hj)
  | waits =>
    rw [hpc] at h
    dsimp only at h
    split at h
    · rename_i hjoin
      cases h
      exact .joins _ hpc hjoin rfl
    · cases h
  | records =>
    rw [hpc] at h
    cases h
    exact .records hpc
  | finished =>
    rw [hpc] at h
    cases h

/-! ## the body -/

theorem returned_of_joined (h : s.joined = true) {j : Nat} (hj : j < overlapArms) :
    ∃ v, s.arm j = .returned v := by
  have hsome := List.all_eq_true.mp h j (List.mem_range.mpr hj)
  rw [future] at hsome
  split at hsome
  · rename_i v hv
    exact ⟨v, hv⟩
  · cases hsome

/-- the body waits for the arms, and records what they left -/
structure Inv (s : Overlap) : Prop where
  launched : s.main.launched ≤ overlapArms
  fresh : ∀ j, s.main.launched ≤ j → s.arm j = .queued
  joined : s.main = .records ∨ s.main = .finished → ∀ j < overlapArms, ∃ v, s.arm j = .returned v
  witness : ∀ w, s.witness = some w →
    s.main = .finished ∧ ∃ osWorkers, w = OverlapWitness.finalized s.vars osWorkers
  finished : s.main = .finished → ∃ w, s.witness = some w

theorem inv_init (mode : Int64) : Inv (init mode) where
  launched := Nat.zero_le _
  fresh _ _ := rfl
  joined h := by rcases h with h | h <;> cases h
  witness _ h := by cases h
  finished h := by cases h

theorem inv_step (h : Inv s) (hs : step seed quantum mode s a = some s') : Inv s' := by
  cases a with
  | arm j wid weak =>
    obtain ⟨hj, g, pc, hstep, rfl⟩ := step_arm hs
    -- the body is still waiting
    have hwait : ¬ (s.main = .records ∨ s.main = .finished) := by
      intro hm
      obtain ⟨v, hv⟩ := h.joined hm j (Nat.lt_of_lt_of_le hj h.launched)
      rw [hv] at hstep
      cases armStep_move hstep
    refine ⟨h.launched, ?_, fun hm => absurd hm hwait, ?_, fun hm => absurd (Or.inr hm) hwait⟩
    · intro i hi
      have hne : i ≠ j := Nat.ne_of_gt (Nat.lt_of_lt_of_le hj hi)
      show Function.update s.arm j pc i = .queued
      rw [Function.update_of_ne hne]
      exact h.fresh i hi
    · intro w hw
      exact absurd (Or.inr (h.witness w hw).1) hwait
  | main osWorkers =>
    have hnone : s.main ≠ .finished → ∀ w, s.witness ≠ some w :=
      fun hne w hw => hne (h.witness w hw).1
    cases mainStep_move hs with
    | launches j hpc hj =>
      have hnew := hnone (by rw [hpc]; intro hc; cases hc)
      refine ⟨hj, ?_, ?_, fun w hw => absurd hw (hnew w), fun hm => by cases hm⟩
      · intro i hi
        refine h.fresh i ?_
        rw [hpc]
        exact Nat.le_of_succ_le hi
      · intro hm
        rcases hm with hm | hm <;> cases hm
    | launched j hpc hj =>
      have hnew := hnone (by rw [hpc]; intro hc; cases hc)
      have hle := h.launched
      rw [hpc] at hle
      refine ⟨Nat.le_refl _, ?_, ?_, fun w hw => absurd hw (hnew w), fun hm => by cases hm⟩
      · intro i hi
        refine h.fresh i ?_
        rw [hpc]
        exact Nat.le_trans hle hi
      · intro hm
        rcases hm with hm | hm <;> cases hm
    | joins v hpc hjoin hv =>
      have hnew := hnone (by rw [hpc]; intro hc; cases hc)
      refine ⟨Nat.le_refl _, ?_, ?_, fun w hw => absurd hw (hnew w), fun hm => by cases hm⟩
      · intro i hi
        refine h.fresh i ?_
        rw [hpc]
        exact hi
      · intro _ j hj
        exact returned_of_joined hjoin hj
    | records hpc =>
      refine ⟨Nat.le_refl _, ?_, ?_, ?_, fun _ => ⟨_, rfl⟩⟩
      · intro i hi
        refine h.fresh i ?_
        rw [hpc]
        exact hi
      · intro _ j hj
        exact h.joined (Or.inl hpc) j hj
      · intro w hw
        cases hw
        exact ⟨rfl, osWorkers, rfl⟩

theorem inv_run {as : List Act} (hr : run (step seed quantum mode) (init mode) as = some s) : Inv s :=
  run_inv (fun _ _ _ h hs => inv_step h hs) hr (inv_init mode)

/-- the witness holds the trace that the arms left -/
theorem witness_events {as : List Act} {w : OverlapWitness}
    (hr : run (step seed quantum mode) (init mode) as = some s) (hw : s.witness = some w) :
    w.events = s.vars.w.events ∧ ∀ j < overlapArms, ∃ v, s.arm j = .returned v := by
  have h := inv_run hr
  obtain ⟨hfin, osWorkers, rfl⟩ := h.witness w hw
  exact ⟨rfl, h.joined (Or.inr hfin)⟩

/-! ## the order of the trace -/

/-- the numbers of the events -/
def stamps (s : Overlap) : Stamps Nat :=
  { next := s.vars.eventSeq, log := s.vars.w.events.map OverlapEvent.seq,
    bound := OverlapWitness.eventsCap, held := fun j => (s.arm j).held }

theorem held_update (s : Overlap) (j : Nat) (pc : ArmPc) :
    (fun i => (Function.update s.arm j pc i).held)
      = Function.update (fun i => (s.arm i).held) j pc.held := by
  funext i
  by_cases hi : i = j
  · rw [hi, Function.update_self, Function.update_self]
  · rw [Function.update_of_ne hi, Function.update_of_ne hi]

theorem stamping : Stamping (step seed quantum mode) stamps Act.who where
  others s a s' hw hs := by
    cases a with
    | arm j wid weak => cases hw
    | main osWorkers =>
      cases mainStep_move hs <;> rfl
  moves s a s' i hw hs := by
    cases a with
    | main osWorkers => cases hw
    | arm j wid weak =>
      cases hw
      obtain ⟨-, g, pc, hstep, rfl⟩ := step_arm hs
      have hmove := (armStep_move hstep).trace
      have hview : stamps { s with vars := g, arm := Function.update s.arm i pc } =
          { next := g.eventSeq, log := g.w.events.map OverlapEvent.seq,
            bound := OverlapWitness.eventsCap,
            held := Function.update (fun i => (s.arm i).held) i pc.held } := by
        rw [stamps, ← held_update]
      rw [hview]
      generalize hpc : s.arm i = p at hmove
      cases hmove with
      | rests _ _ _ hp hp' hseq hevents =>
        have hheld : (s.stamps).held i = none := by
          show (s.arm i).held = none
          rw [hpc]
          exact hp
        rw [hp', hseq, hevents]
        have hsame : Function.update (fun i => (s.arm i).held) i none = fun i => (s.arm i).held := by
          rw [← hheld]
          exact Function.update_eq_self i _
        rw [hsame]
        exact .rests hheld
      | stamps c wid =>
        refine .draws ?_
        show (s.arm i).held = none
        rw [hpc]
        rfl
      | pushes c wid k =>
        have hheld : (s.stamps).held i = some k := by
          show (s.arm i).held = some k
          rw [hpc]
          rfl
        by_cases hroom : s.vars.w.events.length < OverlapWitness.eventsCap
        · have happ : s.vars.w.append ⟨i, c.phase, k, wid⟩
              = { s.vars.w with events := s.vars.w.events ++ [⟨i, c.phase, k, wid⟩] } := if_pos hroom
          rw [happ]
          dsimp only
          rw [List.map_append]
          refine .appends k hheld ?_
          show (s.vars.w.events.map OverlapEvent.seq).length < OverlapWitness.eventsCap
          rw [List.length_map]
          exact hroom
        · have happ : s.vars.w.append ⟨i, c.phase, k, wid⟩
              = { s.vars.w with eventTraceOverflowed := true } := if_neg hroom
          rw [happ]
          refine .drops k hheld ?_
          show OverlapWitness.eventsCap ≤ (s.vars.w.events.map OverlapEvent.seq).length
          rw [List.length_map]
          exact Nat.le_of_not_lt hroom

theorem stamps_init (mode : Int64) : (stamps (init mode)).Inv :=
  Stamps.Inv.init rfl rfl (fun _ => rfl)

end

/-- **The events are in the order of their numbers exactly when every one was appended in turn.** -/
theorem events_sorted_iff {seed quantum mode : Int64} {as : List Act} {s : Overlap}
    {w : OverlapWitness} (hr : run (step seed quantum mode) (init mode) as = some s)
    (hw : s.witness = some w) :
    w.events.Pairwise (fun e f => e.seq < f.seq) ↔
      stepsMeet (step seed quantum mode) (TakesTurn stamps Act.who) (init mode) as := by
  rw [← stamping.sorted_iff (stamps_init mode) List.Pairwise.nil hr, (witness_events hr hw).1]
  exact List.pairwise_map.symm

/-- one arm after the other -/
def inTurn : List Act :=
  [.main 1, .main 1, .main 1] ++ List.replicate 14 (.arm 0 0 false)
    ++ List.replicate 14 (.arm 1 0 false) ++ [.main 1, .main 1]

theorem events_sorted_iff_inTurn : ∃ s w, run (step 0 0 0) (init 0) inTurn = some s ∧
    s.witness = some w ∧ (w.events.Pairwise (fun e f => e.seq < f.seq) ↔
      stepsMeet (step 0 0 0) (TakesTurn stamps Act.who) (init 0) inTurn) :=
  ⟨_, _, rfl, rfl, events_sorted_iff (rfl : run (step 0 0 0) (init 0) inTurn = some _) rfl⟩

/-- arm `1` draws its number second and appends it first -/
def overtakes : List Act :=
  [.main 1, .main 1, .main 1, .arm 0 0 false, .arm 0 0 false, .arm 1 0 false, .arm 1 0 false,
    .arm 1 0 false] ++ List.replicate 12 (.arm 0 0 false) ++ List.replicate 11 (.arm 1 0 false)
    ++ [.main 1, .main 1]

theorem events_overtaken : ¬ ∀ (seed quantum mode : Int64) (as : List Act) (s : Overlap)
    (w : OverlapWitness), run (step seed quantum mode) (init mode) as = some s →
    s.witness = some w → w.events.Pairwise (fun e f => e.seq < f.seq) := by
  intro h
  obtain ⟨s, w, hr, hw, hseq⟩ : ∃ s w, run (step 0 0 0) (init 0) overtakes = some s ∧
      s.witness = some w ∧ w.events.map OverlapEvent.seq = [1, 0, 2, 3] := ⟨_, _, rfl, rfl, rfl⟩
  have hsorted := List.pairwise_map.mpr (h 0 0 0 overtakes s w hr hw)
  rw [hseq] at hsorted
  exact absurd hsorted (by decide)

end Overlap

end RayX
