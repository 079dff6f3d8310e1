import RayX.Lib.Run
import RayX.Ops.Registry

/-!
# The two arms of `overlap_probe`

One call of `overlap_probe`: two arms on the default pool, and the body that joins them.  Each atomic
operation and each block under `wmu` is a step of its own, and the scheduler picks the next one.

* `OverlapVars`        the atomics and the witness of a call, with `recordWorker` and `append`;
* `armStep`            an arm: enter, `bump_max`, compute flat or chunk by chunk, leave;
* `OverlapWitness.finalized`   the witness after the join, with its classification;
* `Overlap.step`       one step of an arm or of the body; the worker of an arm, the failures of the weak
                       exchange and the size of the pool are labels.
-/

namespace RayX
open Sys

def overlapArms : Nat := 2
def overlapWorkerIdSetCap : Nat := 4
def overlapChunkEventsCap : Nat := 8

/-! ## shared variables -/

inductive TracePhase where
  | enter
  | chunk
  | leave
  deriving DecidableEq, Repr

def TracePhase.name : TracePhase → String
  | .enter => "enter"
  | .chunk => "chunk"
  | .leave => "leave"

structure OverlapEvent where
  armId : Nat
  phase : TracePhase
  seq : Nat
  workerId : Int
  deriving DecidableEq, Repr

inductive OverlapClass where
  | serial
  | cooperativeInterleaving
  | workerParallel
  | inconclusive
  deriving DecidableEq, Repr

def OverlapClass.name : OverlapClass → String
  | .serial => "serial"
  | .cooperativeInterleaving => "cooperative_interleaving"
  | .workerParallel => "worker_parallel"
  | .inconclusive => "inconclusive"

/-- an array of the source is a function of the arm -/
structure OverlapWitness where
  mode : Int64 := 0
  observedOsWorkers : Nat := 0
  armsLaunched : Nat := 0
  armsCompleted : Nat := 0
  maxInFlight : Int := 0
  bothInFlight : Bool := false
  perArmEnterSeq : Nat → Int := fun _ => -1
  perArmLeaveSeq : Nat → Int := fun _ => -1
  perArmChunkEventCount : Nat → Nat := fun _ => 0
  perArmWorkerIds : Nat → List Int := fun _ => []
  perArmWorkerIdsOverflowed : Nat → Bool := fun _ => false
  orderingViolations : Nat := 0
  cleanExit : Bool := false
  classification : OverlapClass := .inconclusive
  eventCount : Nat := 0
  eventTraceOverflowed : Bool := false
  events : List OverlapEvent := []

namespace OverlapWitness

/-- the most events the trace has room for -/
def eventsCap : Nat := overlapArms * (2 + overlapChunkEventsCap)

/-- a sample that is there is not added again -/
def recordWorker (w : OverlapWitness) (arm : Nat) (wid : Int) : OverlapWitness :=
  let ids := w.perArmWorkerIds arm
  if wid ∈ ids then w
  else if ids.length < overlapWorkerIdSetCap then
    { w with perArmWorkerIds := Function.update w.perArmWorkerIds arm (ids ++ [wid]) }
  else { w with
    perArmWorkerIdsOverflowed := Function.update w.perArmWorkerIdsOverflowed arm true }

/-- the part of `push_event` under `wmu` -/
def append (w : OverlapWitness) (e : OverlapEvent) : OverlapWitness :=
  if w.events.length < eventsCap then { w with events := w.events ++ [e] }
  else { w with eventTraceOverflowed := true }

end OverlapWitness

structure OverlapVars where
  inFlight : Int := 0
  maxInFlight : Int := 0
  armsCompleted : Nat := 0
  eventSeq : Nat := 0
  orderingViolations : Nat := 0
  w : OverlapWitness := {}

/-! ## arms -/

/-- a call of `push_event`, with what the arm carries through it -/
inductive Site where
  | enter
  /-- before chunk `k`, with the sum so far -/
  | chunk (k : Nat) (acc : UInt64)
  | leave (v : Int64)
  deriving DecidableEq

def Site.phase : Site → TracePhase
  | .enter => .enter
  | .chunk _ _ => .chunk
  | .leave _ => .leave

/-- where an arm is; the names say what it does next -/
inductive ArmPc where
  | queued
  | stamps (c : Site) (wid : Int)
  | pushes (c : Site) (wid : Int) (s : Nat)
  | notes (c : Site) (s : Nat)
  | flies
  | bumps (v : Int)
  | swaps (v cur : Int)
  | computes
  | loops (k : Nat) (acc : UInt64)
  | adds (k : Nat) (acc : UInt64)
  | lands (v : Int64)
  | samples (v : Int64)
  | completes (v : Int64)
  | returned (v : Int64)
  deriving DecidableEq

section
variable (mode quantum : Int64)

/-- `n_chunks` -/
def nChunks : Nat := (busySumCheckpoints quantum).toNat

/-- the block after `push_event` that writes down its number -/
def noted (j : Nat) (s : Nat) (g : OverlapVars) : Site → OverlapVars × ArmPc
  | .enter =>
    ({ g with
        orderingViolations := g.orderingViolations + if g.w.perArmEnterSeq j ≠ -1 then 1 else 0,
        w := { g.w with perArmEnterSeq := Function.update g.w.perArmEnterSeq j s } }, .flies)
  -- the yield that follows leaves the next step to any arm, as every step does
  | .chunk k acc =>
    let count := Function.update g.w.perArmChunkEventCount j (g.w.perArmChunkEventCount j + 1)
    ({ g with w := { g.w with perArmChunkEventCount := count } }, .adds k acc)
  | .leave v =>
    ({ g with
        orderingViolations := g.orderingViolations + if g.w.perArmLeaveSeq j ≠ -1 then 1 else 0,
        w := { g.w with perArmLeaveSeq := Function.update g.w.perArmLeaveSeq j s } }, .completes v)

/-- the next step of arm `j` on the input `x`; `wid` is the worker it runs on, `weak` is a failure of
the weak exchange for no reason -/
def armStep (j : Nat) (x : Int64) (wid : Int) (weak : Bool) (g : OverlapVars) :
    ArmPc → Option (OverlapVars × ArmPc)
  | .queued => some ({ g with w := g.w.recordWorker j wid }, .stamps .enter wid)
  -- `event_seq.fetch_add` comes before the lock
  | .stamps c wid => some ({ g with eventSeq := g.eventSeq + 1 }, .pushes c wid g.eventSeq)
  | .pushes c wid s => some ({ g with w := g.w.append ⟨j, c.phase, s, wid⟩ }, .notes c s)
  | .notes c s => some (noted j s g c)
  | .flies => some ({ g with inFlight := g.inFlight + 1 }, .bumps (g.inFlight + 1))
  | .bumps v => some (g, .swaps v g.maxInFlight)
  | .swaps v cur =>
    if cur < v then
      if g.maxInFlight = cur ∧ weak = false then some ({ g with maxInFlight := v }, .computes)
      else some (g, .swaps v g.maxInFlight)
    else some (g, .computes)
  | .computes => some (g, if mode = 0 then .lands (chainStage x quantum) else .loops 0 0)
  | .loops k acc =>
    if k < nChunks quantum then
      if 0 < k then some ({ g with w := g.w.recordWorker j wid }, .stamps (.chunk k acc) wid)
      else some (g, .adds k acc)
    else some (g, .lands ((x.toUInt64 + acc) &&& busySumMask).toInt64)
  | .adds k acc => some (g, .loops (k + 1) (maskedChunk quantum k acc))
  | .lands v => some ({ g with inFlight := g.inFlight - 1 }, .samples v)
  | .samples v => some ({ g with w := g.w.recordWorker j wid }, .stamps (.leave v) wid)
  | .completes v => some ({ g with armsCompleted := g.armsCompleted + 1 }, .returned v)
  | .returned _ => none

end

/-! ## the body -/

namespace OverlapWitness

/-- both arms entered and left, in that order -/
def clean (w : OverlapWitness) : Bool :=
  decide (w.armsCompleted = overlapArms) && (List.range overlapArms).all fun j =>
    !(decide (w.perArmEnterSeq j < 0) || decide (w.perArmLeaveSeq j < 0)
      || decide (w.perArmLeaveSeq j ≤ w.perArmEnterSeq j))

/-- the worker ids of all arms -/
def workers (w : OverlapWitness) : List Int :=
  (List.range overlapArms).flatMap w.perArmWorkerIds

def classify (w : OverlapWitness) : OverlapClass :=
  if w.maxInFlight < 2 then .serial
  else
    let overflowed := (List.range overlapArms).any w.perArmWorkerIdsOverflowed
    let unknown := (List.range overlapArms).any fun j =>
      (w.perArmWorkerIds j).isEmpty || (w.perArmWorkerIds j).any fun x => decide (x < 0)
    if unknown || overflowed then .inconclusive
    else if w.workers.dedup.length = 1 then .cooperativeInterleaving
    else .workerParallel

/-- the witness once both arms have joined -/
def finalized (g : OverlapVars) (osWorkers : Nat) : OverlapWitness :=
  let w := { g.w with
    observedOsWorkers := osWorkers, armsCompleted := g.armsCompleted, maxInFlight := g.maxInFlight,
    bothInFlight := decide (2 ≤ g.maxInFlight), orderingViolations := g.orderingViolations,
    eventCount := g.w.events.length }
  { w with cleanExit := w.clean, classification := w.classify }

end OverlapWitness

inductive OverlapPc where
  | launch (j : Nat)
  | waits
  | records
  | finished
  deriving DecidableEq

/-- the arms launched so far -/
def OverlapPc.launched : OverlapPc → Nat
  | .launch j => j
  | _ => overlapArms

structure Overlap where
  vars : OverlapVars
  arm : Nat → ArmPc
  main : OverlapPc
  result : Int64
  witness : Option OverlapWitness

namespace Overlap

def init (mode : Int64) : Overlap :=
  { vars := { w := { mode := mode, armsLaunched := overlapArms } }, arm := fun _ => .queued,
    main := .launch 0, result := 0, witness := none }

/-- the content of the future of an arm -/
def future (s : Overlap) (j : Nat) : Option Int64 :=
  match s.arm j with
  | .returned v => some v
  | _ => none

/-- the futures of all arms are ready -/
def joined (s : Overlap) : Bool := (List.range overlapArms).all fun j => (s.future j).isSome

/-- the next step of the body -/
def mainStep (osWorkers : Nat) (s : Overlap) : Option Overlap :=
  match s.main with
  | .launch j => some { s with main := if j < overlapArms then .launch (j + 1) else .waits }
  | .waits =>
    if s.joined then
      let leaf0 := (s.future 0).getD 0
      let leaf1 := (s.future 1).getD 0
      some { s with
        result := ((leaf0.toUInt64 + leaf1.toUInt64) &&& busySumMask).toInt64, main := .records }
    else none
  -- no other thread is left: the witness is finalized in one step
  | .records => some { s with
      witness := some (OverlapWitness.finalized s.vars osWorkers), main := .finished }
  | .finished => none

inductive Act where
  | arm (j : Nat) (wid : Int) (weak : Bool)
  | main (osWorkers : Nat)
  deriving DecidableEq

/-- the input of an arm -/
def input (seed : Int64) : Nat → Int64
  | 0 => seed
  | j + 1 => seedAt seed (j + 1)

def step (seed quantum mode : Int64) (s : Overlap) : Act → Option Overlap
  | .arm j wid weak =>
    if j < s.main.launched then
      (armStep mode quantum j (input seed j) wid weak s.vars (s.arm j)).map fun r =>
        { s with vars := r.1, arm := Function.update s.arm j r.2 }
    else none
  | .main osWorkers => mainStep osWorkers s

end Overlap

end RayX
