import Mathlib.Data.String.Basic
import RayX.Lib.Collect
import RayX.Lib.Json

/-!
# The verification of the waiter fix

The analyzer of `verify_waiter_fix.py`: a class for each call from its timestamps, one for each cell from
its calls, one for each run from its cells, and the verdict from the control run and the master runs.

* `classifyExp64Call`   from the timestamps of one call;
* `classifyExp64Cell`   one artifact: a claim cell has the class its calls agree on, a control cell its
                        `overall_pass`;
* `evaluateExp64Run`    the artifacts of one job, with the class of the run and whether it passed;
* `finalVerdict`        the control run and the master runs; `verdict` runs all four levels.
-/

namespace RayX
namespace WaiterFix
open Sys

/-! ## vocabulary -/

inductive WaitClass where
  | waiterResumeAtTimeout
  | waiterResumedOnReady
  | controlNotReproduced
  | invalidInstrumentation
  | mixedResult
  | unresolved
  /-- a control cell has no class -/
  | naControlMode
  deriving DecidableEq, Repr

def WaitClass.name : WaitClass → String
  | .waiterResumeAtTimeout => "waiter_resume_at_timeout"
  | .waiterResumedOnReady => "waiter_resumed_on_ready"
  | .controlNotReproduced => "control_not_reproduced"
  | .invalidInstrumentation => "invalid_instrumentation"
  | .mixedResult => "mixed_result"
  | .unresolved => "unresolved"
  | .naControlMode => "n/a_control_mode"

def vocabulary : List WaitClass :=
  [.waiterResumeAtTimeout, .waiterResumedOnReady, .controlNotReproduced, .invalidInstrumentation,
    .mixedResult, .unresolved]

def claimModes : List String := ["when_all_then_reduce", "dataflow_reduce"]
def controlModes : List String := ["root_flat_gather_poll", "when_all_then_reduce_yield"]

def nativeDeadlineMarginFraction : Float := 0.5
def nativePromptnessThresholdS : Float := 0.01

/-- `sorted({…})` of classes -/
def classSet : List WaitClass → List WaitClass := sortedSet fun a b => a.name ≤ b.name

/-! ## calls -/

/-- a call of an artifact; a number that is missing or null is `none`, and so is a missing status -/
structure Exp64Call where
  tDispatchStartNs : Option Int
  tContinuationEnteredNs : Option Int
  tContinuationCompletedNs : Option Int
  tWaiterEnteredNs : Option Int
  tWaitReturnedNs : Option Int
  rttNs : Option Int
  waitForStatus : Option String

structure CallClass where
  classification : WaitClass
  instrumentationOk : Bool
  waiterSuspendedBeforeReady : Bool
  continuationCompleted : Bool
  returnedAfterReadiness : Bool
  separatedFromTimeout : Bool
  waitForStatus : String
  rttSObservational : Float
  continuationDelaySObservational : Option Float
  waitReturnAfterContinuationSObservational : Option Float
  deferredFloorS : Float
  promptFloorSObservational : Float

/-- `n / 1e9`; an `int` whose nearest `float` is infinite does not convert -/
def seconds (n : Int) : Except String Float :=
  if n.natAbs < 2 ^ 1024 - 2 ^ 970 then .ok (Float.ofInt n / 1e9)
  else .error "int too large to convert to float"

/-- `seconds` of a difference of two timestamps, where they are there -/
def secondsIf (there : Bool) (n : Int) : Except String (Option Float) :=
  if there then (seconds n).map some else .ok none

def classifyExp64Call (call : Exp64Call) (dispatchTimeoutS : Float) : Except String CallClass := do
  let ds := call.tDispatchStartNs.getD 0
  let ce := call.tContinuationEnteredNs.getD 0
  let cc := call.tContinuationCompletedNs.getD 0
  let we := call.tWaiterEnteredNs.getD 0
  let wr := call.tWaitReturnedNs.getD 0
  let rttS ← seconds (call.rttNs.getD 0)
  let status := call.waitForStatus.getD "unknown"
  let deferredFloorS := nativeDeadlineMarginFraction * dispatchTimeoutS
  let seq := [ds, ce, cc, wr].filter fun t => decide (0 < t)
  let monotonic := decide (seq = seq.insertionSort (· ≤ ·))
  let instrumentationOk := decide (0 < ds ∧ 0 < wr ∧ 0 < we ∧ ds ≤ we ∧ we ≤ wr) && monotonic
  let continuationDelayS ← secondsIf (decide (0 < ce ∧ 0 < ds)) (ce - ds)
  let waitReturnAfterContinuationS ← secondsIf (decide (0 < cc ∧ 0 < wr)) (wr - cc)
  let waiterSuspendedBeforeReady := decide (0 < we ∧ 0 < cc ∧ we < cc)
  let continuationCompleted := decide (0 < ce ∧ 0 < cc ∧ ce ≤ cc)
  let separatedFromTimeout := decide (rttS < deferredFloorS)
  let returnedAfterReadiness := decide (0 < cc ∧ 0 < wr ∧ cc ≤ wr)
  -- the reduce ran early, the caller woke at the bound
  let deferred := continuationDelayS.any (fun d => decide (d < nativePromptnessThresholdS)) &&
    waitReturnAfterContinuationS.any fun w => decide (deferredFloorS ≤ w)
  let cls :=
    if !instrumentationOk || !continuationCompleted then WaitClass.invalidInstrumentation
    else if !waiterSuspendedBeforeReady then .unresolved
    else if deferred then .waiterResumeAtTimeout
    else if status == "ready" && returnedAfterReadiness && separatedFromTimeout then
      .waiterResumedOnReady
    else .unresolved
  return ⟨cls, instrumentationOk, waiterSuspendedBeforeReady, continuationCompleted,
    returnedAfterReadiness, separatedFromTimeout, status, rttS, continuationDelayS,
    waitReturnAfterContinuationS, deferredFloorS, nativePromptnessThresholdS⟩

/-! ## cells -/

structure BuildProvenance where
  hpxVersionFull : Option String
  hpxCompleteVersion : Option String

/-- an artifact, one mode at one size; a missing key is `none`, and the values that are only passed on
keep their JSON form -/
structure Exp64Artifact where
  readinessComposition : Option String
  payloadBytes : Option JsonVal
  slurmJobId : Option String
  artifactTag : Option JsonVal
  dispatchTimeoutS : Option Float
  calls : Option (List Exp64Call)
  overallPass : Option Bool
  hpxBuildProvenance : Option BuildProvenance
  progressDeferredToTimeoutSignature : Option JsonVal

namespace Exp64Artifact

def isClaimMode (a : Exp64Artifact) : Bool := a.readinessComposition.any fun m => claimModes.contains m

def timeoutS (a : Exp64Artifact) : Float := a.dispatchTimeoutS.getD 8.0

def callList (a : Exp64Artifact) : List Exp64Call := a.calls.getD []

end Exp64Artifact

/-- `_identity_string`: the complete version, the bare one where it is not recorded -/
def identityString (p : BuildProvenance) : String :=
  let complete := p.hpxCompleteVersion.getD "not_recorded"
  if complete ≠ "" ∧ complete ≠ "not_recorded" then complete
  else p.hpxVersionFull.getD "not_recorded"

/-- what is recorded of a claim cell only -/
structure ClaimDetail where
  perCallClasses : List WaitClass
  allInstrumentationOk : Bool
  allWaiterSuspendedBeforeReady : Bool
  allContinuationCompleted : Bool
  maxRttSObservational : Option Float
  minRttSObservational : Option Float
  perCallDetail : List CallClass
  runnerProgressSignature : Option JsonVal

structure Exp64Cell where
  mode : Option String
  payloadBytes : Option JsonVal
  slurmJobId : Option String
  artifactTag : Option JsonVal
  dispatchTimeoutS : Float
  nCalls : Nat
  hpxVersionFull : String
  hpxIdentity : String
  isClaimMode : Bool
  classification : WaitClass
  controlOverallPass : Option Bool
  claim : Option ClaimDetail

/-- `max(…, default=None)` for the order `lt`: the first of the largest -/
def firstBest (lt : Float → Float → Bool) : List Float → Option Float
  | [] => none
  | x :: xs => some (xs.foldl (fun m y => if lt m y then y else m) x)

/-- the class of a claim cell -/
def cellClass (perCall : List CallClass) : WaitClass :=
  match perCall, classSet (perCall.map CallClass.classification) with
  | [], _ => .invalidInstrumentation
  | _, [cls] => cls
  | _, _ => .mixedResult

/-- `bool(per_call) and all(…)` -/
def allCalls (p : CallClass → Bool) (perCall : List CallClass) : Bool := !perCall.isEmpty && perCall.all p

def claimDetail (a : Exp64Artifact) (perCall : List CallClass) : ClaimDetail :=
  { perCallClasses := perCall.map CallClass.classification,
    allInstrumentationOk := allCalls CallClass.instrumentationOk perCall,
    allWaiterSuspendedBeforeReady := allCalls CallClass.waiterSuspendedBeforeReady perCall,
    allContinuationCompleted := allCalls CallClass.continuationCompleted perCall,
    maxRttSObservational :=
      firstBest (fun m y => decide (m < y)) (perCall.map CallClass.rttSObservational),
    minRttSObservational :=
      firstBest (fun m y => decide (y < m)) (perCall.map CallClass.rttSObservational),
    perCallDetail := perCall,
    runnerProgressSignature := a.progressDeferredToTimeoutSignature }

def classifyExp64Cell (a : Exp64Artifact) : Except String Exp64Cell :=
  let provenance := a.hpxBuildProvenance.getD ⟨none, none⟩
  let out : Exp64Cell :=
    { mode := a.readinessComposition, payloadBytes := a.payloadBytes, slurmJobId := a.slurmJobId,
      artifactTag := a.artifactTag, dispatchTimeoutS := a.timeoutS, nCalls := a.callList.length,
      hpxVersionFull := provenance.hpxVersionFull.getD "not_recorded",
      hpxIdentity := identityString provenance, isClaimMode := a.isClaimMode,
      classification := .naControlMode, controlOverallPass := none, claim := none }
  if !a.isClaimMode then .ok { out with controlOverallPass := some (a.overallPass.getD false) }
  else do
    let perCall ← a.callList.mapM fun c => classifyExp64Call c a.timeoutS
    return { out with classification := cellClass perCall, claim := some (claimDetail a perCall) }

/-! ## runs -/

inductive Expectation where
  | controlV111
  | masterFix
  deriving DecidableEq, Repr

structure RunEval where
  expectation : Expectation
  runClassification : WaitClass
  passed : Bool
  controlsValid : Bool
  bothClaimModesPresent : Bool
  slurmJobIds : List String
  hpxVersionsObserved : List String
  cells : List Exp64Cell

def claimCells (cells : List Exp64Cell) : List Exp64Cell := cells.filter fun c => c.isClaimMode
def controlCells (cells : List Exp64Cell) : List Exp64Cell := cells.filter fun c => !c.isClaimMode

/-- `bool(control_cells) and all(…)` -/
def controlsValid (cells : List Exp64Cell) : Bool :=
  !(controlCells cells).isEmpty && (controlCells cells).all fun c => c.controlOverallPass.getD false

/-- the modes of the claim cells, which have one -/
def bothClaimModesPresent (cells : List Exp64Cell) : Bool :=
  decide (sortedSet (· ≤ ·) ((claimCells cells).filterMap Exp64Cell.mode) = sortedSet (· ≤ ·) claimModes)

def runClass (cells : List Exp64Cell) : WaitClass :=
  if (claimCells cells).isEmpty || !bothClaimModesPresent cells then .invalidInstrumentation
  else
    match classSet ((claimCells cells).map Exp64Cell.classification) with
    | [cls] => cls
    -- never empty here
    | _ => .mixedResult

/-- what the cells of a run are to show -/
def Expectation.wanted : Expectation → WaitClass
  | .controlV111 => .waiterResumeAtTimeout
  | .masterFix => .waiterResumedOnReady

def evaluateCells (expectation : Expectation) (cells : List Exp64Cell) : RunEval :=
  let cls := runClass cells
  let passed := decide (cls = expectation.wanted) && controlsValid cells
  { expectation := expectation,
    runClassification :=
      match expectation with
      | .controlV111 =>
        if !passed && !([.mixedResult, .invalidInstrumentation] : List WaitClass).contains cls then
          .controlNotReproduced
        else cls
      | .masterFix => cls,
    passed := passed,
    controlsValid := controlsValid cells,
    bothClaimModesPresent := bothClaimModesPresent cells,
    slurmJobIds := sortedSet (· ≤ ·) (cells.map fun c => c.slurmJobId.getD "None"),
    hpxVersionsObserved := sortedSet (· ≤ ·) (cells.map Exp64Cell.hpxIdentity),
    cells := cells }

def evaluateExp64Run (artifacts : List Exp64Artifact) (expectation : Expectation) :
    Except String RunEval :=
  (artifacts.mapM classifyExp64Cell).map (evaluateCells expectation)

/-! ## the verdict -/

def finalVerdict (controlEval : RunEval) (masterEvals : List RunEval) : WaitClass :=
  if !controlEval.passed then .controlNotReproduced
  else
    let classes := classSet (masterEvals.map RunEval.runClassification)
    if masterEvals.isEmpty then .unresolved
    else if masterEvals.any fun m => decide (m.runClassification = .invalidInstrumentation) then
      .invalidInstrumentation
    else if 1 < classes.length then .mixedResult
    else if masterEvals.all fun m => m.passed then .waiterResumedOnReady
    else
      match classes with
      | cls :: _ => if cls ∈ vocabulary then cls else .unresolved
      | [] => .unresolved

/-- `final_verdict` of the evaluations, as `build_aggregate` calls it -/
def verdict (control : List Exp64Artifact) (masters : List (List Exp64Artifact)) :
    Except String WaitClass := do
  let controlEval ← evaluateExp64Run control .controlV111
  let masterEvals ← masters.mapM fun m => evaluateExp64Run m .masterFix
  return finalVerdict controlEval masterEvals

end WaiterFix
end RayX
