import RayX.Lib.Run
import RayX.Lib.Deadman
import Mathlib.Order.Lattice

/-!
# Demand-triggered admission

Experiment 65: a root locality starts alone, a controller launches one connector after its demand event,
and the three meet through files.  The root admits the locality that is new in its membership, sends it
one action, and is done; the connector leaves at the root's completion, or when `root.alive` is silent.

* `distProbe`, `localOracleCall`, `RemoteDispatch`   the registered action, and what is made of its result;
* `Root`, `rootGo`           `run_root`, one step at a time;
* `Connector`, `connGo`      `run_connector`;
* `Controller`, `ctlGo`      `run_demand_rep` and `run_no_demand_rep`;
* `World`, `step`            the three with the membership, the action under way and the clock;
* `localOracleCall_ok`, `RemoteDispatch.finish_own`   what the oracles say of an action that was run where
                             it was sent.
-/

namespace RayX
namespace Demand
open Sys

/-! ## the registered action -/

/-- `DIST_PROBE_XOR` -/
def distProbeXor : Int64 := 0x52415958

/-- `dist_probe` on the locality `loc` -/
def distProbe (x : Int64) (loc : UInt32) : Int64 := (x ^^^ distProbeXor) + (loc.toUInt64.toInt64 <<< 1)

/-- the locality that a result names -/
def executedOn (x result : Int64) : UInt32 := ((result - (x ^^^ distProbeXor)) >>> 1).toUInt64.toUInt32

structure LocalCall where
  ok : Bool := false
  result : Int64 := 0
  oracle : Int64 := 0
  executedOn : UInt32 := 0

/-- `threw`: the call threw instead of running -/
def localOracleCall (x : Int64) (here : UInt32) (threw : Bool) : LocalCall :=
  if threw then {}
  else
    let result := distProbe x here
    let oracle := distProbe x here
    let loc := executedOn x result
    { ok := result == oracle && loc == here, result := result, oracle := oracle, executedOn := loc }

inductive DispatchStatus where
  | notAttempted | returned | timedOut | threw
  deriving DecidableEq

structure RemoteDispatch where
  status : DispatchStatus := .notAttempted
  matched : Bool := false
  provedRemote : Bool := false
  detectedBeforeBound : Bool := false
  waitSlices : Nat := 0
  result : Int64 := 0
  oracle : Int64 := 0
  executedOn : UInt32 := 0
  remoteId : UInt32 := 0

/-- the future is ready with `result` -/
def RemoteDispatch.finish (d : RemoteDispatch) (x result : Int64) (here : UInt32) : RemoteDispatch :=
  let oracle := distProbe x d.remoteId
  let loc := Demand.executedOn x result
  { d with
    status := .returned
    result := result
    oracle := oracle
    matched := result == oracle
    executedOn := loc
    provedRemote := result == oracle && loc == d.remoteId && loc != here }

/-! ## the configuration and the answers -/

inductive RootArm where
  | demand | noDemand
  deriving DecidableEq

/-- times are in nanoseconds; `waitTimeout` is the `--admit-timeout` or the `--finish-timeout` of the arm,
`dispatchBound` is in seconds -/
structure Config where
  arm : RootArm
  x : Int64
  localK : Nat
  waitTimeout : Nat
  leaveTimeout : Nat
  dispatchBound : Nat
  tick : Nat
  serveTimeout : Nat
  dwell : Nat
  mtime : Mtime

def msec : Nat := 1000000

/-- `wall_ms()` -/
def wall (now : Nat) : Nat := now / msec

/-- the root is the locality 0 -/
def here : UInt32 := 0

inductive WaitOutcome where
  | timeout | ready
  /-- `late`: the future was ready, and its `get()` threw -/
  | threw (late : Bool)

/-- what the environment answers at a step, of which a step reads its own part -/
structure Answer where
  threw : Bool := false
  wait : WaitOutcome := .timeout
  id : UInt32 := 1
  rc : Int := 0
  seen : Bool := true
  orphans : Option (List String) := some []

/-- how a process ended -/
inductive Exit where
  | self (rc : Int)
  | killed
  deriving DecidableEq

/-! ## the root -/

/-- the local variables of `run_root` are in `Root`; a `for` and the two `while` have their own places -/
inductive RootPc where
  | boot | locals (i : Nat) | baseline | phase
  | head | beat | live | look | finish | sleep (till : Nat)
  | record | preDispatch | dispatch | slices (i : Nat) | serve | sentinel
  | leaveHead | leaveLook | leaveSleep (till : Nat) | leaveWrite
  | final | result | finalize
  deriving DecidableEq

structure ReadyFile where
  wall : Nat
  ids : List UInt32

structure LocalFile where
  wall : Nat
  okCount : Nat
  allOk : Bool
  ids : List UInt32

structure AdmissionFile where
  wall : Nat
  baseline : List UInt32
  newId : UInt32
  livenessOk : Nat
  firstLiveness : Nat
  lastLiveness : Nat

structure LeaveFile where
  observed : Bool
  countAfter : Nat

structure ResultFile where
  livenessOk : Nat
  maxEver : Nat
  admitted : Bool
  finishSeen : Bool
  remoteBeforeAdmission : Bool

/-- the files of the root; `beats` are the times at which it wrote `root.alive` -/
structure RootFiles where
  ready : Option ReadyFile := none
  localPhase : Option LocalFile := none
  beats : List Nat := []
  admission : Option AdmissionFile := none
  served : Option RemoteDispatch := none
  rootDone : Bool := false
  leave : Option LeaveFile := none
  finalLocal : Option Bool := none
  result : Option ResultFile := none

/-- `parcel`: the locality to which the action was sent -/
structure Root where
  pc : RootPc := .boot
  exit : Option Exit := none
  files : RootFiles := {}
  idsStart : List UInt32 := []
  localOk : Nat := 0
  idsBaseline : List UInt32 := []
  deadline : Nat := 0
  admitted : Bool := false
  finishSeen : Bool := false
  newId : UInt32 := 0
  livenessOk : Nat := 0
  heartbeatCount : Nat := 0
  firstLiveness : Nat := 0
  lastLiveness : Nat := 0
  maxEver : Nat := 0
  parcel : Option UInt32 := none
  disp : RemoteDispatch := {}
  leaveDeadline : Nat := 0
  leaveObserved : Bool := false
  afterLeave : Nat := 0

/-- what a step of the root reads: the clock, the membership, the controller's `no_demand.finish` and the
result of the action that was sent -/
structure RootView where
  now : Nat
  members : List UInt32
  finishFile : Bool
  reply : Option Int64

/-- `x + n` -/
def Config.arg (cfg : Config) (n : Nat) : Int64 := cfg.x + Int64.ofNat n

/-- `run_root` -/
def rootGo (cfg : Config) (v : RootView) (r : Root) (a : Answer) : Option Root :=
  match r.pc with
  | .boot => some { r with
      files := { r.files with ready := some ⟨wall v.now, v.members⟩ }
      idsStart := v.members
      pc := .locals 0 }
  | .locals i =>
    if i < cfg.localK then
      let c := localOracleCall (cfg.arg i) here a.threw
      some { r with localOk := if c.ok then r.localOk + 1 else r.localOk, pc := .locals (i + 1) }
    else some { r with pc := .baseline }
  | .baseline => some { r with idsBaseline := v.members, pc := .phase }
  | .phase => some { r with
      files := { r.files with
        localPhase := some ⟨wall v.now, r.localOk, r.localOk == cfg.localK, r.idsBaseline⟩ }
      maxEver := max r.idsStart.length r.idsBaseline.length
      deadline := v.now + cfg.waitTimeout
      pc := .head }
  | .head => if v.now < r.deadline then some { r with pc := .beat } else some { r with pc := .final }
  | .beat => some { r with
      heartbeatCount := r.heartbeatCount + 1
      files := { r.files with beats := v.now :: r.files.beats }
      pc := .live }
  | .live =>
    let c := localOracleCall (cfg.arg (1000 + r.heartbeatCount)) here a.threw
    if c.ok then some { r with
      livenessOk := r.livenessOk + 1
      lastLiveness := wall v.now
      firstLiveness := if r.firstLiveness = 0 then wall v.now else r.firstLiveness
      pc := .look }
    else some { r with pc := .look }
  | .look =>
    let r := { r with maxEver := max r.maxEver v.members.length }
    match cfg.arm with
    | .demand =>
      match v.members.find? fun l => !r.idsBaseline.contains l with
      | some l => some { r with admitted := true, newId := l, pc := .record }
      | none => some { r with pc := .sleep (v.now + cfg.tick) }
    | .noDemand => some { r with pc := .finish }
  | .finish =>
    if v.finishFile then some { r with finishSeen := true, pc := .final }
    else some { r with pc := .sleep (v.now + cfg.tick) }
  | .sleep till => if till ≤ v.now then some { r with pc := .head } else none
  | .record => some { r with
      files := { r.files with
        admission := some ⟨wall v.now, r.idsBaseline, r.newId, r.livenessOk, r.firstLiveness,
          r.lastLiveness⟩ }
      pc := .preDispatch }
  | .preDispatch => some { r with
      files := { r.files with beats := v.now :: r.files.beats }
      pc := .dispatch }
  | .dispatch =>
    if a.threw then some { r with disp := { remoteId := r.newId, status := .threw }, pc := .serve }
    else some { r with disp := { remoteId := r.newId }, parcel := some r.newId, pc := .slices 0 }
  | .slices i =>
    if i < cfg.dispatchBound * 10 then
      let d := { r.disp with waitSlices := i + 1 }
      match a.wait with
      | .timeout => some { r with disp := d, pc := .slices (i + 1) }
      | .ready =>
        -- `get()` only of a future that is ready
        v.reply.map fun result =>
          let d := { d with detectedBeforeBound := decide (i + 1 < cfg.dispatchBound * 10) }
          { r with disp := d.finish (cfg.arg 42) result here, pc := .serve }
      | .threw late =>
        let d := { d with detectedBeforeBound := late && decide (i + 1 < cfg.dispatchBound * 10) }
        some { r with disp := { d with status := .threw }, pc := .serve }
    else some { r with disp := { r.disp with status := .timedOut }, pc := .serve }
  | .serve => some { r with files := { r.files with served := some r.disp }, pc := .sentinel }
  | .sentinel => some { r with
      files := { r.files with rootDone := true }
      leaveDeadline := v.now + cfg.leaveTimeout
      pc := .leaveHead }
  | .leaveHead =>
    if v.now < r.leaveDeadline then some { r with pc := .leaveLook }
    else some { r with pc := .leaveWrite }
  | .leaveLook =>
    if v.members.contains r.newId then some { r with pc := .leaveSleep (v.now + 100 * msec) }
    else some { r with leaveObserved := true, afterLeave := v.members.length, pc := .leaveWrite }
  | .leaveSleep till => if till ≤ v.now then some { r with pc := .leaveHead } else none
  | .leaveWrite => some { r with
      files := { r.files with leave := some ⟨r.leaveObserved, r.afterLeave⟩ }
      pc := .final }
  | .final => some { r with
      files := { r.files with
        finalLocal := some (localOracleCall (cfg.arg 9000) here a.threw).ok }
      pc := .result }
  | .result => some { r with
      files := { r.files with
        result := some ⟨r.livenessOk, r.maxEver, r.admitted, r.finishSeen, false⟩ }
      pc := .finalize }
  | .finalize => some { r with exit := some (.self a.rc) }

/-! ## the connector -/

inductive ConnPc where
  | absent | born | starting | failed | started | arming | armed
  | pollDone | pollAlive | restart | check | sleep (till : Nat)
  | leaving | stopping | stopped | quitting
  deriving DecidableEq

inductive Reason where
  | unknown | rootCompletionSignal | serveTimeoutExpired | error
  deriving DecidableEq

structure DisconnectedFile where
  clean : Bool
  rc : Int
  reason : Reason

/-- the files of the connector; `joined` is `some none` where `hpx::start` has failed -/
structure ConnFiles where
  spawned : Option Nat := none
  joined : Option (Option UInt32) := none
  disconnected : Option DisconnectedFile := none

/-- `id`: the locality that AGAS gave to the process -/
structure Connector where
  pc : ConnPc := .absent
  exit : Option Exit := none
  files : ConnFiles := {}
  id : Option UInt32 := none
  deadman : Deadman := {}
  reason : Reason := .unknown
  clean : Bool := true
  rc : Int := 0

/-- what a step of the connector reads: the clock, `root.done`, the stamp of `root.alive` and the locality
that is a member besides the root -/
structure ConnView where
  now : Nat
  done : Bool
  stamp : Option Nat
  guest : Option UInt32

/-- `run_connector`, with the member besides the root after it -/
def connGo (cfg : Config) (v : ConnView) (c : Connector) (a : Answer) :
    Option (Connector × Option UInt32) :=
  match c.pc with
  | .absent => none
  | .born => some ({ c with
      files := { c.files with spawned := some (wall v.now) }
      pc := .starting }, v.guest)
  | .starting =>
    if a.threw then some ({ c with pc := .failed }, v.guest)
    else if a.id = here then none
    else some ({ c with id := some a.id, pc := .started }, some a.id)
  | .failed => some ({ c with
      files := { c.files with joined := some none }
      exit := some (.self 2) }, v.guest)
  | .started => some ({ c with
      files := { c.files with joined := some c.id }
      pc := .arming }, v.guest)
  | .arming => some ({ c with deadman := c.deadman.arm v.stamp v.now, pc := .armed }, v.guest)
  | .armed => some ({ c with deadman := c.deadman.restart v.now, pc := .pollDone }, v.guest)
  | .pollDone =>
    if v.done then some ({ c with reason := .rootCompletionSignal, pc := .leaving }, v.guest)
    else some ({ c with pc := .pollAlive }, v.guest)
  | .pollAlive =>
    let d := c.deadman.arm v.stamp v.now
    if v.stamp = c.deadman.last then some ({ c with deadman := d, pc := .check }, v.guest)
    else some ({ c with deadman := d, pc := .restart }, v.guest)
  | .restart => some ({ c with deadman := c.deadman.restart v.now, pc := .check }, v.guest)
  | .check =>
    if c.deadman.expired cfg.serveTimeout v.now then
      some ({ c with reason := .serveTimeoutExpired, pc := .leaving }, v.guest)
    else some ({ c with pc := .sleep (v.now + 100 * msec) }, v.guest)
  | .sleep till => if till ≤ v.now then some ({ c with pc := .pollDone }, v.guest) else none
  | .leaving =>
    if a.threw then some ({ c with clean := false, reason := .error, pc := .stopped }, v.guest)
    else some ({ c with pc := .stopping }, none)
  | .stopping =>
    if a.threw then some ({ c with clean := false, reason := .error, pc := .stopped }, v.guest)
    else some ({ c with rc := a.rc, pc := .stopped }, v.guest)
  | .stopped => some ({ c with
      files := { c.files with disconnected := some ⟨c.clean, c.rc, c.reason⟩ }
      pc := .quitting }, v.guest)
  | .quitting => some ({ c with exit := some (.self (if c.clean then 0 else 1)) }, v.guest)

/-- the runtime of the connector runs, and with it the actions that are sent to it -/
def Connector.up (c : Connector) : Bool :=
  c.exit.isNone && match c.pc with
    | .absent | .born | .starting | .failed | .stopped | .quitting => false
    | _ => true

/-! ## the controller -/

inductive CtlPc where
  | waitReady | waitLocal | dwell | issue | stamp | popen | waitServed | waitConn | waitRoot
  | collect | finished
  deriving DecidableEq

/-- `demand` and `finishFile` are its files; `connRep` and `rootRep` are what `_wait` returned, `.killed`
where the harness has killed the process -/
structure Controller where
  pc : CtlPc := .waitReady
  localDone : Bool := false
  dwellEnd : Nat := 0
  demand : Option Nat := none
  finishFile : Bool := false
  popenWall : Option Nat := none
  connRep : Option Exit := none
  rootRep : Option Exit := none
  orphans : Option (List String) := none

structure World where
  now : Nat
  root : Root := {}
  conn : Connector := {}
  ctl : Controller := {}
  guest : Option UInt32 := none
  reply : Option Int64 := none

/-- `hpx::find_all_localities()` -/
def World.members (s : World) : List UInt32 := here :: s.guest.toList

def World.rootView (s : World) : RootView := ⟨s.now, s.members, s.ctl.finishFile, s.reply⟩

def World.connView (cfg : Config) (s : World) : ConnView :=
  ⟨s.now, s.root.files.rootDone, cfg.mtime.stamp s.root.files.beats, s.guest⟩

/-- `run_demand_rep` and `run_no_demand_rep`; a wait for a file may give up while the file is not there -/
def ctlGo (cfg : Config) (s : World) (a : Answer) : Option World :=
  let c := s.ctl
  match c.pc with
  | .waitReady =>
    if a.seen = s.root.files.ready.isSome then
      if a.seen then some { s with ctl := { c with pc := .waitLocal } }
      else some { s with ctl := { c with dwellEnd := s.now + cfg.dwell, pc := .dwell } }
    else none
  | .waitLocal =>
    if a.seen = s.root.files.localPhase.isSome then
      some { s with ctl := { c with localDone := a.seen, dwellEnd := s.now + cfg.dwell, pc := .dwell } }
    else none
  | .dwell => if c.dwellEnd ≤ s.now then some { s with ctl := { c with pc := .issue } } else none
  | .issue =>
    match cfg.arm with
    | .demand => some { s with ctl := { c with
        demand := some (wall s.now)
        pc := if c.localDone then .stamp else .waitRoot } }
    | .noDemand => some { s with ctl := { c with finishFile := true, pc := .waitRoot } }
  | .stamp => some { s with ctl := { c with popenWall := some (wall s.now), pc := .popen } }
  | .popen => some { s with conn := { s.conn with pc := .born }, ctl := { c with pc := .waitServed } }
  | .waitServed => some { s with ctl := { c with pc := .waitConn } }
  | .waitConn =>
    if a.seen then
      s.conn.exit.map fun e => { s with ctl := { c with connRep := some e, pc := .waitRoot } }
    else some { s with
      conn := { s.conn with exit := s.conn.exit <|> some .killed }
      ctl := { c with connRep := some .killed, pc := .waitRoot } }
  | .waitRoot =>
    if a.seen then
      s.root.exit.map fun e => { s with ctl := { c with rootRep := some e, pc := .collect } }
    else some { s with
      root := { s.root with exit := s.root.exit <|> some .killed }
      ctl := { c with rootRep := some .killed, pc := .collect } }
  | .collect => some { s with ctl := { c with orphans := a.orphans, pc := .finished } }
  | .finished => none

/-! ## the three together -/

inductive Act where
  | tick (d : Nat)
  | root (a : Answer)
  | conn (a : Answer)
  | ctl (a : Answer)
  /-- a process ends before its time -/
  | rootCrash (rc : Int)
  | connCrash (rc : Int)
  /-- the action runs where it was sent -/
  | execute
  /-- AGAS forgets a locality whose process is gone -/
  | drop

def step (cfg : Config) (s : World) : Act → Option World
  | .tick d => some { s with now := s.now + d }
  | .root a =>
    if s.root.exit = none then (rootGo cfg s.rootView s.root a).map fun r => { s with root := r }
    else none
  | .conn a =>
    if s.conn.exit = none then
      (connGo cfg (s.connView cfg) s.conn a).map fun p => { s with conn := p.1, guest := p.2 }
    else none
  | .ctl a => ctlGo cfg s a
  | .rootCrash rc =>
    if s.root.exit = none ∧ rc ≠ 0 then some { s with root := { s.root with exit := some (.self rc) } }
    else none
  | .connCrash rc =>
    if s.conn.pc ≠ .absent ∧ s.conn.exit = none ∧ rc ≠ 0 then
      some { s with conn := { s.conn with exit := some (.self rc) } }
    else none
  | .execute =>
    match s.root.parcel with
    | some g =>
      if s.conn.up = true ∧ s.conn.id = some g ∧ s.reply = none then
        some { s with reply := some (distProbe (cfg.arg 42) g) }
      else none
    | none => none
  | .drop => if s.conn.exit ≠ none then some { s with guest := none } else none

/-- nothing runs yet, and the clock is past its first millisecond -/
def start (t : Nat) : World := { now := msec + t }

/-! ## the oracles -/

/-- shifting left and back loses nothing of 32 bits -/
theorem shift_back (l : BitVec 32) : (((l.setWidth 64) <<< 1).sshiftRight 1).setWidth 32 = l := by
  ext i hi
  simp only [BitVec.getElem_setWidth, BitVec.getLsbD_sshiftRight]
  have hwidth : ¬ 64 ≤ i := by omega
  have hnext : 1 + i < 64 := by omega
  simp [hwidth, hnext, hi]

/-- a result names the locality it was computed on, whatever `x` is -/
@[simp] theorem executedOn_distProbe (x : Int64) (loc : UInt32) :
    executedOn x (distProbe x loc) = loc := by
  unfold executedOn distProbe
  rw [Int64.add_comm, Int64.add_sub_cancel]
  apply UInt32.toBitVec_inj.mp
  simpa using shift_back loc.toBitVec

/-- a local call is right unless it threw -/
@[simp] theorem localOracleCall_ok (x : Int64) (loc : UInt32) (threw : Bool) :
    (localOracleCall x loc threw).ok = !threw := by
  cases threw <;> simp [localOracleCall]

/-- the result of the locality to which the action was sent -/
theorem RemoteDispatch.finish_own (d : RemoteDispatch) (x : Int64) (loc : UInt32) :
    (d.finish x (distProbe x d.remoteId) loc).matched = true ∧
      (d.finish x (distProbe x d.remoteId) loc).executedOn = d.remoteId ∧
      ((d.finish x (distProbe x d.remoteId) loc).provedRemote = true ↔ d.remoteId ≠ loc) := by
  simp [RemoteDispatch.finish]

end Demand
end RayX
