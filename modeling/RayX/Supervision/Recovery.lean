import RayX.Lib.Run

/-!
# A recovery after the loss of a connector

Slice 3b of experiment 70: a root under supervision and two connectors form an island.  The controller
kills one connector, the root waits until the runtime fences it, disconnects it by force and admits a
replacement.  The two meet through the marker files of the root and the controller's roles file.  What HPX
and Ray answer is a part of each step, and any answer may come.

* `probeOracle`, `plainProbe`      the action by which work is verified;
* `Root`, `rootGo`                 `main` of the root, with `finish`;
* `Controller`, `ctlGo`            `live_local_run`;
* `Markers`                        what the controller collects;
* `World`, `step`                  their interleavings, with a root that may be killed at any moment;
* `plainProbe_ok`                  **a probe is right exactly if its target has run it**.
-/

namespace RayX
namespace Recovery
open Sys

/-! ## the probe -/

/-- `kProbeXor` -/
def probeXor : Int64 := 0x5A5A

/-- `probe_oracle`, and `exp70_probe` where it runs on `locality` -/
def probeOracle (x : Int64) (locality : UInt32) : Int64 :=
  (x ^^^ probeXor) + (locality.toUInt64.toInt64 <<< 1)

inductive ProbeStatus where
  | returned | notFound | timedOut | threw
  deriving DecidableEq

structure PlainProbe where
  found : Bool := false
  ok : Bool := false
  result : Int64 := 0
  oracle : Int64 := 0
  status : ProbeStatus := .notFound

/-- what comes of a dispatch; `ran e`: the action ran on the locality `e` -/
inductive Reply where
  | absent | late | threw
  | ran (e : UInt32)

/-- `plain_probe_on_hpx_thread` -/
def plainProbe (target : UInt32) (x : Int64) (reply : Reply) : PlainProbe :=
  let oracle := probeOracle x target
  match reply with
  | .absent => { oracle := oracle }
  | .late => { oracle := oracle, found := true, status := .timedOut }
  | .threw => { oracle := oracle, found := true, status := .threw }
  | .ran e =>
    let result := probeOracle x e
    { oracle := oracle, found := true, result := result, status := .returned, ok := result == oracle }

/-! ## what the supervision reports -/

/-- `hpx::supervision::event`, without the events that nothing here tells apart -/
inductive Event where
  | running | failed | other | queryError
  deriving DecidableEq

/-- `rejected`: `check_admission` gave `rejected_fenced` -/
structure FenceAttempt where
  rejected : Bool
  lastEvent : Event
  seq : Nat

structure Peer where
  locality : UInt32
  joinEpoch : Nat

/-- what HPX and Ray answer at a step, of which a step reads its own part; `late`: the deadline of a loop
has passed, `members'` and `reply'` are of a second call -/
structure Answer where
  ok : Bool := true
  late : Bool := false
  members : Nat := 3
  members' : Nat := 3
  peers : List Peer := []
  reply : Reply := .absent
  reply' : Reply := .absent
  fence : FenceAttempt := ⟨false, .running, 0⟩
  rc : Int := 0
  locality : UInt32 := 0
  ident : Option (Nat × Nat) := none

/-! ## the files -/

/-- `native.roles.json` -/
structure Roles where
  a : UInt32
  b : UInt32
  c : Option UInt32

structure JoinedFile where
  bConnecting : Bool
  bLocality : UInt32

structure WorkFile where
  aOk : Bool
  bOk : Bool
  failedCount : Nat

structure FencingFile where
  classified : Bool
  fenced : Bool
  specific : Bool
  failedCount : Nat

structure DisconnectFile where
  target : UInt32
  invoked : Bool
  completed : Bool

structure EffectFile where
  observed : Bool
  unresolved : Bool
  shrank : Bool
  dispatchFailed : Bool

structure ResultFile where
  failedCount : Nat
  identified : Bool
  joined : Bool
  distinct : Bool
  workOk : Bool
  notConfused : Bool

/-- the markers of the root; `note` is the `rc` of `root.finish_note` -/
structure RootFiles where
  started : Option Bool := none
  joined : Option JoinedFile := none
  work : Option WorkFile := none
  fencing : Option FencingFile := none
  disconnect : Option DisconnectFile := none
  effect : Option EffectFile := none
  ready : Bool := false
  result : Option ResultFile := none
  note : Option Nat := none

/-! ## the root -/

/-- the places of `main` between which no file is read or written, and no locality disconnected -/
inductive RootPc where
  | boot | join | roles | discover | joined | work | fence | fenceWrite
  | force | forceWrite | effect | ready | await | rolesC | replace
  | finish (rc : Nat) | stop (rc : Nat)
  deriving DecidableEq

/-- how a process ended -/
inductive Exit where
  | self (rc : Int)
  | killed
  deriving DecidableEq

/-- the local variables of `main`; `last` is `timeline.back()`, `targets` are the localities that
`force_disconnect` was called with -/
structure Root where
  pc : RootPc := .boot
  exit : Option Exit := none
  files : RootFiles := {}
  roles : Roles := ⟨0, 0, none⟩
  peerB : Peer := ⟨0, 0⟩
  bConnecting : Bool := false
  probeA : PlainProbe := {}
  probeB : PlainProbe := {}
  last : Option FenceAttempt := none
  fenced : Bool := false
  targets : List UInt32 := []
  fdRc : Int := -2
  unresolved : Bool := false
  membersAfter : Nat := 0
  post : PlainProbe := {}
  peerC : Peer := ⟨0, 0⟩
  probeC : PlainProbe := {}
  stillRejected : Bool := false
  stale : PlainProbe := {}

/-- `g_app_failed_publish_count`, which nothing increments -/
def appFailedPublishCount : Nat := 0

/-- `runtime_classified_failed` -/
@[simp] def Root.classified (r : Root) : Bool := r.last.any fun a => a.lastEvent == .failed

/-- `timeline.back().event_seq > 0` where the runtime has classified the loss -/
def Root.identified (r : Root) : Bool := r.classified && r.last.any fun a => decide (0 < a.seq)

/-- the last peer with a locality, as in the loops over `peers` -/
def findPeer (peers : List Peer) (l : UInt32) : Option Peer :=
  peers.reverse.find? fun p => p.locality == l

@[simp] def Root.joinedFile (r : Root) : JoinedFile := ⟨r.bConnecting, r.roles.b⟩

@[simp] def Root.workFile (r : Root) : WorkFile := ⟨r.probeA.ok, r.probeB.ok, appFailedPublishCount⟩

@[simp] def Root.fencingFile (r : Root) : FencingFile :=
  ⟨r.classified, r.fenced, r.fenced, appFailedPublishCount⟩

@[simp] def Root.disconnectFile (r : Root) : DisconnectFile := ⟨r.roles.b, true, r.fdRc == 0⟩

@[simp] def Root.effectFile (r : Root) : EffectFile :=
  ⟨r.fdRc == 0, r.unresolved, r.membersAfter == 2, !r.post.ok⟩

def Root.resultFile (r : Root) : ResultFile where
  failedCount := appFailedPublishCount
  identified := r.identified
  joined := r.probeC.ok
  distinct := r.peerC.locality != r.peerB.locality && r.peerC.joinEpoch != r.peerB.joinEpoch
  workOk := r.probeC.ok
  notConfused := r.stillRejected && !r.stale.ok && r.probeC.ok && r.peerC.locality != r.peerB.locality

/-- `main` of `root_supervised.cpp`; `roles` is the roles file -/
def rootGo (roles : Option Roles) (r : Root) (a : Answer) : Option Root :=
  match r.pc with
  | .boot =>
    if a.ok then some { r with files := { r.files with started := some true }, pc := .join }
    else some { r with files := { r.files with started := some false }, exit := some (.self 2) }
  | .join =>
    if a.late || a.members == 3 then
      some { r with pc := if a.members' == 3 then .roles else .finish 3 }
    else some r
  | .roles =>
    if a.late then some { r with pc := .finish 4 }
    else match roles with
      | some ρ => some { r with roles := ρ, pc := .discover }
      | none => some r
  | .discover =>
    match findPeer a.peers r.roles.a, findPeer a.peers r.roles.b with
    | some _, some b => some { r with peerB := b, pc := .joined }
    | _, _ => if a.late then some { r with pc := .finish 5 } else some r
  | .joined =>
    let r := { r with bConnecting := a.ok }
    some { r with
      files := { r.files with joined := some r.joinedFile }
      pc := if r.bConnecting then .work else .finish 6 }
  | .work =>
    let r := { r with
      probeA := plainProbe r.roles.a 41 a.reply
      probeB := plainProbe r.roles.b 42 a.reply' }
    some { r with
      files := { r.files with work := some r.workFile }
      pc := if r.probeA.ok && r.probeB.ok then .fence else .finish 7 }
  | .fence =>
    if a.late then some { r with pc := .fenceWrite }
    else some { r with
      last := some a.fence
      fenced := a.fence.rejected
      pc := if a.fence.rejected then .fenceWrite else .fence }
  | .fenceWrite => some { r with
      files := { r.files with fencing := some r.fencingFile }
      pc := if r.fenced then .force else .finish 8 }
  | .force => some { r with targets := r.peerB.locality :: r.targets, fdRc := a.rc, pc := .forceWrite }
  | .forceWrite => some { r with
      files := { r.files with disconnect := some r.disconnectFile }, pc := .effect }
  | .effect =>
    let r := { r with
      unresolved := !a.ok
      membersAfter := a.members
      post := plainProbe r.roles.b 77 a.reply }
    some { r with files := { r.files with effect := some r.effectFile }, pc := .ready }
  | .ready => some { r with files := { r.files with ready := true }, pc := .await }
  | .await =>
    if a.late || a.members == 3 then
      some { r with pc := if a.members' == 3 then .rolesC else .finish 9 }
    else some r
  | .rolesC =>
    if a.late then some { r with pc := .finish 10 }
    else match roles with
      | some ρ => some { r with roles := ρ, pc := if ρ.c.isSome then .replace else .rolesC }
      | none => some r
  | .replace =>
    match r.roles.c.bind (findPeer a.peers) with
    | some c =>
      let r := { r with
        peerC := c
        probeC := plainProbe (r.roles.c.getD 0) 43 a.reply
        stillRejected := a.fence.rejected
        stale := plainProbe r.roles.b 100 a.reply' }
      some { r with files := { r.files with result := some r.resultFile }, pc := .finish 0 }
    | none => some { r with pc := .finish 11 }
  | .finish rc => some { r with files := { r.files with note := some rc }, pc := .stop rc }
  | .stop rc => some { r with
      exit := some (.self (if rc = 0 ∧ a.rc ≠ 0 then 6 else (rc : Int))) }

/-! ## the controller -/

inductive Conn where
  | a | b | c
  deriving DecidableEq

inductive CtlPc where
  | started | ident (k : Conn) | start (k : Conn) | sup (k : Conn) | roles
  | joined | work | kill | gone | fencing | disconnect | effect | ready | rolesC | result | root | done
  deriving DecidableEq

/-- `departure` -/
structure Departure where
  signal : String := "SIGKILL"
  graceful : Bool := false
  pidGone : Bool

/-- the keys of `m` that a gate reads -/
structure Markers where
  joined : Option JoinedFile := none
  work : Option WorkFile := none
  departure : Option Departure := none
  fencing : Option FencingFile := none
  disconnect : Option DisconnectFile := none
  effect : Option EffectFile := none
  result : Option ResultFile := none
  controllerException : Bool := false

/-- `closed`: the `finally` has run; `killed` are the processes that the crash injection sent a SIGKILL,
the `os.kill` of the body, and not those that the `finally` ends -/
structure Controller where
  pc : CtlPc := .started
  closed : Bool := false
  m : Markers := {}
  bIdent : Option (Nat × Nat) := none
  locA : UInt32 := 0
  locB : UInt32 := 0
  locC : Option UInt32 := none
  rolesFile : Option Roles := none
  killed : List Nat := []

structure World where
  root : Root := {}
  ctl : Controller := {}

/-- an exception in the body of the `try` -/
def Controller.raise (c : Controller) : Controller :=
  { c with m := { c.m with controllerException := true } }

/-- `_require_marker`: the marker, or an exception while it is not there -/
def require {F : Type} (c : Controller) (file : Option F) (seen : Bool) (go : F → Controller) :
    Option Controller :=
  match file with
  | some f => if seen then some (go f) else none
  | none => if seen then none else some c.raise

/-- the next step of the controller after `supervision_init` of a connector -/
def Conn.next : Conn → CtlPc
  | .a => .ident .b
  | .b => .roles
  | .c => .rolesC

/-- the body of the `try` of `live_local_run` -/
def ctlTry (files : RootFiles) (c : Controller) (a : Answer) : Option Controller :=
  match c.pc with
  | .started => if a.ok = (files.started == some true) then
      if a.ok then some { c with pc := .ident .a } else some c.raise
    else none
  | .ident k => some { c with bIdent := if k = .b then a.ident else c.bIdent, pc := .start k }
  | .start k =>
    if a.ok then match k with
      | .a => some { c with locA := a.locality, pc := .sup k }
      | .b => some { c with locB := a.locality, pc := .sup k }
      | .c => some { c with locC := some a.locality, pc := .sup k }
    else some c.raise
  | .sup k => if a.ok then some { c with pc := k.next } else some c.raise
  | .roles => some { c with rolesFile := some ⟨c.locA, c.locB, none⟩, pc := .joined }
  | .joined => require c files.joined a.ok fun f =>
      { c with m := { c.m with joined := some f }, pc := .work }
  | .work => require c files.work a.ok fun f =>
      { c with m := { c.m with work := some f }, pc := .kill }
  | .kill =>
    match c.bIdent with
    | some (pid, osPid) =>
      if pid = osPid then some { c with killed := pid :: c.killed, pc := .gone } else some c.raise
    | none => some c.raise
  | .gone =>
    let c := { c with m := { c.m with departure := some { pidGone := a.ok } } }
    if a.ok then some { c with pc := .fencing } else some c.raise
  | .fencing => require c files.fencing a.ok fun f =>
      { c with m := { c.m with fencing := some f }, pc := .disconnect }
  | .disconnect => require c files.disconnect a.ok fun f =>
      { c with m := { c.m with disconnect := some f }, pc := .effect }
  | .effect => require c files.effect a.ok fun f =>
      { c with m := { c.m with effect := some f }, pc := .ready }
  | .ready => if files.ready = a.ok then
      if a.ok then some { c with pc := .ident .c } else some c.raise
    else none
  | .rolesC => some { c with rolesFile := some ⟨c.locA, c.locB, c.locC⟩, pc := .result }
  | .result => require c files.result a.ok fun f =>
      { c with m := { c.m with result := some f }, pc := .root }
  | .root => some { c with pc := .done }
  | .done => none

/-! ## the two together -/

inductive Act where
  | root (a : Answer)
  | ctl (a : Answer)
  /-- another call in the `try` raises -/
  | fail
  /-- the `finally`, which kills the group of the root, and the actors -/
  | close
  /-- a signal, or the hard timeout, ends the root before its time -/
  | crash (hardTimeout : Bool)

def step (s : World) : Act → Option World
  | .root a =>
    if s.root.exit = none then
      (rootGo s.ctl.rolesFile s.root a).map fun r => { s with root := r }
    else none
  | .ctl a =>
    if s.ctl.m.controllerException = false ∧ s.ctl.closed = false then
      (ctlTry s.root.files s.ctl a).map fun c => { s with ctl := c }
    else none
  | .fail =>
    if s.ctl.pc ≠ .done ∧ s.ctl.closed = false then some { s with ctl := s.ctl.raise } else none
  | .close =>
    if (s.ctl.m.controllerException = true ∨ s.ctl.pc = .done) ∧ s.ctl.closed = false then
      some ⟨{ s.root with exit := s.root.exit <|> some .killed }, { s.ctl with closed := true }⟩
    else none
  | .crash hardTimeout =>
    if s.root.exit = none then
      some { s with root := { s.root with exit := some (if hardTimeout then .self 86 else .killed) } }
    else none

/-! ## the probe -/

/-- a word of 32 bits survives the shift in 64 bits -/
theorem doubled_inj {l e : UInt32} (h : l.toUInt64.toInt64 <<< 1 = e.toUInt64.toInt64 <<< 1) : l = e := by
  have hbits := congrArg (fun n : Int64 => n.toBitVec.toNat) h
  have hl := l.toNat_lt
  have he := e.toNat_lt
  simp at hbits
  apply UInt32.toNat_inj.mp
  rw [Nat.shiftLeft_eq, Nat.shiftLeft_eq] at hbits
  omega

theorem probeOracle_inj {x : Int64} {l e : UInt32} (h : probeOracle x l = probeOracle x e) : l = e := by
  unfold probeOracle at h
  exact doubled_inj ((Int64.add_right_inj _).mp h)

/-- a probe is right exactly if its target has run it -/
theorem plainProbe_ok (target : UInt32) (x : Int64) (reply : Reply) :
    (plainProbe target x reply).ok = true ↔ reply = .ran target := by
  cases reply with
  | absent | late | threw => simp [plainProbe]
  | ran e =>
    have hinj : probeOracle x e = probeOracle x target ↔ e = target :=
      ⟨probeOracle_inj, fun h => by rw [h]⟩
    simp [plainProbe, hinj]

/-- the peer that is found has the locality that was asked for -/
theorem findPeer_locality {peers : List Peer} {l : UInt32} {p : Peer} (h : findPeer peers l = some p) :
    p.locality = l := by
  have := List.find?_some h
  exact eq_of_beq this

end Recovery
end RayX
