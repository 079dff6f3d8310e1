import RayX.Supervision.RecoveryOrder

/-!
# The gates of a recovery

* `evalGates`, `failureClassFor`, `rollup`   what the controller makes of its markers;
* `Inv.gates`                 eight of the sixteen gates are settled by the order of the run;
* `complete_class`            **the class of a run that has come through**;
* `recovery_pass_iff`         **when a recovery passes**;
* `early_fence_passes`        what is not asked.
-/

namespace RayX
namespace Recovery
open Sys

variable {s : World} {m : Markers}

/-! ## the gates -/

structure Gates where
  connectorLateJoinProven : Bool
  preCrashWorkOk : Bool
  hardCrashUsed : Bool
  gracefulDisconnectUsedIsFalse : Bool
  failedPublishCountIsZero : Bool
  failureClassificationObserved : Bool
  failedIncarnationIdentified : Bool
  staleIncarnationFenced : Bool
  fencedOutcomeIsSpecific : Bool
  forceDisconnectInvoked : Bool
  forceDisconnectCompleted : Bool
  forceDisconnectEffectObserved : Bool
  replacementJoined : Bool
  replacementIncarnationDistinct : Bool
  replacementWorkOk : Bool
  staleNotConfusedWithReplacement : Bool

/-- `eval_gates` -/
def evalGates (m : Markers) : Gates where
  connectorLateJoinProven := m.joined.any fun f => f.bConnecting
  preCrashWorkOk := m.work.any fun f => f.aOk && f.bOk
  hardCrashUsed := m.departure.any fun d => d.signal == "SIGKILL"
  gracefulDisconnectUsedIsFalse := m.departure.any fun d => !d.graceful
  failedPublishCountIsZero := (m.work.any fun f => f.failedCount == 0) &&
    (m.fencing.any fun f => f.failedCount == 0) && m.result.any fun f => f.failedCount == 0
  failureClassificationObserved := m.fencing.any fun f => f.classified
  failedIncarnationIdentified := m.result.any fun f => f.identified
  staleIncarnationFenced := m.fencing.any fun f => f.fenced
  fencedOutcomeIsSpecific := m.fencing.any fun f => f.specific
  forceDisconnectInvoked := m.disconnect.any fun f => f.invoked
  forceDisconnectCompleted := m.disconnect.any fun f => f.completed
  forceDisconnectEffectObserved :=
    m.effect.any fun f => f.observed && (f.unresolved || f.shrank || f.dispatchFailed)
  replacementJoined := m.result.any fun f => f.joined
  replacementIncarnationDistinct := m.result.any fun f => f.distinct
  replacementWorkOk := m.result.any fun f => f.workOk
  staleNotConfusedWithReplacement := m.result.any fun f => f.notConfused

def Gates.all (g : Gates) : Bool :=
  g.connectorLateJoinProven && g.preCrashWorkOk && g.hardCrashUsed && g.gracefulDisconnectUsedIsFalse &&
    g.failedPublishCountIsZero && g.failureClassificationObserved && g.failedIncarnationIdentified &&
    g.staleIncarnationFenced && g.fencedOutcomeIsSpecific && g.forceDisconnectInvoked &&
    g.forceDisconnectCompleted && g.forceDisconnectEffectObserved && g.replacementJoined &&
    g.replacementIncarnationDistinct && g.replacementWorkOk && g.staleNotConfusedWithReplacement

inductive FailureClass where
  | eligibilityNotProven | workFailed | crashInjectionInvalid | classificationNotObserved
  | fencingNotObserved | forceDisconnectNotInvoked | forceDisconnectEffectNotObserved
  | replacementFailed | gateFailed | invalidInstrumentation | pass
  deriving DecidableEq

/-- `failure_class_for` -/
def failureClassFor (g : Gates) : FailureClass :=
  if !g.connectorLateJoinProven then .eligibilityNotProven
  else if !g.preCrashWorkOk then .workFailed
  else if !(g.hardCrashUsed && g.gracefulDisconnectUsedIsFalse) then .crashInjectionInvalid
  else if !(g.failureClassificationObserved && g.failedPublishCountIsZero) then
    .classificationNotObserved
  else if !(g.staleIncarnationFenced && g.fencedOutcomeIsSpecific) then .fencingNotObserved
  else if !(g.forceDisconnectInvoked && g.forceDisconnectCompleted) then .forceDisconnectNotInvoked
  else if !g.forceDisconnectEffectObserved then .forceDisconnectEffectNotObserved
  else if !(g.replacementJoined && g.replacementIncarnationDistinct && g.replacementWorkOk &&
      g.staleNotConfusedWithReplacement) then .replacementFailed
  else if !g.all then .gateFailed
  else .pass

structure Rollup where
  passed : Bool
  failureClass : FailureClass

/-- `rollup` -/
def rollup (m : Markers) : Rollup :=
  let fc := failureClassFor (evalGates m)
  let passed := fc == .pass && !m.controllerException
  let fc := if m.controllerException && fc == .pass then .invalidInstrumentation else fc
  ⟨passed, if passed then .pass else fc⟩

/-! ## what they say -/

theorem failureClassFor_pass {g : Gates} : failureClassFor g = .pass ↔ g.all = true := by
  constructor
  · intro h
    unfold failureClassFor at h
    repeat' split at h
    all_goals try cases h
    rename_i hall
    simpa using hall
  · intro h
    have hparts := h
    simp only [Gates.all, Bool.and_eq_true] at hparts
    simp [failureClassFor, h, hparts]

theorem rollup_passed : (rollup m).passed = true ↔
    (evalGates m).all = true ∧ m.controllerException = false := by
  simp [rollup, failureClassFor_pass]

/-- a controller that has the result has all the other markers, and the root has come through -/
theorem Inv.complete (h : Inv s) (hr : s.ctl.m.result.isSome = true) :
    (s.ctl.m.joined = some s.root.joinedFile ∧ s.ctl.m.work = some s.root.workFile ∧
      s.ctl.m.fencing = some s.root.fencingFile ∧ s.ctl.m.disconnect = some s.root.disconnectFile ∧
      s.ctl.m.effect = some s.root.effectFile ∧ s.ctl.m.result = some s.root.resultFile) ∧
    (∃ d, s.ctl.m.departure = some d ∧ d.signal = "SIGKILL" ∧ d.graceful = false) ∧
    s.root.bConnecting = true ∧ (s.root.probeA.ok = true ∧ s.root.probeB.ok = true) ∧
    s.root.fenced = true := by
  have hstage : 21 ≤ s.ctl.pc.stage := of_decide_eq_true (h.planned.result.symm.trans hr)
  obtain ⟨f1, h1⟩ := Option.isSome_iff_exists.mp (h.planned.joined.trans (decide_eq_true (by omega)))
  obtain ⟨f2, h2⟩ := Option.isSome_iff_exists.mp (h.planned.work.trans (decide_eq_true (by omega)))
  obtain ⟨f3, h3⟩ := Option.isSome_iff_exists.mp (h.planned.fencing.trans (decide_eq_true (by omega)))
  obtain ⟨f4, h4⟩ := Option.isSome_iff_exists.mp (h.planned.disconnect.trans (decide_eq_true (by omega)))
  obtain ⟨f5, h5⟩ := Option.isSome_iff_exists.mp (h.planned.effect.trans (decide_eq_true (by omega)))
  obtain ⟨f6, h6⟩ := Option.isSome_iff_exists.mp hr
  obtain ⟨d, hd⟩ := Option.isSome_iff_exists.mp (h.planned.gone (by omega))
  obtain ⟨hroot, e6⟩ := h.resultFile (h.collected.result f6 h6)
  have e1 := (h.joinedFile (h.collected.joined f1 h1)).2
  have e2 := (h.workFile (h.collected.work f2 h2)).2
  have e3 := (h.fencingFile (h.collected.fencing f3 h3)).2
  have e4 := (h.disconnectFile (h.collected.disconnect f4 h4)).2
  have e5 := (h.effectFile (h.collected.effect f5 h5)).2
  refine ⟨⟨h1.trans (by rw [e1]), h2.trans (by rw [e2]), h3.trans (by rw [e3]), h4.trans (by rw [e4]),
    h5.trans (by rw [e5]), h6.trans (by rw [e6])⟩, ⟨d, hd, h.planned.departure d hd⟩,
    h.checked.connecting (by omega), h.checked.work (by omega), h.checked.fenced (by omega)⟩

/-- the forced disconnect took effect as the root saw it -/
def Root.effectSeen (r : Root) : Bool := r.unresolved || r.membersAfter == 2 || !r.post.ok

/-- the replacement as the root saw it -/
def Root.replaced (r : Root) : Bool :=
  r.probeC.ok && r.peerC.locality != r.peerB.locality && r.peerC.joinEpoch != r.peerB.joinEpoch &&
    r.stillRejected && !r.stale.ok

/-- the order of the run has settled eight of the sixteen gates -/
theorem Inv.gates (h : Inv s) (hr : s.ctl.m.result.isSome = true) : evalGates s.ctl.m = {
    connectorLateJoinProven := true
    preCrashWorkOk := true
    hardCrashUsed := true
    gracefulDisconnectUsedIsFalse := true
    failedPublishCountIsZero := true
    failureClassificationObserved := s.root.classified
    failedIncarnationIdentified := s.root.identified
    staleIncarnationFenced := true
    fencedOutcomeIsSpecific := true
    forceDisconnectInvoked := true
    forceDisconnectCompleted := s.root.fdRc == 0
    forceDisconnectEffectObserved := s.root.fdRc == 0 && s.root.effectSeen
    replacementJoined := s.root.probeC.ok
    replacementIncarnationDistinct := s.root.resultFile.distinct
    replacementWorkOk := s.root.probeC.ok
    staleNotConfusedWithReplacement := s.root.resultFile.notConfused } := by
  obtain ⟨⟨h1, h2, h3, h4, h5, h6⟩, ⟨d, hd, hsig, hgr⟩, hconn, ⟨hA, hB⟩, hfenced⟩ := h.complete hr
  simp [evalGates, h1, h2, h3, h4, h5, h6, hd, hsig, hgr, hconn, hA, hB, hfenced, Root.resultFile,
    appFailedPublishCount, Root.effectSeen]

theorem Root.resultFile_replaced (r : Root) :
    (r.probeC.ok && r.resultFile.distinct && r.probeC.ok && r.resultFile.notConfused) = r.replaced := by
  simp only [Root.resultFile, Root.replaced]
  cases r.probeC.ok <;> cases r.stillRejected <;> cases r.stale.ok <;>
    cases r.peerC.locality != r.peerB.locality <;> cases r.peerC.joinEpoch != r.peerB.joinEpoch <;> rfl

/-- the gates that the order of a run settles once it has come through -/
structure Gates.Settled (g : Gates) : Prop where
  connectorLateJoinProven : g.connectorLateJoinProven = true
  preCrashWorkOk : g.preCrashWorkOk = true
  hardCrashUsed : g.hardCrashUsed = true
  gracefulDisconnectUsedIsFalse : g.gracefulDisconnectUsedIsFalse = true
  failedPublishCountIsZero : g.failedPublishCountIsZero = true
  staleIncarnationFenced : g.staleIncarnationFenced = true
  fencedOutcomeIsSpecific : g.fencedOutcomeIsSpecific = true
  forceDisconnectInvoked : g.forceDisconnectInvoked = true

/-- **The class of a run that has come through**: with the result collected, eight of the gates hold, and
what the root saw decides among the six classes that are left; `force_disconnect_not_invoked` then means
that it was invoked and failed. -/
theorem complete_class (h : Reach Recovery.step {} s) (hr : s.ctl.m.result.isSome = true) :
    (evalGates s.ctl.m).Settled ∧ failureClassFor (evalGates s.ctl.m) =
      if s.root.classified = false then .classificationNotObserved
      else if s.root.fdRc ≠ 0 then .forceDisconnectNotInvoked
      else if s.root.effectSeen = false then .forceDisconnectEffectNotObserved
      else if s.root.replaced = false then .replacementFailed
      else if s.root.identified = false then .gateFailed
      else .pass := by
  rw [(inv_reach h).gates hr]
  refine ⟨⟨rfl, rfl, rfl, rfl, rfl, rfl, rfl, rfl⟩, ?_⟩
  simp only [failureClassFor, Root.resultFile_replaced]
  generalize s.root.classified = classified
  cases classified with
  | false => simp
  | true =>
    by_cases hfd : s.root.fdRc = 0
    · by_cases heff : s.root.effectSeen = true
      · by_cases hrep : s.root.replaced = true
        · have hparts := hrep
          rw [← Root.resultFile_replaced] at hparts
          simp only [Bool.and_eq_true] at hparts
          simp [hfd, heff, hrep, Gates.all, hparts]
        · simp [hfd, heff, hrep]
      · simp [hfd, heff]
    · simp [hfd]

theorem recoveryMoves_sees : ∃ s, run step {} recoveryMoves = some s ∧ s.ctl.m.result.isSome = true ∧
    s.root.classified = true ∧ s.root.fdRc = 0 ∧ s.root.effectSeen = true ∧ s.root.replaced = true ∧
    s.root.identified = true := ⟨_, rfl, rfl, rfl, rfl, rfl, rfl, rfl⟩

theorem complete_class_pass : ∃ s, Reach step {} s ∧ failureClassFor (evalGates s.ctl.m) = .pass := by
  obtain ⟨s, hrun, hr, hclass, hfd, heff, hrep, hid⟩ := recoveryMoves_sees
  have h : Reach step {} s := ⟨recoveryMoves, hrun⟩
  refine ⟨s, h, ?_⟩
  rw [(complete_class h hr).2, hclass, hfd, heff, hrep, hid]
  rfl

/-- **When a recovery passes**: exactly when no call of the controller has raised, the result was collected,
the runtime had classified the loss with an event of its own, the forced disconnect took effect and the
replacement is another one that works.  How the root ended is not asked. -/
theorem recovery_pass_iff (h : Reach Recovery.step {} s) :
    (rollup s.ctl.m).passed = true ↔
      s.ctl.m.controllerException = false ∧ s.ctl.m.result.isSome = true ∧ s.root.identified = true ∧
        (s.root.fdRc = 0 ∧ s.root.effectSeen = true) ∧ s.root.replaced = true := by
  have hi := inv_reach h
  rw [rollup_passed]
  constructor
  · rintro ⟨hall, hex⟩
    have hr : s.ctl.m.result.isSome = true := by
      cases hm : s.ctl.m.result with
      | none => simp [Gates.all, evalGates, hm] at hall
      | some f => rfl
    refine ⟨hex, hr, ?_⟩
    rw [hi.gates hr] at hall
    rw [← Root.resultFile_replaced]
    simp [Gates.all] at hall
    simp [hall]
  · rintro ⟨hex, hr, hid, ⟨hfd, heff⟩, hrep⟩
    refine ⟨?_, hex⟩
    rw [hi.gates hr]
    rw [← Root.resultFile_replaced] at hrep
    simp only [Bool.and_eq_true] at hrep
    have hclass : s.root.classified = true := by
      have hboth := hid
      simp only [Root.identified, Bool.and_eq_true] at hboth
      exact hboth.1
    simpa [Gates.all, hid, hfd, heff, hrep] using hclass

theorem recoveryMoves_passes : ∃ s, run step {} recoveryMoves = some s ∧ (rollup s.ctl.m).passed = true :=
  ⟨_, rfl, rfl⟩

theorem recovery_pass_iff_replaced : ∃ s, Reach step {} s ∧ s.root.replaced = true := by
  obtain ⟨s, hrun, hp⟩ := recoveryMoves_passes
  have h : Reach step {} s := ⟨recoveryMoves, hrun⟩
  exact ⟨s, h, ((recovery_pass_iff h).mp hp).2.2.2.2⟩

/-- the root takes `b` for lost before it is killed, and the recovery passes all the same: no gate compares
the times of the two -/
theorem early_fence_passes : ∃ s s', run step {} (bringUp ++ roots 2 island) = some s ∧
    s.root.fenced = true ∧ s.ctl.killed = [] ∧
    run step s (ctls 4 island ++ roots 4 { island with reply := .late } ++ replaceMoves) = some s' ∧
    (rollup s'.ctl.m).passed = true :=
  ⟨_, _, rfl, rfl, rfl, rfl, rfl⟩

end Recovery
end RayX
