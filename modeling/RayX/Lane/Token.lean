import RayX.Ops.Value

/-!
# The cancel token

`RuntimeCancelToken`: five phases and the `cancellable_` flag, every operation one critical
section of the token's mutex.  A queued cancel answers `fulfil`: the caller then sets the promise
outside the lock.
-/

namespace RayX

inductive Phase where
  | queued
  | running
  | stopRequested
  | cancelled
  | completed
  deriving DecidableEq, Repr

structure Token where
  phase : Phase := .queued
  cancellable : Bool := false
  deriving DecidableEq, Repr

/-- what the critical section of `cancel()` decides -/
inductive Answer where
  | fulfil
  | requested
  | refused
  deriving DecidableEq, Repr

/-- the value that `cancel()` returns -/
def Answer.returned : Answer → Bool
  | .fulfil => true
  | .requested => true
  | .refused => false

namespace Token

def cancel (t : Token) : Token × Answer :=
  if t.phase = .queued then ({ t with phase := .cancelled }, .fulfil)
  else if t.phase = .running ∧ t.cancellable = true then
    ({ t with phase := .stopRequested }, .requested)
  else (t, .refused)

/-- `false`: a queued cancel won, the lane skips the item -/
def beginService (checkpointCount : Int) (t : Token) : Token × Bool :=
  if t.phase = .cancelled then (t, false)
  else ({ phase := .running, cancellable := decide (1 < checkpointCount) }, true)

/-- `true`: the body must stop now -/
def stopAtBoundary (t : Token) (nextIsFinal : Bool) : Token × Bool :=
  if t.phase = .stopRequested then ({ t with phase := .cancelled }, true)
  else if nextIsFinal then ({ t with cancellable := false }, false)
  else (t, false)

def markFinished (t : Token) : Token :=
  if t.phase = .running then { t with phase := .completed } else t

def isCancelled (t : Token) : Bool := t.phase == .cancelled || t.phase == .stopRequested

/-- the body has passed its final boundary, or it has no boundary, or it is over -/
def pastBoundary (t : Token) : Bool :=
  (t.phase == .running && !t.cancellable) || t.phase == .completed

/-- the row that a queued cancel sets -/
def cancelRow (actorId : String) (now : Int64) : RuntimeResult :=
  { actorId := actorId, startNs := now, endNs := now, status := .cancelled, hasValue := false }

/-! ## what the operations do, phase by phase -/

variable {t : Token}

theorem cancel_queued (h : t.phase = .queued) :
    t.cancel = ({ t with phase := .cancelled }, .fulfil) := by
  rw [cancel, if_pos h]

theorem cancel_running (h : t.phase = .running) (hc : t.cancellable = true) :
    t.cancel = ({ t with phase := .stopRequested }, .requested) := by
  have hq : t.phase ≠ .queued := by
    rw [h]
    decide
  rw [cancel, if_neg hq, if_pos ⟨h, hc⟩]

theorem cancel_refused (hq : t.phase ≠ .queued) (hr : t.phase = .running → t.cancellable = false) :
    t.cancel = (t, .refused) := by
  have hn : ¬ (t.phase = .running ∧ t.cancellable = true) := by
    intro h
    rw [hr h.1] at h
    exact absurd h.2 Bool.false_ne_true
  rw [cancel, if_neg hq, if_neg hn]

theorem beginService_cancelled (cc : Int) (h : t.phase = .cancelled) :
    t.beginService cc = (t, false) := by
  rw [beginService, if_pos h]

theorem beginService_queued (cc : Int) (h : t.phase ≠ .cancelled) :
    t.beginService cc = ({ phase := .running, cancellable := decide (1 < cc) }, true) := by
  rw [beginService, if_neg h]

theorem stopAtBoundary_requested (fin : Bool) (h : t.phase = .stopRequested) :
    t.stopAtBoundary fin = ({ t with phase := .cancelled }, true) := by
  rw [stopAtBoundary, if_pos h]

theorem stopAtBoundary_other (fin : Bool) (h : t.phase ≠ .stopRequested) :
    t.stopAtBoundary fin = ({ t with cancellable := t.cancellable && !fin }, false) := by
  rw [stopAtBoundary, if_neg h]
  cases fin <;> simp

theorem markFinished_running (h : t.phase = .running) :
    t.markFinished = { t with phase := .completed } := by
  rw [markFinished, if_pos h]

theorem markFinished_other (h : t.phase ≠ .running) : t.markFinished = t := by
  rw [markFinished, if_neg h]

/-- no operation of the token leads back to `Queued` -/
theorem cancel_phase (h : t.phase ≠ .queued) :
    t.cancel.1.phase ≠ .queued ∧ t.cancel.2 ≠ .fulfil := by
  unfold cancel
  rw [if_neg h]
  split
  · exact ⟨Phase.noConfusion, Answer.noConfusion⟩
  · exact ⟨h, Answer.noConfusion⟩

theorem stopAtBoundary_phase (fin : Bool) (h : t.phase ≠ .queued) :
    (t.stopAtBoundary fin).1.phase ≠ .queued := by
  by_cases hs : t.phase = .stopRequested
  · rw [stopAtBoundary_requested fin hs]
    exact Phase.noConfusion
  · rw [stopAtBoundary_other fin hs]
    exact h

theorem markFinished_phase (h : t.phase ≠ .queued) : t.markFinished.phase ≠ .queued := by
  by_cases hr : t.phase = .running
  · rw [markFinished_running hr]
    exact Phase.noConfusion
  · rw [markFinished_other hr]
    exact h

/-- once past its boundary or cancelled, a token answers every cancel with `false` -/
theorem cancel_settled (h : t.pastBoundary = true ∨ t.isCancelled = true) :
    t.cancel = (t, .refused) := by
  rcases t with ⟨p, c⟩
  cases p <;> cases c <;> simp_all [pastBoundary, isCancelled, cancel]

/-- a cancel leaves no token that could still run over a boundary -/
theorem cancel_reaches (t : Token) : t.cancel.1.pastBoundary = true ∨ t.cancel.1.isCancelled = true := by
  rcases t with ⟨p, c⟩
  cases p <;> cases c <;> simp [pastBoundary, isCancelled, cancel]

end Token

end RayX
