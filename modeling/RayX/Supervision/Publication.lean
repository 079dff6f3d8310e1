import RayX.Lib.Guard
import RayX.Lib.Table
import Mathlib.Data.Rat.Defs

/-!
# Lifecycle publications

The publication guards of the supervision experiments, each over the state machine of its own.  A
backend is what its publish method does at each call: it may return any value, or raise.

* `StateMachine`             the linear state machines and their `advance`;
* `CompletionContract`       remembers the returned record, `LifecycleEventContract` a map by
                             connector, `RootEventContract` a map by epoch;
* `completionGuard`, `eventGuard`, `rootGuard`   the three as guards;
* `publication_guards`       **a publication is made in its state only; the guards are sound exactly
                             in the runs in which no publication raises, and the first one in those
                             in which none is made after one that returned `None`**.
-/

namespace RayX
open Sys

namespace Supervision

/-! ## the state machines -/

/-- what `advance` is given: a state or `None`, or a value that equals none of them -/
inductive Target (S : Type) where
  | value (s : Option S)
  | other (repr : String)
  deriving DecidableEq, Repr

/-- `IslandStateMachine` and the two `ArmStateMachine`s, which have an arm; `none` is `None` -/
structure StateMachine (S : Type) where
  arm : Option String := none
  state : Option S
  history : List (Option S × ℚ)
  rejected : List (Option S × Target S) := []

/-- `_NEXT.get`, of the tuple `STATES`: `None` after the last one, and after `None` -/
def nextOf {S : Type} [DecidableEq S] (states : List S) (s : Option S) : Option S :=
  s.bind fun s => (states.zip states.tail).lookup s

/-- `none` for the `InvalidTransition` -/
def StateMachine.advance {S : Type} [DecidableEq S] (states : List S) (sm : StateMachine S)
    (target : Target S) (now : ℚ) : StateMachine S × Option Unit :=
  if Target.value (nextOf states sm.state) ≠ target then
    ({ sm with rejected := sm.rejected ++ [(sm.state, target)] }, none)
  else
    -- the target is the next state, or `None` where there is none
    let next := nextOf states sm.state
    ({ sm with state := next, history := sm.history ++ [(next, now)] }, some ())

inductive IslandState where
  | starting
  | ready
  | work1Verified
  | idle
  | work2Verified
  | completionPublished
  | connectorsLeaving
  | rootAlone
  | finalized
  deriving DecidableEq, Repr

def islandStates : List IslandState :=
  [.starting, .ready, .work1Verified, .idle, .work2Verified, .completionPublished,
    .connectorsLeaving, .rootAlone, .finalized]

inductive ArmState where
  | starting
  | ready
  | workVerified
  | departed
  | evidenceCollected
  | eventPublished
  | eventObserved
  | tornDown
  | finalized
  deriving DecidableEq, Repr

def armStates : List ArmState :=
  [.starting, .ready, .workVerified, .departed, .evidenceCollected, .eventPublished,
    .eventObserved, .tornDown, .finalized]

def ArmState.name : ArmState → String
  | .starting => "STARTING"
  | .ready => "READY"
  | .workVerified => "WORK_VERIFIED"
  | .departed => "DEPARTED"
  | .evidenceCollected => "EVIDENCE_COLLECTED"
  | .eventPublished => "EVENT_PUBLISHED"
  | .eventObserved => "EVENT_OBSERVED"
  | .tornDown => "TORN_DOWN"
  | .finalized => "FINALIZED"

inductive RootState where
  | starting
  | ready
  | workVerified
  | resultVerified
  | rootEventClassified
  | connectorsObserved
  | islandDisposed
  | finalized
  deriving DecidableEq, Repr

def rootStates : List RootState :=
  [.starting, .ready, .workVerified, .resultVerified, .rootEventClassified, .connectorsObserved,
    .islandDisposed, .finalized]

def RootState.name : RootState → String
  | .starting => "STARTING"
  | .ready => "READY"
  | .workVerified => "WORK_VERIFIED"
  | .resultVerified => "RESULT_VERIFIED"
  | .rootEventClassified => "ROOT_EVENT_CLASSIFIED"
  | .connectorsObserved => "CONNECTORS_OBSERVED"
  | .islandDisposed => "ISLAND_DISPOSED"
  | .finalized => "FINALIZED"

/-- the state in a text -/
def stateText {S : Type} (name : S → String) (s : Option S) : String := (s.map name).getD "None"

/-! ## the surfaces -/

/-- what the duck-typed checks see of a backend: its two methods are callable, its name is set -/
structure Surface where
  publish : Bool
  observe : Bool
  name : Bool
  repr : String

def backendSurfaceOk (b : Surface) : Bool := b.publish && b.observe && b.name

/-- an observer need not publish -/
def observerSurfaceOk (obs : Surface) : Bool := obs.observe && obs.name

section
variable {R ε : Type}

/-! ## completion: a returned record -/

structure FinalResult where
  verified : Bool
  digest : Option String
  finalCase : Option String

structure CompletionArgs where
  epochId : String
  connectorIds : List String
  finalResult : Option FinalResult
  tMono : ℚ

/-- `record` is set on an accepted attempt -/
structure CompletionAttempt (R : Type) where
  stateAtAttempt : Option IslandState
  finalVerified : Bool
  alreadyPublished : Bool
  tMono : ℚ
  accepted : Bool
  record : Option (Option R) := none

structure CompletionContract (R : Type) where
  sm : StateMachine IslandState
  attempts : List (CompletionAttempt R) := []
  published : Option R := none

namespace CompletionContract

def create (backend : Surface) (sm : StateMachine IslandState) :
    Except String (CompletionContract R) :=
  if backendSurfaceOk backend then .ok { sm := sm }
  else .error "backend does not satisfy the completion surface"

/-- `(final_result or {}).get("verified") is True` -/
def finalVerified (a : CompletionArgs) : Bool :=
  match a.finalResult with
  | some f => f.verified
  | none => false

/-- `att["accepted"]` -/
def accepts (c : CompletionContract R) (a : CompletionArgs) : Bool :=
  finalVerified a && !c.published.isSome && c.sm.state == some .work2Verified

/-- the payload: the digest and the case of the final result -/
def payload (a : CompletionArgs) : Option String × Option String :=
  (a.finalResult.bind FinalResult.digest, a.finalResult.bind FinalResult.finalCase)

/-- `publishComplete` is the method of the backend -/
def tryPublish (c : CompletionContract R) (a : CompletionArgs)
    (publishComplete : String → List String → Option String × Option String →
      Except ε (Option R)) :
    CompletionContract R × Except ε (CompletionAttempt R) :=
  let att : CompletionAttempt R := {
    stateAtAttempt := c.sm.state
    finalVerified := finalVerified a
    alreadyPublished := c.published.isSome
    tMono := a.tMono
    accepted := c.accepts a }
  if c.accepts a then
    match publishComplete a.epochId a.connectorIds (payload a) with
    | .error e => (c, .error e)
    | .ok published =>
      let att := { att with record := some published }
      ({ c with published := published, attempts := c.attempts ++ [att] }, .ok att)
  else ({ c with attempts := c.attempts ++ [att] }, .ok att)

end CompletionContract

/-! ## departures: a map by connector -/

structure EventArgs where
  epochId : String
  connector : String
  classification : String
  evidenceDigest : Option String
  departedConnectors : List String
  tMono : ℚ

structure EventAttempt where
  epochId : String
  connector : String
  kind : String
  classification : String
  state : Option ArmState
  tMono : ℚ
  accepted : Bool
  reason : Option String

structure LifecycleEventContract where
  sm : StateMachine ArmState
  attempts : List EventAttempt := []
  terminalPublished : List (String × ℚ) := []

def evDeparted : String := "DEPARTED"

namespace LifecycleEventContract

def create (backend : Surface) (sm : StateMachine ArmState) : Except String LifecycleEventContract :=
  if backendSurfaceOk backend then .ok { sm := sm }
  else .error ("backend does not satisfy the surface: " ++ backend.repr)

/-- `connector in self.terminal_published` -/
def known (c : LifecycleEventContract) (connector : String) : Bool :=
  (c.terminalPublished.lookup connector).isSome

def attempt (c : LifecycleEventContract) (a : EventArgs) (accepted : Bool) (reason : Option String) :
    EventAttempt where
  epochId := a.epochId
  connector := a.connector
  kind := evDeparted
  classification := a.classification
  state := c.sm.state
  tMono := a.tMono
  accepted := accepted
  reason := reason

/-- why an attempt is refused -/
def refusal (c : LifecycleEventContract) (a : EventArgs) : Option String :=
  if c.sm.state ≠ some .evidenceCollected then
    some ("wrong state: " ++ stateText ArmState.name c.sm.state)
  else if !a.departedConnectors.contains a.connector then some "connector has not departed"
  else if c.known a.connector then some "terminal event already published"
  else none

/-- `publishEvent` is the method of the backend -/
def tryPublishTerminal (c : LifecycleEventContract) (a : EventArgs)
    (publishEvent : String → String → String → Option String → String → Except ε R) :
    LifecycleEventContract × Except ε EventAttempt :=
  match c.refusal a with
  | some reason =>
    let att := c.attempt a false (some reason)
    ({ c with attempts := c.attempts ++ [att] }, .ok att)
  | none =>
    match publishEvent a.epochId a.connector evDeparted a.evidenceDigest a.classification with
    | .error e => (c, .error e)
    | .ok _ =>
      let att := c.attempt a true none
      ({ c with
          terminalPublished := (a.connector, a.tMono) :: c.terminalPublished
          attempts := c.attempts ++ [att] }, .ok att)

end LifecycleEventContract

/-! ## root completion: a map by epoch -/

structure RootIdentity where
  pid : Option Int

structure RootArgs where
  epochId : String
  rootIdentity : Option RootIdentity
  payload : Option String
  resultVerified : Bool
  tMono : ℚ

/-- `witness` is set on an accepted attempt -/
structure RootAttempt (R : Type) where
  epochId : String
  state : Option RootState
  tMono : ℚ
  rootPid : Option Int
  accepted : Bool
  reason : Option String
  witness : Option R := none

structure RootEventContract (R : Type) where
  sm : StateMachine RootState
  attempts : List (RootAttempt R) := []
  published : List (String × ℚ) := []

namespace RootEventContract

def create (observer : Surface) (sm : StateMachine RootState) :
    Except String (RootEventContract R) :=
  if observerSurfaceOk observer then .ok { sm := sm }
  else .error ("observer does not satisfy the surface: " ++ observer.repr)

/-- `epoch_id in self.published` -/
def known (c : RootEventContract R) (epochId : String) : Bool := (c.published.lookup epochId).isSome

def attempt (c : RootEventContract R) (a : RootArgs) (accepted : Bool) (reason : Option String)
    (witness : Option R) : RootAttempt R where
  epochId := a.epochId
  state := c.sm.state
  tMono := a.tMono
  rootPid := a.rootIdentity.bind RootIdentity.pid
  accepted := accepted
  reason := reason
  witness := witness

/-- why an attempt is refused -/
def refusal (c : RootEventContract R) (a : RootArgs) : Option String :=
  if !a.resultVerified then some "final result not verified"
  else if c.sm.state ≠ some .resultVerified then
    some ("wrong state: " ++ stateText RootState.name c.sm.state)
  else if c.known a.epochId then some "completion already published"
  else none

/-- `publishCompletion` is the method of the observer, a raise where there is none -/
def tryPublishCompletion (c : RootEventContract R) (a : RootArgs)
    (publishCompletion : String → Option RootIdentity → Option String → Except ε R) :
    RootEventContract R × Except ε (RootAttempt R) :=
  match c.refusal a with
  | some reason =>
    let att := c.attempt a false (some reason) none
    ({ c with attempts := c.attempts ++ [att] }, .ok att)
  | none =>
    match publishCompletion a.epochId a.rootIdentity a.payload with
    | .error e => (c, .error e)
    | .ok doc =>
      let att := c.attempt a true none (some doc)
      ({ c with
          published := (a.epochId, a.tMono) :: c.published
          attempts := c.attempts ++ [att] }, .ok att)

end RootEventContract

/-! ## the three as guards -/

theorem CompletionContract.refused (c : CompletionContract R) (a : CompletionArgs)
    (out : Except ε (Option R)) (h : c.accepts a = false) :
    (c.tryPublish a (fun _ _ _ => out)).1.attempts.map
        (fun t => (t.finalVerified, t.accepted)) =
      c.attempts.map (fun t => (t.finalVerified, t.accepted)) ++ [(finalVerified a, false)] := by
  unfold tryPublish
  rw [if_neg (by rw [h]; exact Bool.false_ne_true), List.map_append, h]
  rfl

theorem CompletionContract.returned (c : CompletionContract R) (a : CompletionArgs) (r : Option R)
    (h : c.accepts a = true) :
    (c.tryPublish (ε := ε) a (fun _ _ _ => .ok r)).1.attempts.map
        (fun t => (t.finalVerified, t.accepted)) =
      c.attempts.map (fun t => (t.finalVerified, t.accepted)) ++ [(finalVerified a, true)] := by
  unfold tryPublish
  rw [if_pos h, List.map_append, h]
  rfl

/-- once for a run -/
def completionGuard (R ε : Type) :
    Guard (CompletionContract R) (Target IslandState × ℚ) CompletionArgs (Option R) ε Unit
      (Bool × Bool) where
  turn := fun c b => { c with sm := (c.sm.advance islandStates b.1 b.2).1 }
  attempt := fun c a out => (c.tryPublish a (fun _ _ _ => out)).1
  reaches := CompletionContract.accepts
  key := fun _ => ()
  records := fun c => c.attempts.map (fun t => (t.finalVerified, t.accepted))
  note := fun a accepted => (CompletionContract.finalVerified a, accepted)
  turned := fun _ _ => rfl
  refused := CompletionContract.refused
  returned := fun c a r h => CompletionContract.returned c a r h
  raised := fun c a e h => by
    unfold CompletionContract.tryPublish
    rw [if_pos h]

theorem LifecycleEventContract.refusal_none {c : LifecycleEventContract} {a : EventArgs} :
    c.refusal a = none ↔ c.sm.state = some .evidenceCollected ∧
      a.connector ∈ a.departedConnectors ∧ c.known a.connector = false := by
  unfold refusal
  by_cases h1 : c.sm.state = some .evidenceCollected
  · by_cases h2 : a.connector ∈ a.departedConnectors
    · cases h3 : c.known a.connector <;> simp [h1, h2]
    · simp [h1, h2]
  · simp [h1]

/-- once for a connector -/
def eventGuard (R ε : Type) :
    Guard LifecycleEventContract (Target ArmState × ℚ) EventArgs R ε String
      (String × String × Bool) where
  turn := fun c b => { c with sm := (c.sm.advance armStates b.1 b.2).1 }
  attempt := fun c a out => (c.tryPublishTerminal a (fun _ _ _ _ _ => out)).1
  reaches := fun c a => (c.refusal a).isNone
  key := EventArgs.connector
  records := fun c => c.attempts.map (fun t => (t.epochId, t.connector, t.accepted))
  note := fun a accepted => (a.epochId, a.connector, accepted)
  turned := fun _ _ => rfl
  refused := fun c a out h => by
    unfold LifecycleEventContract.tryPublishTerminal
    cases hr : c.refusal a with
    | none =>
      rw [hr] at h
      cases h
    | some reason =>
      dsimp only
      rw [List.map_append]
      rfl
  returned := fun c a r h => by
    unfold LifecycleEventContract.tryPublishTerminal
    rw [Option.isNone_iff_eq_none.mp h]
    dsimp only
    rw [List.map_append]
    rfl
  raised := fun c a e h => by
    unfold LifecycleEventContract.tryPublishTerminal
    rw [Option.isNone_iff_eq_none.mp h]

theorem RootEventContract.refusal_none {c : RootEventContract R} {a : RootArgs} :
    c.refusal a = none ↔ a.resultVerified = true ∧ c.sm.state = some .resultVerified ∧
      c.known a.epochId = false := by
  unfold refusal
  cases h1 : a.resultVerified
  · simp
  · by_cases h2 : c.sm.state = some .resultVerified
    · cases h3 : c.known a.epochId <;> simp [h2]
    · simp [h2]

/-- once for an epoch -/
def rootGuard (R ε : Type) :
    Guard (RootEventContract R) (Target RootState × ℚ) RootArgs R ε String (String × Bool) where
  turn := fun c b => { c with sm := (c.sm.advance rootStates b.1 b.2).1 }
  attempt := fun c a out => (c.tryPublishCompletion a (fun _ _ _ => out)).1
  reaches := fun c a => (c.refusal a).isNone
  key := RootArgs.epochId
  records := fun c => c.attempts.map (fun t => (t.epochId, t.accepted))
  note := fun a accepted => (a.epochId, accepted)
  turned := fun _ _ => rfl
  refused := fun c a out h => by
    unfold RootEventContract.tryPublishCompletion
    cases hr : c.refusal a with
    | none =>
      rw [hr] at h
      cases h
    | some reason =>
      dsimp only
      rw [List.map_append]
      rfl
  returned := fun c a r h => by
    unfold RootEventContract.tryPublishCompletion
    rw [Option.isNone_iff_eq_none.mp h]
    dsimp only
    rw [List.map_append]
    rfl
  raised := fun c a e h => by
    unfold RootEventContract.tryPublishCompletion
    rw [Option.isNone_iff_eq_none.mp h]

/-! ## their memories -/

theorem lookup_cons_head (l : List (String × ℚ)) (k : String) (t : ℚ) :
    (((k, t) :: l).lookup k).isSome = true := by
  rw [List.lookup_cons_self]
  rfl

theorem event_remembers :
    Remembers (eventGuard R ε) (fun _ => True) (fun c k => c.known k = true) where
  turned := fun _ _ _ h => h
  kept := by
    intro c a out k h
    show LifecycleEventContract.known (c.tryPublishTerminal a _).1 k = true
    unfold LifecycleEventContract.tryPublishTerminal
    cases c.refusal a with
    | some reason => exact h
    | none =>
      cases out with
      | error e => exact h
      | ok r => exact lookup_cons_isSome h
  learns := by
    intro c a r h _
    show LifecycleEventContract.known (c.tryPublishTerminal a _).1 a.connector = true
    unfold LifecycleEventContract.tryPublishTerminal
    rw [Option.isNone_iff_eq_none.mp h]
    exact lookup_cons_head _ _ _
  asks := by
    intro c a h hk
    have hno := (LifecycleEventContract.refusal_none.mp (Option.isNone_iff_eq_none.mp h)).2.2
    rw [show c.known a.connector = true from hk] at hno
    cases hno

theorem root_remembers :
    Remembers (rootGuard R ε) (fun _ => True) (fun c k => c.known k = true) where
  turned := fun _ _ _ h => h
  kept := by
    intro c a out k h
    show RootEventContract.known (c.tryPublishCompletion a _).1 k = true
    unfold RootEventContract.tryPublishCompletion
    cases c.refusal a with
    | some reason => exact h
    | none =>
      cases out with
      | error e => exact h
      | ok r => exact lookup_cons_isSome h
  learns := by
    intro c a r h _
    show RootEventContract.known (c.tryPublishCompletion a _).1 a.epochId = true
    unfold RootEventContract.tryPublishCompletion
    rw [Option.isNone_iff_eq_none.mp h]
    exact lookup_cons_head _ _ _
  asks := by
    intro c a h hk
    have hno := (RootEventContract.refusal_none.mp (Option.isNone_iff_eq_none.mp h)).2.2
    rw [show c.known a.epochId = true from hk] at hno
    cases hno

theorem CompletionContract.accepts_iff {c : CompletionContract R} {a : CompletionArgs} :
    c.accepts a = true ↔ finalVerified a = true ∧ c.published = none ∧
      c.sm.state = some .work2Verified := by
  unfold accepts
  cases c.published <;> simp

/-- the returned record is the memory, and `None` is none -/
theorem completion_remembers : Remembers (completionGuard R ε) (fun r => r.isSome = true)
    (fun c _ => c.published.isSome = true) where
  turned := fun _ _ _ h => h
  kept := by
    intro c a out k h
    show (c.tryPublish a (fun _ _ _ => out)).1.published.isSome = true
    have hno : ¬ c.accepts a = true := by
      intro hacc
      rw [(CompletionContract.accepts_iff.mp hacc).2.1] at h
      cases h
    unfold CompletionContract.tryPublish
    rw [if_neg hno]
    exact h
  learns := by
    intro c a r h hr
    show (c.tryPublish (ε := ε) a (fun _ _ _ => .ok r)).1.published.isSome = true
    unfold CompletionContract.tryPublish
    rw [if_pos (show c.accepts a = true from h)]
    exact hr
  asks := by
    intro c a h hk
    rw [(CompletionContract.accepts_iff.mp h).2.1] at hk
    cases hk

/-! ## the contracts -/

theorem completion_sound {b : Surface} {sm : StateMachine IslandState} {c : CompletionContract R}
    (hc : CompletionContract.create b sm = .ok c)
    {ms : List (Move (Target IslandState × ℚ) CompletionArgs (Option R) ε)}
    {s : Guarded (CompletionContract R) CompletionArgs (Option R)}
    (h : run (completionGuard R ε).step { now := c } ms = some s) :
    (∀ t ∈ s.tried, t.published = true → t.before.sm.state = some .work2Verified ∧
      CompletionContract.finalVerified t.arg = true) ∧
    ((completionGuard R ε).Sound s ↔
      stepsMeet (completionGuard R ε).step
        ((completionGuard R ε).Marked fun r => r.isSome = true) { now := c } ms) := by
  constructor
  · intro t ht hp
    obtain ⟨hver, _, hst⟩ := CompletionContract.accepts_iff.mp (Guard.gated_run h t ht hp)
    exact ⟨hst, hver⟩
  · refine Guard.marked_iff completion_remembers ?_ h
    unfold CompletionContract.create at hc
    split at hc
    · cases hc
      rfl
    · cases hc

theorem event_sound {b : Surface} {sm : StateMachine ArmState} {c : LifecycleEventContract}
    (hc : LifecycleEventContract.create b sm = .ok c)
    {ms : List (Move (Target ArmState × ℚ) EventArgs R ε)} {s : Guarded LifecycleEventContract EventArgs R}
    (h : run (eventGuard R ε).step { now := c } ms = some s) :
    (∀ t ∈ s.tried, t.published = true → t.before.sm.state = some .evidenceCollected ∧
      t.arg.connector ∈ t.arg.departedConnectors) ∧
    ((eventGuard R ε).Sound s ↔
      stepsMeet (eventGuard R ε).step (eventGuard R ε).Returns { now := c } ms) := by
  constructor
  · intro t ht hp
    obtain ⟨hst, hdep, _⟩ := LifecycleEventContract.refusal_none.mp
      (Option.isNone_iff_eq_none.mp (Guard.gated_run h t ht hp))
    exact ⟨hst, hdep⟩
  · refine Guard.remembered_iff event_remembers ?_ h
    unfold LifecycleEventContract.create at hc
    split at hc
    · cases hc
      rfl
    · cases hc

theorem root_sound {b : Surface} {sm : StateMachine RootState} {c : RootEventContract R}
    (hc : RootEventContract.create b sm = .ok c)
    {ms : List (Move (Target RootState × ℚ) RootArgs R ε)} {s : Guarded (RootEventContract R) RootArgs R}
    (h : run (rootGuard R ε).step { now := c } ms = some s) :
    (∀ t ∈ s.tried, t.published = true → t.before.sm.state = some .resultVerified ∧
      t.arg.resultVerified = true) ∧
    ((rootGuard R ε).Sound s ↔
      stepsMeet (rootGuard R ε).step (rootGuard R ε).Returns { now := c } ms) := by
  constructor
  · intro t ht hp
    obtain ⟨hver, hst, _⟩ := RootEventContract.refusal_none.mp
      (Option.isNone_iff_eq_none.mp (Guard.gated_run h t ht hp))
    exact ⟨hst, hver⟩
  · refine Guard.remembered_iff root_remembers ?_ h
    unfold RootEventContract.create at hc
    split at hc
    · cases hc
      rfl
    · cases hc

/-- **Publication guards.**  Whatever the backends return or raise, a publication is made in its state
and for a verified result or a departed connector.  At most one returns for a run, a connector or an
epoch, and every attempt is recorded with its fate, if and only if no publication raises, and in the
completion contract none is made after one that returned `None`. -/
theorem publication_guards (R ε : Type) :
    (∀ b sm (c : CompletionContract R), CompletionContract.create b sm = .ok c →
      ∀ ms s, run (completionGuard R ε).step { now := c } ms = some s →
        (∀ t ∈ s.tried, t.published = true → t.before.sm.state = some .work2Verified ∧
          CompletionContract.finalVerified t.arg = true) ∧
        ((completionGuard R ε).Sound s ↔
          stepsMeet (completionGuard R ε).step
            ((completionGuard R ε).Marked fun r => r.isSome = true) { now := c } ms)) ∧
    (∀ b sm c, LifecycleEventContract.create b sm = .ok c →
      ∀ ms s, run (eventGuard R ε).step { now := c } ms = some s →
        (∀ t ∈ s.tried, t.published = true → t.before.sm.state = some .evidenceCollected ∧
          t.arg.connector ∈ t.arg.departedConnectors) ∧
        ((eventGuard R ε).Sound s ↔
          stepsMeet (eventGuard R ε).step (eventGuard R ε).Returns { now := c } ms)) ∧
    (∀ b sm (c : RootEventContract R), RootEventContract.create b sm = .ok c →
      ∀ ms s, run (rootGuard R ε).step { now := c } ms = some s →
        (∀ t ∈ s.tried, t.published = true → t.before.sm.state = some .resultVerified ∧
          t.arg.resultVerified = true) ∧
        ((rootGuard R ε).Sound s ↔
          stepsMeet (rootGuard R ε).step (rootGuard R ε).Returns { now := c } ms)) :=
  ⟨fun _ _ _ hc _ _ h => completion_sound hc h, fun _ _ _ hc _ _ h => event_sound hc h,
    fun _ _ _ hc _ _ h => root_sound hc h⟩

end

/-- a completion contract over a new state machine -/
def newContract : CompletionContract Nat :=
  { sm := { state := some .starting, history := [(some .starting, 0)] } }

/-- the way to `WORK_2_VERIFIED` -/
def toVerified : List (Move (Target IslandState × ℚ) CompletionArgs (Option Nat) String) :=
  [.turn (.value (some .ready), 1), .turn (.value (some .work1Verified), 2),
    .turn (.value (some .idle), 3), .turn (.value (some .work2Verified), 4)]

def verifiedArgs : CompletionArgs :=
  { epochId := "epoch-1", connectorIds := ["A", "B"]
    finalResult := some { verified := true, digest := none, finalCase := none }, tMono := 5 }

/-- the publication raises -/
theorem raising_returns : ∃ s, run (completionGuard Nat String).step { now := newContract }
    (toVerified ++ [.attempt verifiedArgs (.error "OSError")]) = some s ∧
      s.tried.length = 1 ∧ s.now.attempts = [] := ⟨_, rfl, rfl, rfl⟩

/-- two publications that return `None` -/
theorem none_returns : ∃ s, run (completionGuard Nat String).step { now := newContract }
    (toVerified ++ [.attempt verifiedArgs (.ok none), .attempt verifiedArgs (.ok none)]) = some s ∧
      (completionGuard Nat String).publications s.tried () = 2 := ⟨_, rfl, rfl⟩

/-- an attempt without a record, and a run with two publications -/
theorem publication_unrecorded :
    (¬ ∀ ms s, run (completionGuard Nat String).step { now := newContract } ms = some s →
      (completionGuard Nat String).records s.now =
        s.tried.map (fun t => (completionGuard Nat String).note t.arg t.published)) ∧
    ¬ ∀ ms s, run (completionGuard Nat String).step { now := newContract } ms = some s →
      ∀ k, (completionGuard Nat String).publications s.tried k ≤ 1 := by
  constructor
  · intro h
    obtain ⟨s, hrun, htried, hnone⟩ := raising_returns
    have hlen := congrArg List.length (h _ s hrun)
    have hrec : (completionGuard Nat String).records s.now = [] := by
      show s.now.attempts.map _ = []
      rw [hnone]
      rfl
    rw [hrec, List.length_map, htried] at hlen
    cases hlen
  · intro h
    obtain ⟨s, hrun, htwo⟩ := none_returns
    have hone := h _ s hrun ()
    rw [htwo] at hone
    exact absurd hone (by decide)

end Supervision

end RayX
