import RayX.Lib.Count
import RayX.Ops.Chain

/-!
# The gate of `barrier_fanin`

One call of `barrier_fanin`: `n` leaves on the default pool, the thread of the body with its
watchdog, and the reduction.  Each atomic operation is a step of its own, and the scheduler picks the
next one.

* `GateVars`           the atomics and the promise of a call;
* `openStep`           `open_gate`, shared by the last arriver and the watchdog;
* `leafStep`           a leaf: compute, arrive, maybe open, suspend, `bump_max`, wait at the gate,
                       release;
* `mainStep`           the body: launch, the watchdog loop, the reduction and the witness;
* `Gate.step`          one step of either, with the failures of the weak exchange and the deadline
                       as labels.
-/

namespace RayX
open Sys

/-! ## shared variables -/

inductive Opener where
  | none
  | lastArriver
  | watchdog
  deriving DecidableEq, Repr

def Opener.name : Opener → String
  | .none => "none"
  | .lastArriver => "last_arriver"
  | .watchdog => "watchdog"

structure GateVars where
  arrived : Nat := 0
  released : Nat := 0
  inSuspend : Nat := 0
  maxInSuspend : Nat := 0
  orderingViolations : Nat := 0
  opened : Bool := false
  opener : Opener := .none
  reductionSawAll : Bool := false
  /-- calls of `gate_prom.set_value` -/
  sets : Nat := 0

/-- inside `open_gate`: before the exchange, before the store of the opener, before `set_value` -/
inductive OpenPc where
  | cas
  | store
  | set
  deriving DecidableEq, Repr

/-- the next step of `open_gate`; `none` when it returns -/
def openStep (who : Opener) (g : GateVars) : OpenPc → GateVars × Option OpenPc
  | .cas => if g.opened then (g, none) else ({ g with opened := true }, some .store)
  | .store => ({ g with opener := who }, some .set)
  | .set => ({ g with sets := g.sets + 1 }, none)

/-! ## leaves -/

/-- where a leaf is; the names say what it does next -/
inductive LeafPc where
  | queued
  | arrives
  | opens (o : OpenPc)
  | suspends
  | bumps (v : Nat)
  | swaps (v cur : Nat)
  | blocked
  | resumes
  | checks
  | violates
  | releases
  | returned
  deriving DecidableEq, Repr

/-- the next step of a leaf; `weak` is a failure of the weak exchange for no reason -/
def leafStep (n : Nat) (weak : Bool) (g : GateVars) : LeafPc → Option (GateVars × LeafPc)
  | .queued => some (g, .arrives)
  | .arrives =>
    -- `got == n`
    some ({ g with arrived := g.arrived + 1 }, if g.arrived + 1 = n then .opens .cas else .suspends)
  | .opens o =>
    match openStep .lastArriver g o with
    | (g', some o') => some (g', .opens o')
    | (g', none) => some (g', .suspends)
  | .suspends => some ({ g with inSuspend := g.inSuspend + 1 }, .bumps (g.inSuspend + 1))
  | .bumps v => some (g, .swaps v g.maxInSuspend)
  | .swaps v cur =>
    if cur < v then
      if g.maxInSuspend = cur ∧ weak = false then some ({ g with maxInSuspend := v }, .blocked)
      else some (g, .swaps v g.maxInSuspend)
    else some (g, .blocked)
  | .blocked => if 0 < g.sets then some (g, .resumes) else none
  | .resumes => some ({ g with inSuspend := g.inSuspend - 1 }, .checks)
  | .checks => some (g, if g.opened then .releases else .violates)
  | .violates => some ({ g with orderingViolations := g.orderingViolations + 1 }, .releases)
  | .releases => some ({ g with released := g.released + 1 }, .returned)
  | .returned => none

/-! ## the body -/

inductive MainPc where
  | launch (j : Nat)
  | polls
  | clock
  | opens (o : OpenPc)
  | sleeps
  | waits
  | reduces
  | notes (saw : Bool)
  | violates
  | folds
  | records
  | finished
  deriving DecidableEq, Repr

/-- the leaves launched so far, of `n` -/
def MainPc.launched (n : Nat) : MainPc → Nat
  | .launch j => j
  | _ => n

/-- what the body records about the gate -/
structure BarrierFaninWitness where
  leavesRequested : Nat
  arrivedCount : Nat
  releasedCount : Nat
  opener : String
  reductionAfterAllLeaves : Bool
  orderingViolations : Nat
  cleanExit : Bool
  watchdogOpened : Bool
  joinedCount : Nat
  maxSimultaneouslySuspendedLeaves : Nat
  deriving DecidableEq, Repr

def witnessOf (n : Nat) (g : GateVars) : BarrierFaninWitness :=
  { leavesRequested := n, arrivedCount := g.arrived, releasedCount := g.released,
    opener := g.opener.name, reductionAfterAllLeaves := g.reductionSawAll,
    orderingViolations := g.orderingViolations, cleanExit := decide (g.released = n),
    watchdogOpened := decide (g.opener = .watchdog), joinedCount := g.released,
    maxSimultaneouslySuspendedLeaves := g.maxInSuspend }

/-- one call: `value j` is the local `v` of leaf `j`, the content of its future once it returned -/
structure Gate where
  vars : GateVars
  leaf : Nat → LeafPc
  value : Nat → Int64
  main : MainPc
  result : Int64
  witness : Option BarrierFaninWitness

namespace Gate

def init : Gate :=
  { vars := {}, leaf := fun _ => .queued, value := fun _ => 0, main := .launch 0, result := 0,
    witness := none }

/-- the futures of all the leaves are ready -/
def joined (s : Gate) (n : Nat) : Bool := (List.range n).all fun j => s.leaf j == .returned

/-- the next step of the body; `late` is the answer of the clock -/
def mainStep (n : Nat) (late : Bool) (s : Gate) : Option Gate :=
  match s.main with
  | .launch j => some { s with main := if j < n then .launch (j + 1) else .polls }
  | .polls => some { s with main := if s.vars.arrived < n then .clock else .waits }
  | .clock => some { s with main := if late then .opens .cas else .sleeps }
  | .opens o =>
    match openStep .watchdog s.vars o with
    | (g, some o') => some { s with vars := g, main := .opens o' }
    | (g, none) => some { s with vars := g, main := .waits }
  | .sleeps => some { s with main := .polls }
  -- the continuation on `when_all` runs once every future is ready
  | .waits => if s.joined n then some { s with main := .reduces } else none
  | .reduces => some { s with main := .notes (decide (s.vars.released = n)) }
  | .notes saw => some { s with
      vars := { s.vars with reductionSawAll := saw }, main := if saw then .folds else .violates }
  | .violates => some { s with
      vars := { s.vars with orderingViolations := s.vars.orderingViolations + 1 }, main := .folds }
  | .folds => some { s with
      result := (maskedFold ((List.range n).map fun j => (s.value j).toUInt64)).toInt64,
      main := .records }
  -- no other thread is left: the loads of the witness are one step
  | .records => some { s with witness := some (witnessOf n s.vars), main := .finished }
  | .finished => none

inductive Act where
  | leaf (j : Nat) (weak : Bool)
  | main (late : Bool)
  deriving DecidableEq, Repr

section
variable (seed quantum : Int64) (n : Nat)

/-- leaf `j` computes `chain_stage` when it starts -/
def computed (s : Gate) (j : Nat) : Nat → Int64 :=
  if s.leaf j = .queued then Function.update s.value j (chainStage (seedAt seed j) quantum) else s.value

def step (s : Gate) : Act → Option Gate
  | .leaf j weak =>
    if j < s.main.launched n then
      (leafStep n weak s.vars (s.leaf j)).map fun r =>
        { s with vars := r.1, leaf := Function.update s.leaf j r.2, value := s.computed seed quantum j }
    else none
  | .main late => mainStep n late s

end

end Gate

end RayX
