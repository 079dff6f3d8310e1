import RayX.Facade.Future
import RayX.Actor.Engine
import RayX.Bridge.Slot

/-!
# The Runtime of the Python facade

`Runtime` and `ActorHandle` of `runtime/__init__.py` over the native engine: the operation lanes, the
actors of `RuntimeEngine`, the Python objects and the GIL.

* `Runtime`             both layers; `engine` is the native half of the actors, a lane that is gone
                        stays as history;
* `submitOperation`, `createActor`, `call`, `releaseActor`, `shutdown`, `result`, `cancel`
                        the calls, each with what it raises;
* `drive`               the driver thread inside `release_actor` and `shutdown`, without the GIL;
* `bridge`, `bridged`   the threads in `bridge_dispatch`, from the slot to the row that they wait for;
* `Runtime.step`        a call, a thread that returns from `cancel()`, the driver, the bridge, a lane.
-/

namespace RayX
open Sys
namespace Facade

/-! ## the state -/

/-- the checked arguments of `Runtime(...)`, and the ids that the operation lanes draw -/
structure RuntimeConfig where
  numLanes : Nat
  one_lane : 1 ≤ numLanes
  maxQd : Int
  nonblockingOpLanes : Bool := false
  maxInflightPerLane : Int := 1
  ids : Nat → String

/-- `lane` is history: the lane that `create_actor` made -/
structure ActorHandle where
  actorId : String
  actorType : String
  released : Bool := false
  lane : Nat

/-- the native call that the driver thread is in, after it has released the GIL -/
inductive Inside where
  | python
  | releasing (h : Nat)
  | draining
  | stoppingActors
  | stoppingOps (todo : List Chore)

/-- a thread in `bridge_dispatch` that has acquired the slot; `picked`, `waiting`: `k` is its lane, and
it is in `fut.get()` of item `i` there -/
inductive Request where
  | acquired (opId : String) (a : OpArgs)
  | picked (k : Nat) (e : OpEntry ActorState) (a : OpArgs)
  | waiting (k i : Nat)

/-- `cancelling`: a thread holds the GIL in `cancel()` and still owes the `set_value`;
`requests`: those that have acquired the slot and not released it -/
structure Runtime where
  closed : Bool := false
  engine : Engine
  ops : List (Lane ActorState)
  rr : Nat := 0
  slot : Slot := ({} : Slot).publish 0
  requests : List Request := []
  handles : List ActorHandle := []
  futures : List RuntimeFuture := []
  inside : Inside := .python
  cancelling : Option (Place × Nat) := none

/-- what a call raises: an error of the facade, its `QueueFullError`, or an exception of the
extension -/
inductive Raised where
  | facade (e : PyErr)
  | queueFull (msg : String)
  | native (e : PyErr)
  deriving DecidableEq

/-- the argument of `release_actor` -/
inductive ActorArg where
  | handle (h : Nat)
  | other (typeName : String)

def shutDown : Raised := .facade ⟨.runtimeError, "Runtime is shut down"⟩

/-- the text of a `str`, which is what passes the validators -/
def textOf : PyObj → String
  | .str s => s
  | _ => ""

namespace RuntimeConfig

def mode (cfg : RuntimeConfig) : LaneMode :=
  if cfg.nonblockingOpLanes then .asyncNonBlocking else .serialBlocking

/-- an operation lane; no operation touches the state -/
def opLane (cfg : RuntimeConfig) (k : Nat) : Lane ActorState :=
  Lane.create (cfg.ids k) cfg.mode cfg.maxInflightPerLane (.counter ⟨0⟩)

end RuntimeConfig

/-- the next lane operation of a chore on an operation lane -/
def opChore (now : Int64) (l : Lane ActorState) : Chore → Option (Act ActorState × List Chore)
  | .joining k =>
    match l.stopper with
    | .joining => some (.join, if l.mode = .asyncNonBlocking then [.joining k] else [])
    | .awaiting => some (.awaitInflight, [])
    | _ => none
  | c => c.next now l

namespace Runtime

def create (cfg : RuntimeConfig) : Runtime :=
  { engine := Engine.create cfg.maxQd, ops := (List.range cfg.numLanes).map cfg.opLane }

def laneAt (rt : Runtime) : Place → Option (Lane ActorState)
  | .op k => rt.ops[k]?
  | .actor k => (rt.engine.lanes[k]?).map ActorLane.lane

/-- what the promise of a future holds -/
def promise (rt : Runtime) (key : Place × Nat) : List RuntimeResult :=
  match rt.laneAt key.1 with
  | some l => l.prom key.2
  | none => []

def token (rt : Runtime) (key : Place × Nat) : Token :=
  match rt.laneAt key.1 with
  | some l => l.tok key.2
  | none => {}

/-- one step of a lane that is no admission and no chore -/
def stepLane (rt : Runtime) (p : Place) (a : Act ActorState) : Option Runtime :=
  match p with
  | .op k =>
    (rt.ops[k]?).bind fun l => (l.step a).map fun l' => { rt with ops := rt.ops.set k l' }
  | .actor k => (rt.engine.step (.lane k a)).map fun e => { rt with engine := e }

/-! ## the calls -/

/-- `submit_operation` of the engine up to the lane -/
def nativeOperation (opId : String) (args : List PyObj) :
    Except PyErr (OpEntry ActorState × OpArgs) :=
  match findOp opId with
  | none => valueError ("unknown operation id: " ++ opId)
  | some e =>
    if args.length ≠ e.arity then valueError ("wrong number of arguments for operation: " ++ opId)
    else (marshalArgs ("operation '" ++ opId ++ "'") args).map fun a => (e, a)

/-- `try_submit` under a cap, `submit` without -/
def opAdmission (rt : Runtime) (l : Lane ActorState) (e : OpEntry ActorState) (a : OpArgs) :
    Act ActorState :=
  let task := makeOpTask e.fn a l.actorId
  if 0 ≤ rt.engine.maxQd then .trySubmit task rt.engine.maxQd (e.checkpointCount a) e.policy
  else .submit task (e.checkpointCount a) e.policy

/-- `rr_.fetch_add(1)` -/
def next (rt : Runtime) : Nat := (rt.rr + 1) % 2 ^ 64

/-- the cursor moves on for a rejected call too -/
def enqueueOp (rt : Runtime) (e : OpEntry ActorState) (a : OpArgs) (submitNs : Int) :
    Option (Except Raised Nat × Runtime) :=
  let k := rt.rr % rt.ops.length
  (rt.ops[k]?).bind fun l =>
    (l.step (rt.opAdmission l e a)).map fun l' =>
      if l'.admitted.length = l.admitted.length then
        (.error (.queueFull ("target lane is full (max_queue_depth_per_lane reached); "
          ++ "the submit was rejected and created no future")), { rt with rr := rt.next })
      else (.ok rt.futures.length,
        { rt with
          rr := rt.next
          ops := rt.ops.set k l'
          futures := rt.futures ++
            [{ place := .op k, id := l.admitted.length, submitNs := submitNs }] })

def submitOperation (rt : Runtime) (opId : PyObj) (args : List PyObj) (submitNs : Int) :
    Option (Except Raised Nat × Runtime) :=
  if rt.closed then some (.error shutDown, rt)
  else
    match validateCall opId args opTable with
    | .error e => some (.error (.facade e), rt)
    | .ok validated =>
      match nativeOperation (textOf opId) validated with
      | .error e => some (.error (.native e), rt)
      | .ok (e, a) => rt.enqueueOp e a submitNs

/-- `id` is the id that the lane of the new actor draws -/
def createActor (rt : Runtime) (id : String) (actorType : PyObj) (args : List PyObj) :
    Except Raised Nat × Runtime :=
  if rt.closed then (.error shutDown, rt)
  else
    match validateActorCreate actorType args with
    | .error e => (.error (.facade e), rt)
    | .ok validated =>
      match rt.engine.factory id (textOf actorType) validated with
      | .error e => (.error (.native e), rt)
      | .ok st => (.ok rt.handles.length,
        { rt with
          engine := rt.engine.insert id (textOf actorType) st
          handles := rt.handles ++
            [{ actorId := id, actorType := textOf actorType, lane := rt.engine.lanes.length }] })

/-- the number of items that lane `k` of an actor has admitted -/
def admittedAt (e : Engine) (k : Nat) : Nat :=
  match e.lanes[k]? with
  | some al => al.lane.admitted.length
  | none => 0

/-- `ActorHandle.call` -/
def call (rt : Runtime) (h : Nat) (methodId : PyObj) (args : List PyObj) (submitNs : Int) :
    Option (Except Raised Nat × Runtime) :=
  (rt.handles[h]?).bind fun hd =>
    if rt.closed then some (.error shutDown, rt)
    else if hd.released then
      some (.error (.facade ⟨.runtimeError,
        "actor has been released; no further method calls are possible"⟩), rt)
    else
      match validateActorCall (.str hd.actorType) methodId args with
      | .error e => some (.error (.facade e), rt)
      | .ok validated =>
        match rt.engine.target hd.actorId (textOf methodId) validated with
        | .error e => some (.error (.native e), rt)
        | .ok (k, c, method) =>
          (rt.engine.submit k c method).map fun e =>
            if e.calls.length = rt.engine.calls.length then
              (.error (.queueFull ("actor lane is full (max_queue_depth_per_lane reached); "
                ++ "the call was rejected and created no future")), rt)
            else (.ok rt.futures.length,
              { rt with
                engine := e
                futures := rt.futures ++
                  [{ place := .actor k, id := admittedAt rt.engine k, submitNs := submitNs }] })

/-- up to the point where the native half has released the GIL -/
def releaseActor (rt : Runtime) (arg : ActorArg) : Option (Except Raised Unit × Runtime) :=
  if rt.closed then some (.error shutDown, rt)
  else
    match arg with
    | .other typeName => some (.error (.facade ⟨.typeError,
        "release_actor() requires an ActorHandle, got " ++ typeName⟩), rt)
    | .handle h =>
      (rt.handles[h]?).bind fun hd =>
        if hd.released then
          some (.error (.facade ⟨.runtimeError, "actor already released"⟩), rt)
        else
          match rt.engine.actors.lookup hd.actorId with
          | none => some (.error (.native ⟨.valueError, "unknown actor_id: " ++ hd.actorId⟩), rt)
          | some _ => (rt.engine.step (.release hd.actorId)).map fun e =>
              (.ok (), { rt with engine := e, inside := .releasing h })

/-- up to the point where the native half has released the GIL; a second call returns at once -/
def shutdown (rt : Runtime) : Option Runtime :=
  if rt.closed then some rt
  else (rt.engine.step .shutdown).map fun e =>
    { rt with closed := true, engine := e, inside := .draining }

/-- `RuntimeFuture.result`; `none`: it waits -/
def result (rt : Runtime) (i : Nat) (recvNs : Int) :
    Option (Except PyErr OperationResult × Runtime) :=
  (rt.futures[i]?).bind fun f =>
    (f.result (rt.promise f.key) recvNs).map fun (out, f') =>
      (out, { rt with futures := rt.futures.set i f' })

/-- `RuntimeFuture.cancel` up to the end of the critical section of the token -/
def cancel (rt : Runtime) (i : Nat) : Option (Bool × Runtime) :=
  (rt.futures[i]?).bind fun f =>
    (rt.stepLane f.place (.cancel f.id)).map fun rt' =>
      let answer := (rt.token f.key).cancel.2
      (answer.returned,
        { rt' with cancelling := if answer = .fulfil then some f.key else none })

/-! ## the threads without the GIL -/

/-- the driver thread in a native call; it takes the GIL back before it returns to Python -/
def drive (rt : Runtime) (now : Int64) : Option Runtime :=
  match rt.inside with
  | .python => none
  | .releasing h =>
    match rt.engine.driver with
    | .idle =>
      if rt.cancelling = none then
        some { rt with
          handles := rt.handles.modify h fun hd => { hd with released := true }
          inside := .python }
      else none
    | _ => (rt.engine.step (.drive now)).map fun e => { rt with engine := e }
  | .draining =>
    -- `drain_and_unpublish`: the critical section, and then the wait; after it the GIL is taken back
    if rt.slot.bridge.isSome then some { rt with slot := rt.slot.drain }
    else if rt.slot.inFlight = 0 ∧ rt.cancelling = none then
      some { rt with inside := .stoppingActors }
    else none
  | .stoppingActors =>
    match rt.engine.driver with
    | .idle => some { rt with inside := .stoppingOps (Engine.teardown (List.range rt.ops.length)) }
    | _ => (rt.engine.step (.drive now)).map fun e => { rt with engine := e }
  | .stoppingOps [] =>
    if rt.cancelling = none then some { rt with inside := .python } else none
  | .stoppingOps (c :: todo) =>
    (rt.ops[c.lane]?).bind fun l =>
      (opChore now l c).bind fun (a, rest) =>
        (l.step a).map fun l' =>
          { rt with ops := rt.ops.set c.lane l', inside := .stoppingOps (rest ++ todo) }

/-- a request of the bridge; one that the slot turns away is over -/
def bridge (rt : Runtime) (opId : String) (a : OpArgs) : Runtime :=
  match rt.slot.acquire with
  | (.error _, _) => rt
  | (.ok _, slot) => { rt with slot := slot, requests := rt.requests ++ [.acquired opId a] }

/-- `ReleaseGuard` -/
def leave (rt : Runtime) (i : Nat) : Runtime :=
  { rt with slot := rt.slot.release, requests := rt.requests.eraseIdx i }

/-- the next step of request `i`: `dispatch_op_typed`, which knows no cap and makes no future in Python,
up to `rr_.fetch_add(1)`, its `submit`, and the end of `fut.get()` -/
def bridged (rt : Runtime) (i : Nat) : Option Runtime :=
  (rt.requests[i]?).bind fun
    | .acquired opId a =>
      match findOp opId with
      | none => some (rt.leave i)
      | some e =>
        if a.length ≠ e.arity then some (rt.leave i)
        else some { rt with
          rr := rt.next
          requests := rt.requests.set i (.picked (rt.rr % rt.ops.length) e a) }
    | .picked k e a =>
      (rt.ops[k]?).bind fun l =>
        (l.step (.submit (makeOpTask e.fn a l.actorId) (e.checkpointCount a) e.policy)).map fun l' =>
          { rt with
            ops := rt.ops.set k l'
            requests := rt.requests.set i (.waiting k l.admitted.length) }
    | .waiting k j => if rt.promise (.op k, j) = [] then none else some (rt.leave i)

end Runtime

/-- the steps of a lane and its bodies; the cancels come through `cancel` -/
def works (a : Act ActorState) : Bool :=
  match a with
  | .cancel _ => false
  | .cancelFulfil _ _ => false
  | a => a.free

inductive Move where
  | submitOperation (opId : PyObj) (args : List PyObj) (submitNs : Int)
  | createActor (id : String) (actorType : PyObj) (args : List PyObj)
  | call (h : Nat) (methodId : PyObj) (args : List PyObj) (submitNs : Int)
  | releaseActor (arg : ActorArg)
  | shutdown
  | result (i : Nat) (recvNs : Int)
  | cancel (i : Nat)
  | cancelReturn (now : Int64)
  | drive (now : Int64)
  | bridge (opId : String) (a : OpArgs)
  | bridged (i : Nat)
  | lane (p : Place) (a : Act ActorState)

/-- the calls of the thread that owns the Runtime -/
def Move.driving : Move → Bool
  | .submitOperation _ _ _ => true
  | .createActor _ _ _ => true
  | .call _ _ _ _ => true
  | .releaseActor _ => true
  | .shutdown => true
  | _ => false

/-- the calls of any thread, under the GIL -/
def Move.holdsGil : Move → Bool
  | .result _ _ => true
  | .cancel _ => true
  | m => m.driving

namespace Runtime

/-- what a move does once its thread may run -/
def perform (rt : Runtime) : Move → Option Runtime
  | .submitOperation opId args submitNs => (rt.submitOperation opId args submitNs).map Prod.snd
  | .createActor id actorType args => some (rt.createActor id actorType args).2
  | .call h methodId args submitNs => (rt.call h methodId args submitNs).map Prod.snd
  | .releaseActor arg => (rt.releaseActor arg).map Prod.snd
  | .shutdown => rt.shutdown
  | .result i recvNs => (rt.result i recvNs).map Prod.snd
  | .cancel i => (rt.cancel i).map Prod.snd
  | .cancelReturn now =>
    match rt.cancelling with
    | some (p, i) => (rt.stepLane p (.cancelFulfil i now)).map fun rt => { rt with cancelling := none }
    | none => none
  | .drive now => rt.drive now
  | .bridge opId a => some (rt.bridge opId a)
  | .bridged i => rt.bridged i
  | .lane p a => if works a then rt.stepLane p a else none

/-- the driver is in Python, and nobody holds the GIL -/
def inPython (rt : Runtime) : Bool :=
  match rt.inside with
  | .python => true
  | _ => false

def step (rt : Runtime) (m : Move) : Option Runtime :=
  if m.driving = true ∧ rt.inPython = false then none
  else if m.holdsGil = true ∧ rt.cancelling ≠ none then none
  else rt.perform m

end Runtime

end Facade
end RayX
