import RayX.Bridge.Slot
import RayX.Endpoint.Transport
import RayX.Ops.Validate

/-!
# Bridge calls

One endpoint call of a Runtime operation, from `Connection._call_op` to the row of the operation and
back, in the same process or over the wire.

* `bridgeDispatch`  op-code, arity, cap and tags, the slot, the dispatch and the marshalled row;
* `OpLanes`         the operation lanes of a live Runtime: every row is one that a run of the service
                    task ends with;
* `Peer.callOp`, `callOp`   the native connection and the Python method over it;
* `bridgeSpec`      what a bridge operation says of its arguments, without lanes and frames;
* `call_agree`      **both paths give the same value or the same exception**.
-/

namespace RayX
open Sys

/-! ## the dispatch of an operation -/

/-- the lanes of one Runtime; clocks and polls are theirs, the row is of the dispatched task -/
structure OpLanes where
  row : OpEntry Unit → OpArgs → RuntimeResult
  ran : ∀ e args, ∃ actor, (makeOpTask e.fn args actor).Ends () (.ok (row e args)) ()

/-- `dispatch_op_typed` and the `get` of its future -/
def dispatchOpTyped (lanes : OpLanes) (opId : String) (args : OpArgs) :
    Except Exc RuntimeResult :=
  match (findOp opId : Option (OpEntry Unit)) with
  | none => .error (.invalidArgument ("unknown operation id: " ++ opId))
  | some e =>
    if args.length ≠ e.arity then
      .error (.invalidArgument ("wrong number of arguments for operation: " ++ opId))
    else .ok (lanes.row e args)

/-! ## the bridge dispatch -/

def bridgeOpSquare : Int := 1
def bridgeOpAdd : Int := 2
def bridgeOpFanoutSum : Int := 3
def bridgeFanoutNMax : Int64 := 1000000

/-- the closed op-code table: operation id and arity -/
def bridgeOpOf (opCode : Int) : Option (String × Nat) :=
  if opCode = bridgeOpSquare then some ("square", 1)
  else if opCode = bridgeOpAdd then some ("add", 2)
  else if opCode = bridgeOpFanoutSum then some ("fanout_sum", 2)
  else none

def Unavailable.status : Unavailable → Int
  | .absent => callRuntimeAbsent
  | .draining => callRuntimeDraining

/-- the upper bound of `n`; the lower one is left to the body -/
def overCap (opCode : Int) : List CallOpArg → Bool
  | a :: _ => opCode == bridgeOpFanoutSum && a.tag == 0 && decide (bridgeFanoutNMax < a.bits)
  | [] => false

/-- `none` on a tag that is not `int64` -/
def bridgeArgs (args : List CallOpArg) : Option OpArgs :=
  if args.all (fun a => a.tag == 0) then some (args.map fun a => .int64 a.bits) else none

/-- the typed result of a completed row, `CALL_OP_FAILED` for any other row, and the two handlers -/
def callOfRow : Except Exc RuntimeResult → CallResult
  | .ok r =>
    if r.status = .completed ∧ r.hasValue = true then
      match r.value with
      | .int64 v => { status := callOk, tag := 0, bits := v }
      | .double x => { status := callOk, tag := 1, bits := x.toBits.toInt64 }
    else callStatus callOpFailed
  | .error (.invalidArgument _) => callStatus callOpBadargs
  | .error _ => callStatus callInternal

/-- the result and the slot after the release; `lanes` are those of each Runtime -/
def bridgeDispatch (slot : Slot) (lanes : Nat → OpLanes) (opCode : Int) (args : List CallOpArg) :
    CallResult × Slot :=
  match bridgeOpOf opCode with
  | none => (callStatus callOpUnknown, slot)
  | some (opId, arity) =>
    if args.length ≠ arity then (callStatus callOpBadargs, slot)
    else if overCap opCode args then (callStatus callOpBadargs, slot)
    else
      match bridgeArgs args with
      | none => (callStatus callOpBadargs, slot)
      | some oa =>
        match slot.acquire with
        | (.error why, slot) => (callStatus why.status, slot)
        | (.ok r, slot) => (callOfRow (dispatchOpTyped (lanes r) opId oa), slot.release)

/-- the dispatch as the transport's handler -/
def bridgeHandler (slot : Slot) (lanes : Nat → OpLanes) : BridgeCallOpFn :=
  fun opCode args => (bridgeDispatch slot lanes opCode args).1

/-! ## the native connection -/

/-- `CallOpArg{0, v}` -/
def argOf (v : Int64) : CallOpArg := { tag := 0, bits := v }

/-- the Python value of a result, `None` unless `CALL_OK` -/
def callValue (cr : CallResult) : PyObj :=
  if cr.status = callOk then
    if cr.tag = 0 then .int cr.bits.toInt else .float (Float.ofBits cr.bits.toUInt64)
  else .none

/-- `_Connection::call_op` -/
def Peer.callOp (junk : Junk) (closed : Bool) (dispatch : BridgeCallOpFn) (opCode : Int)
    (args : List Int64) (peer : Peer) : Int × PyObj :=
  let av := args.map argOf
  let cr :=
    if closed then callStatus callConnClosed
    else
      match peer with
      | .remote peerId io => callOpRemote peerId junk io opCode av
      | .inProcess none => callStatus callPeerClosed
      | .inProcess (some s) => if s.closed then callStatus callPeerClosed else dispatch opCode av
  (cr.status, callValue cr)

/-! ## the Python method -/

/-- the classes of `endpoint/_errors.py` -/
inductive EndpointClass where
  | error
  | validation
  | notFound
  | closed
  | protocol
  | unreachable
  | timeout
  | runtimeUnavailable
  | operation
  deriving DecidableEq, Repr

structure EndpointErr where
  cls : EndpointClass
  msg : String
  deriving DecidableEq, Repr

/-- `_BRIDGE_OPS`: op-code and arity -/
def bridgeOps : List (String × Int × Nat) :=
  [("square", bridgeOpSquare, 1), ("add", bridgeOpAdd, 2), ("fanout_sum", bridgeOpFanoutSum, 2)]

/-- the checked arguments, as the native call receives them -/
def checkArgs (opId : String) : Nat → List PyObj → Except EndpointErr (List Int64)
  | _, [] => .ok []
  | i, .int n :: args =>
    if n < int64Min ∨ int64Max < n then
      .error ⟨.validation, s!"bridge op {pyRepr opId} argument {i} is out of int64 range"⟩
    else do
      let rest ← checkArgs opId (i + 1) args
      .ok (Int64.ofInt n :: rest)
  | i, _ :: _ => .error
      ⟨.validation, s!"bridge op {pyRepr opId} argument {i} must be a non-bool int (int64)"⟩

/-- the exception for every status but `CALL_OK` -/
def callError (opId : String) (status : Int) : EndpointErr :=
  if status = callPeerClosed ∨ status = callConnClosed then
    ⟨.closed, "connection/peer is closed (peer unreachable)"⟩
  else if status = callNotFound then
    ⟨.notFound, "peer process is listening but the endpoint id is not registered there"⟩
  else if status = callProtoErr then ⟨.protocol, "peer rejected the request proto_version"⟩
  else if status = callTimeout then ⟨.timeout, "bridge call timed out"⟩
  else if status = callRuntimeAbsent ∨ status = callRuntimeDraining then
    ⟨.runtimeUnavailable,
      "no live rayx.runtime.Runtime is attached in the peer process (absent or shutting down)"⟩
  else if status = callOpUnknown then
    ⟨.operation, s!"peer does not support bridge op {pyRepr opId}"⟩
  else if status = callOpBadargs then
    ⟨.validation, s!"peer rejected arguments for op {pyRepr opId}"⟩
  else if status = callOpFailed then ⟨.operation, s!"bridged operation {pyRepr opId} failed"⟩
  else if status = callInternal then
    ⟨.operation, s!"internal error dispatching bridged operation {pyRepr opId}"⟩
  else ⟨.error, s!"unexpected bridge call status {status}"⟩

/-- `Connection._call_op` over the native `call_op` -/
def callOp (native : Int → List Int64 → Int × PyObj) (closed : Bool) (opId : String)
    (args : List PyObj) : Except EndpointErr PyObj :=
  match bridgeOps.lookup opId with
  | none => .error ⟨.validation, s!"unknown bridge op {pyRepr opId}; v1 supports " ++
      pySorted (bridgeOps.map Prod.fst)⟩
  | some (opCode, arity) =>
    if args.length ≠ arity then
      .error ⟨.validation,
        s!"bridge op {pyRepr opId} expects {arity} argument(s), got {args.length}"⟩
    else do
      let iargs ← checkArgs opId 0 args
      if closed then .error ⟨.closed, "connection is closed"⟩
      else
        let r := native opCode iargs
        if r.1 = callOk then .ok r.2 else .error (callError opId r.1)

/-- a dispatch gives the slot back as it found it -/
theorem bridgeDispatch_slot (slot : Slot) (lanes : Nat → OpLanes) (opCode : Int)
    (args : List CallOpArg) : (bridgeDispatch slot lanes opCode args).2 = slot := by
  unfold bridgeDispatch
  split
  · rfl
  · split
    · rfl
    · split
      · rfl
      · split
        · rfl
        · obtain ⟨bridge, draining, inFlight⟩ := slot
          cases bridge with
          | none => rfl
          | some r => simp [Slot.acquire, Slot.release]

/-! ## the row of a bridge operation -/

/-- every row of a body has what all its runs establish -/
theorem OpLanes.row_wp (lanes : OpLanes) {e : OpEntry Unit} {args : OpArgs}
    {P : RuntimeResult → Prop}
    (h : ∀ actor, (makeOpTask e.fn args actor).wp (fun r _ => ∀ row, r = .ok row → P row) ()) :
    P (lanes.row e args) := by
  obtain ⟨actor, hrun⟩ := lanes.ran e args
  exact Prog.wp_ends hrun (h actor) _ rfl

theorem OpLanes.row_value (lanes : OpLanes) {e : OpEntry Unit} {args : OpArgs} {v : Int64}
    (h : e.fn args = .ret (.done (.int64 v))) :
    callOfRow (.ok (lanes.row e args)) = { status := callOk, tag := 0, bits := v } := by
  refine lanes.row_wp (P := fun row => callOfRow (.ok row) = _) (fun actor => ?_)
  refine serviceTask_wp ?_
  rw [h]
  intro t₁ t₂ row hrow
  cases hrow
  rfl

theorem OpLanes.row_throw (lanes : OpLanes) {e : OpEntry Unit} {args : OpArgs} {x : Exc}
    (h : e.fn args = .throw x) : callOfRow (.ok (lanes.row e args)) = callStatus callOpFailed := by
  refine lanes.row_wp (P := fun row => callOfRow (.ok row) = _) (fun actor => ?_)
  refine serviceTask_wp ?_
  rw [h]
  intro t₁ t₂ row hrow
  cases hrow
  cases x <;> rfl

/-! ## what a bridge call says -/

def fanoutSumValue (n parts : Int64) : Int64 :=
  (maskedFold ((fanoutRanges (n / parts) (n % parts) parts.toInt.toNat 0 0).map
    fun r => maskedRangeSum r.1 r.2)).toInt64

/-- the value of a bridge operation, `none` where its body refuses the arguments -/
def bridgeValue (opCode : Int) : List Int64 → Option Int64
  | [x] => if opCode = bridgeOpSquare then some (x * x) else none
  | [x, y] =>
    if opCode = bridgeOpAdd then some (x + y)
    else if opCode = bridgeOpFanoutSum ∧ 0 ≤ x ∧ badRange 1 fanoutPartsMax y = false then
      some (fanoutSumValue x y)
    else none
  | _ => none

/-- a bridge call in one look: the cap, the slot, the value -/
def bridgeSpec (slot : Slot) (opCode : Int) (vals : List Int64) : CallResult :=
  if opCode = bridgeOpFanoutSum ∧ bridgeFanoutNMax < vals.headD 0 then callStatus callOpBadargs
  else
    match slot.acquire.1 with
    | .error why => callStatus why.status
    | .ok _ =>
      match bridgeValue opCode vals with
      | some v => { status := callOk, tag := 0, bits := v }
      | none => callStatus callOpFailed

theorem fanoutSum_eq (n parts : Int64) :
    fanoutSum (σ := Unit) [.int64 n, .int64 parts]
      = if decide (n < 0) || badRange 1 fanoutPartsMax parts then
          .throw (.invalidArgument ("fanout_sum requires n >= 0 and 1 <= parts <= "
            ++ toString fanoutPartsMax))
        else .ret (.done (.int64 (fanoutSumValue n parts))) := by
  show (guardArgs _ _).bind _ = _
  unfold guardArgs
  split <;> rfl

theorem bridgeArgs_argOf (vals : List Int64) :
    bridgeArgs (vals.map argOf) = some (vals.map .int64) := by
  rw [bridgeArgs, if_pos]
  · rw [List.map_map]
    rfl
  · rw [List.all_map, List.all_eq_true]
    intro v _
    rfl

theorem overCap_argOf (opCode : Int) (vals : List Int64) :
    overCap opCode (vals.map argOf)
      = decide (opCode = bridgeOpFanoutSum ∧ bridgeFanoutNMax < vals.headD 0) := by
  cases vals with
  | nil =>
    have h : ¬ bridgeFanoutNMax < 0 := by decide
    simp [overCap, h]
  | cons v vals => by_cases h : opCode = bridgeOpFanoutSum <;> simp [overCap, argOf, h]

/-- the dispatch up to the row -/
theorem bridgeHandler_eq (slot : Slot) (lanes : Nat → OpLanes) {opId : String} {opCode : Int}
    {vals : List Int64} (h : bridgeOpOf opCode = some (opId, vals.length)) :
    bridgeHandler slot lanes opCode (vals.map argOf)
      = if opCode = bridgeOpFanoutSum ∧ bridgeFanoutNMax < vals.headD 0 then
          callStatus callOpBadargs
        else
          match slot.acquire.1 with
          | .error why => callStatus why.status
          | .ok r => callOfRow (dispatchOpTyped (lanes r) opId (vals.map .int64)) := by
  have hlen : ¬ (vals.map argOf).length ≠ vals.length := by simp
  simp only [bridgeHandler, bridgeDispatch, h, if_neg hlen, overCap_argOf, bridgeArgs_argOf,
    decide_eq_true_eq]
  split
  · rfl
  · rcases slot.acquire with ⟨why | r, slot'⟩ <;> rfl

theorem dispatch_square (lanes : OpLanes) (x : Int64) :
    callOfRow (dispatchOpTyped lanes "square" [.int64 x])
      = { status := callOk, tag := 0, bits := x * x } :=
  lanes.row_value rfl

theorem dispatch_add (lanes : OpLanes) (x y : Int64) :
    callOfRow (dispatchOpTyped lanes "add" [.int64 x, .int64 y])
      = { status := callOk, tag := 0, bits := x + y } :=
  lanes.row_value rfl

theorem dispatch_fanoutSum (lanes : OpLanes) (n parts : Int64) :
    callOfRow (dispatchOpTyped lanes "fanout_sum" [.int64 n, .int64 parts])
      = match bridgeValue bridgeOpFanoutSum [n, parts] with
        | some v => { status := callOk, tag := 0, bits := v }
        | none => callStatus callOpFailed := by
  have hbody := fanoutSum_eq n parts
  have hadd : ¬ bridgeOpFanoutSum = bridgeOpAdd := by decide
  cases hbad : decide (n < 0) || badRange 1 fanoutPartsMax parts with
  | true =>
    rw [hbad] at hbody
    have hval : bridgeValue bridgeOpFanoutSum [n, parts] = none := by
      rw [bridgeValue, if_neg hadd, if_neg]
      rintro ⟨-, hn, hr⟩
      rw [hr, Bool.or_false, decide_eq_true_eq] at hbad
      exact absurd hn (Int64.not_le.mpr hbad)
    rw [hval]
    exact lanes.row_throw hbody
  | false =>
    rw [hbad] at hbody
    obtain ⟨hn, hr⟩ := Bool.or_eq_false_iff.mp hbad
    have hval : bridgeValue bridgeOpFanoutSum [n, parts] = some (fanoutSumValue n parts) := by
      rw [bridgeValue, if_neg hadd, if_pos]
      exact ⟨rfl, Int64.not_lt.mp (of_decide_eq_false hn), hr⟩
    rw [hval]
    exact lanes.row_value hbody

/-- the three rows of the table -/
theorem bridgeOps_lookup {opId : String} {opCode : Int} {arity : Nat}
    (h : bridgeOps.lookup opId = some (opCode, arity)) :
    (opId = "square" ∧ opCode = bridgeOpSquare ∧ arity = 1) ∨
    (opId = "add" ∧ opCode = bridgeOpAdd ∧ arity = 2) ∨
    (opId = "fanout_sum" ∧ opCode = bridgeOpFanoutSum ∧ arity = 2) := by
  have hmem : (opId, opCode, arity) ∈ bridgeOps := mem_of_lookup h
  simpa [bridgeOps] using hmem

/-- **The dispatch is the specification**, for whatever rows the lanes give. -/
theorem bridgeHandler_spec (slot : Slot) (lanes : Nat → OpLanes) {opId : String} {opCode : Int}
    {vals : List Int64} (h : bridgeOps.lookup opId = some (opCode, vals.length)) :
    bridgeHandler slot lanes opCode (vals.map argOf) = bridgeSpec slot opCode vals := by
  -- it remains to give the row of each operation on each Runtime
  have key : ∀ opId', bridgeOpOf opCode = some (opId', vals.length) →
      (∀ r, callOfRow (dispatchOpTyped (lanes r) opId' (vals.map .int64))
        = match bridgeValue opCode vals with
          | some v => { status := callOk, tag := 0, bits := v }
          | none => callStatus callOpFailed) →
      bridgeHandler slot lanes opCode (vals.map argOf) = bridgeSpec slot opCode vals := by
    intro opId' hop hrow
    rw [bridgeHandler_eq slot lanes hop, bridgeSpec]
    split
    · rfl
    · rcases slot.acquire.1 with why | r
      · rfl
      · exact hrow r
  rcases bridgeOps_lookup h with ⟨rfl, rfl, hlen⟩ | ⟨rfl, rfl, hlen⟩ | ⟨rfl, rfl, hlen⟩
  · obtain ⟨x, rfl⟩ := List.length_eq_one_iff.mp hlen
    exact key "square" rfl (fun r => dispatch_square (lanes r) x)
  · obtain ⟨x, y, rfl⟩ := List.length_eq_two.mp hlen
    exact key "add" rfl (fun r => dispatch_add (lanes r) x y)
  · obtain ⟨n, parts, rfl⟩ := List.length_eq_two.mp hlen
    exact key "fanout_sum" rfl (fun r => dispatch_fanoutSum (lanes r) n parts)

/-! ## the two paths -/

/-- what the specification returns fits the bytes of a response -/
theorem bridgeSpec_fits (slot : Slot) (opCode : Int) (vals : List Int64) :
    ((UInt8.ofInt (bridgeSpec slot opCode vals).status).toNat : Int)
      = (bridgeSpec slot opCode vals).status ∧
    ((UInt8.ofInt (bridgeSpec slot opCode vals).tag).toNat : Int)
      = (bridgeSpec slot opCode vals).tag := by
  unfold bridgeSpec
  split
  · exact ⟨by decide, by decide⟩
  · split
    · rename_i why _
      cases why <;> exact ⟨by decide, by decide⟩
    · split <;> exact ⟨rfl, rfl⟩

theorem wire_argOf (vals : List Int64) : (vals.map argOf).map CallOpArg.wire = vals.map argOf := by
  rw [List.map_map]
  rfl

/-- a call that `_call_op` lets through gives what the specification says, over both connections -/
theorem remote_spec {id : TargetId} {reg : EndpointRegistry} {seam : EndpointSeam}
    (hlive : reg.lookup id.bytes = .live seam) (slot : Slot) (lanes : Nat → OpLanes)
    (client server : Junk) {opId : String} {opCode : Int} {vals : List Int64}
    (h : bridgeOps.lookup opId = some (opCode, vals.length)) :
    callOpRemote id.bytes client
        (answer (serveOne reg (some (bridgeHandler slot lanes)) server)) opCode (vals.map argOf)
      = bridgeSpec slot opCode vals := by
  have hspec := bridgeHandler_spec slot lanes h
  obtain ⟨hstatus, htag⟩ := bridgeSpec_fits slot opCode vals
  rw [← hspec] at hstatus htag
  have hop : ((UInt16.ofInt opCode).toNat : Int) = opCode := by
    rcases bridgeOps_lookup h with ⟨-, rfl, -⟩ | ⟨-, rfl, -⟩ | ⟨-, rfl, -⟩ <;> decide
  have hlen : (vals.map argOf).length ≤ wireMaxCallArgs := by
    rw [List.length_map]
    show vals.length ≤ 2
    rcases bridgeOps_lookup h with ⟨-, -, hl⟩ | ⟨-, -, hl⟩ | ⟨-, -, hl⟩ <;> omega
  rw [callOpRemote_live client server id.length_eq hlive hop hlen (wire_argOf vals) hstatus htag,
    hspec]

theorem checkArgs_length {opId : String} {i : Nat} {args : List PyObj} {vals : List Int64}
    (h : checkArgs opId i args = .ok vals) : vals.length = args.length := by
  induction args generalizing i vals with
  | nil =>
    cases h
    rfl
  | cons a args ih =>
    cases a with
    | int n =>
      rw [checkArgs] at h
      split at h
      · cases h
      · obtain ⟨rest, hrest, h⟩ := bind_ok_iff.mp h
        cases h
        rw [List.length_cons, List.length_cons, ih hrest]
    | _ => cases h

/-- the method depends on the native call only through the calls that it lets through -/
theorem callOp_congr {native native' : Int → List Int64 → Int × PyObj} {closed : Bool}
    {opId : String} {args : List PyObj}
    (h : ∀ opCode vals, bridgeOps.lookup opId = some (opCode, vals.length) →
      native opCode vals = native' opCode vals) :
    callOp native closed opId args = callOp native' closed opId args := by
  unfold callOp
  rcases hl : bridgeOps.lookup opId with _ | ⟨opCode, arity⟩
  · rfl
  · show (if args.length ≠ arity then _ else _) = (if args.length ≠ arity then _ else _)
    split
    · rfl
    · rename_i hlen
      rcases hc : checkArgs opId 0 args with e | vals
      · rfl
      · have harity : vals.length = arity := by
          rw [checkArgs_length hc]
          omega
        have hn := h opCode vals (by rw [hl, harity])
        show (if closed = true then _ else _) = (if closed = true then _ else _)
        rw [hn]

theorem callOp_ok {native : Int → List Int64 → Int × PyObj} {closed : Bool} {opId : String}
    {args : List PyObj} {v : PyObj} (h : callOp native closed opId args = .ok v) :
    ∃ opCode vals, bridgeOps.lookup opId = some (opCode, vals.length) ∧
      native opCode vals = (callOk, v) := by
  unfold callOp at h
  split at h
  · cases h
  · rename_i opCode arity hl
    split at h
    · cases h
    · rename_i hlen
      obtain ⟨vals, hc, h⟩ := bind_ok_iff.mp h
      split at h
      · cases h
      · dsimp only at h
        split at h
        · rename_i hok
          cases h
          have harity : vals.length = arity := by
            rw [checkArgs_length hc]
            omega
          exact ⟨opCode, vals, by rw [hl, harity], Prod.ext hok rfl⟩
        · cases h

theorem bridgeSpec_tag (slot : Slot) (opCode : Int) (vals : List Int64) :
    (bridgeSpec slot opCode vals).tag = 0 := by
  unfold bridgeSpec
  split
  · rfl
  · split
    · rfl
    · split <;> rfl

/-- **The two paths agree.**  For a live peer endpoint and any state of the bridge slot of the
serving process, `_call_op` over the wire and `_call_op` in the same process return the same `int64`
value or raise the same exception, on every operation name and every list of arguments, and whatever
rows their lanes give. -/
theorem call_agree {id : TargetId} {reg : EndpointRegistry} {seam : EndpointSeam}
    (hlive : reg.lookup id.bytes = .live seam) (slot : Slot) (lanes lanes' : Nat → OpLanes)
    (client server : Junk) (opId : String) (args : List PyObj) :
    ∃ r : Except EndpointErr PyObj,
      callOp (fun op vals => Peer.callOp client false (bridgeHandler slot lanes) op vals
        (.remote id.bytes (answer (serveOne reg (some (bridgeHandler slot lanes)) server))))
        false opId args = r ∧
      callOp (fun op vals => Peer.callOp client false (bridgeHandler slot lanes') op vals
        (.inProcess (reg.resolve id.bytes))) false opId args = r ∧
      ∀ v, r = .ok v → ∃ x : Int64, v = .int x.toInt := by
  obtain ⟨-, hopen⟩ := EndpointRegistry.lookup_live hlive
  rw [EndpointRegistry.resolve_eq_some.mpr hlive]
  refine ⟨_, ?_, rfl, ?_⟩
  · apply callOp_congr
    intro opCode vals h
    have hremote := remote_spec hlive slot lanes client server h
    have hlocal := bridgeHandler_spec slot lanes' h
    simp only [Peer.callOp, hopen, hremote, hlocal, Bool.false_eq_true, if_false]
  · intro v hv
    obtain ⟨opCode, vals, h, hnative⟩ := callOp_ok hv
    have hlocal := bridgeHandler_spec slot lanes' h
    simp only [Peer.callOp, hopen, hlocal, Bool.false_eq_true, if_false, Prod.mk.injEq] at hnative
    obtain ⟨hok, rfl⟩ := hnative
    rw [callValue, if_pos hok, if_pos (bridgeSpec_tag slot opCode vals)]
    exact ⟨_, rfl⟩

/-- lanes that run every task at time `0` -/
def idleLanes : OpLanes where
  row e args :=
    match ((makeOpTask e.fn args "").eval 0 ()).1 with
    | .ok row => row
    | .error _ => {}
  ran e args := by
    refine ⟨"", ?_⟩
    have hends := Prog.ends_eval 0 (makeOpTask e.fn args "") ()
    obtain ⟨row, hrow⟩ := Prog.wp_ends hends serviceTask_ok
    rw [hrow] at hends ⊢
    exact hends

/-- a `fanout_sum` above the cap, over both paths to a live Runtime -/
theorem call_agree_overCap : ∃ r : Except EndpointErr PyObj,
    callOp (fun op vals => Peer.callOp onesJunk false (bridgeHandler { bridge := some 0 }
        (fun _ => idleLanes)) op vals (.remote zeroId.bytes (answer (serveOne zeroRegistry
          (some (bridgeHandler { bridge := some 0 } (fun _ => idleLanes))) onesJunk))))
      false "fanout_sum" [.int 1000001, .int 4] = r ∧
    callOp (fun op vals => Peer.callOp onesJunk false (bridgeHandler { bridge := some 0 }
        (fun _ => idleLanes)) op vals (.inProcess (zeroRegistry.resolve zeroId.bytes)))
      false "fanout_sum" [.int 1000001, .int 4] = r := by
  obtain ⟨r, hremote, hlocal, _⟩ := call_agree zeroRegistry_live { bridge := some 0 }
    (fun _ => idleLanes) (fun _ => idleLanes) onesJunk onesJunk "fanout_sum"
    [.int 1000001, .int 4]
  exact ⟨r, hremote, hlocal⟩

end RayX
