import RayX.Endpoint.Seam

/-!
# The endpoint transport

One request over a socket: the server side of `TransportListener`, the client side of `ping_remote`
and `call_op_remote`, and the handshake of a `_Connection`.  What the kernel does to a round trip is
a parameter of the client.

* `serveOne`       prefix, rest of the frame, `servePing` or `serveCallOp`; `none` is no reply;
* `pingRemote`, `callOpRemote`   the clients, over any outcome of the round trip;
* `answer`         the round trip to a server without an I/O failure;
* `ping_invariant` **the handshake is the same inline, over the wire and in Python**.
-/

namespace RayX
open Sys

/-! ## status codes -/

def pingOk : Int := 0
def pingPeerClosed : Int := 1
def pingConnClosed : Int := 2
def pingNotFound : Int := 3
def pingProtoErr : Int := 4
def pingTimeout : Int := 5

def wireOk : Int := 0
def wirePeerClosed : Int := 1
def wireNotFound : Int := 3
def wireProtoErr : Int := 4

def callOk : Int := 0
def callPeerClosed : Int := 1
def callConnClosed : Int := 2
def callNotFound : Int := 3
def callProtoErr : Int := 4
def callTimeout : Int := 5
def callRuntimeAbsent : Int := 6
def callRuntimeDraining : Int := 7
def callOpUnknown : Int := 8
def callOpBadargs : Int := 9
def callOpFailed : Int := 10
def callInternal : Int := 11

/-- a status and, on `CALL_OK`, a typed value -/
structure CallResult where
  status : Int := callInternal
  tag : Int := 0
  bits : Int64 := 0
  deriving DecidableEq

/-- `{status, 0, 0}` -/
def callStatus (status : Int) : CallResult := { status := status }

abbrev BridgeCallOpFn := Int → List CallOpArg → CallResult

/-- what uninitialised arrays hold -/
structure Junk where
  bytes : Nat → List UInt8
  length_eq : ∀ n, (bytes n).length = n

/-! ## the server -/

section
variable (reg : EndpointRegistry) (handler : Option BridgeCallOpFn) (junk : Junk)

def servePing (req : List UInt8) : Option (List UInt8) :=
  match wireDecodeRequest req with
  | none => none
  | some r =>
    let resp := junk.bytes wireRespSize
    if r.proto ≠ endpointProtoVersion ∨ r.msg ≠ wireMsgPing then
      some (wireEncodeResponse endpointProtoVersion wireProtoErr 0 resp)
    else
      match reg.lookup r.targetId with
      | .live seam =>
        some (wireEncodeResponse endpointProtoVersion wireOk (seam.onPing r.nonce) resp)
      | .closed => some (wireEncodeResponse endpointProtoVersion wirePeerClosed 0 resp)
      | .absent => some (wireEncodeResponse endpointProtoVersion wireNotFound 0 resp)

/-- the dispatch of a decoded call, without its encoding -/
def callResult (r : CallOp) : CallResult :=
  match reg.lookup r.targetId with
  | .live _ =>
    match handler with
    | none => callStatus callRuntimeAbsent
    | some handle => handle r.opCode (r.args.take (min r.argc wireMaxCallArgs).toNat)
  | .closed => callStatus callPeerClosed
  | .absent => callStatus callNotFound

def serveCallOp (req : List UInt8) : Option (List UInt8) :=
  match wireDecodeCallOp req with
  | none => none
  | some r =>
    let resp := junk.bytes wireCallopRespSize
    if r.proto ≠ endpointProtoVersion then
      some (wireEncodeCallResp endpointProtoVersion callProtoErr 0 0 resp)
    else
      let cr := callResult reg handler r
      some (wireEncodeCallResp endpointProtoVersion cr.status cr.tag cr.bits resp)

/-- `n` bytes, unless the stream ends before -/
def fullRead (n : Nat) (stream : List UInt8) : Option (List UInt8 × List UInt8) :=
  if n ≤ stream.length then some (stream.take n, stream.drop n) else none

/-- serve one request; a bad magic, a short stream and an unknown message are dropped -/
def serveOne (stream : List UInt8) : Option (List UInt8) := do
  let (pre, rest) ← fullRead wirePrefixSize stream
  let (_, msg) ← wireDecodePrefix pre
  if msg = wireMsgPing then do
    let (body, _) ← fullRead (wireReqSize - wirePrefixSize) rest
    servePing reg junk (pre ++ body)
  else if msg = wireMsgCallOp then do
    let (body, _) ← fullRead (wireCallopReqSize - wirePrefixSize) rest
    serveCallOp reg handler junk (pre ++ body)
  else none

end

/-! ## the clients -/

/-- dial, write and read of one request: a step failed, or the whole response is here -/
inductive RoundTrip where
  | failed (timedOut : Bool)
  | reply (resp : List UInt8)

/-- the round trip to a server when the socket does not fail; a server that drops the request
closes the connection -/
def answer (server : List UInt8 → Option (List UInt8)) (req : List UInt8) : RoundTrip :=
  match server req with
  | some resp => .reply resp
  | none => .failed false

section
variable (peerId : List UInt8) (junk : Junk) (io : List UInt8 → RoundTrip)

def pingRemote (nonce : Int64) : Int × Int64 :=
  match io (wireEncodeRequest endpointProtoVersion peerId nonce (junk.bytes wireReqSize)) with
  | .failed timedOut => (if timedOut then pingTimeout else pingConnClosed, 0)
  | .reply resp =>
    match wireDecodeResponse resp with
    | none => (pingConnClosed, 0)
    | some r =>
      if r.proto ≠ endpointProtoVersion then (pingProtoErr, 0)
      else if r.status = wireOk then (pingOk, r.value)
      else if r.status = wirePeerClosed then (pingPeerClosed, 0)
      else if r.status = wireNotFound then (pingNotFound, 0)
      else if r.status = wireProtoErr then (pingProtoErr, 0)
      else (pingConnClosed, 0)

def callOpRemote (opCode : Int) (args : List CallOpArg) : CallResult :=
  let argc := min args.length wireMaxCallArgs
  let slots := args.take argc ++ List.replicate (wireMaxCallArgs - argc) {}
  match io (wireEncodeCallOp endpointProtoVersion peerId opCode slots argc
      (junk.bytes wireCallopReqSize)) with
  | .failed timedOut => callStatus (if timedOut then callTimeout else callConnClosed)
  | .reply resp =>
    match wireDecodeCallResp resp with
    | none => callStatus callConnClosed
    | some r =>
      if r.proto ≠ endpointProtoVersion then callStatus callProtoErr
      else { status := r.status, tag := r.resultTag, bits := r.resultBits }

end

/-- the two flavours of a `_Connection`; `none` is a peer that is gone -/
inductive Peer where
  | inProcess (seam : Option EndpointSeam)
  | remote (peerId : List UInt8) (io : List UInt8 → RoundTrip)

/-- `_Connection::ping` -/
def Peer.ping (junk : Junk) (closed : Bool) (nonce : Int64) : Peer → Int × Int64
  | .remote peerId io => if closed then (pingConnClosed, 0) else pingRemote peerId junk io nonce
  | .inProcess none => if closed then (pingConnClosed, 0) else (pingPeerClosed, 0)
  | .inProcess (some s) =>
    if closed then (pingConnClosed, 0)
    else if s.closed then (pingPeerClosed, 0)
    else (pingOk, s.onPing nonce)

/-! ## a whole frame reaches its handler -/

theorem byteAt_take {buf : List UInt8} {n p : Nat} (h : p < n) :
    byteAt (buf.take n) p = byteAt buf p := by
  simp [byteAt, List.getD, h]

theorem wireDecodePrefix_take {buf : List UInt8} :
    wireDecodePrefix (buf.take wirePrefixSize) = wireDecodePrefix buf := by
  have h : ∀ p, p < 7 → byteAt (buf.take wirePrefixSize) p = byteAt buf p :=
    fun p hp => byteAt_take hp
  have hmagic : hasMagic (buf.take wirePrefixSize) = hasMagic buf := by
    rw [hasMagic, hasMagic, h 0 (by omega), h 1 (by omega), h 2 (by omega), h 3 (by omega)]
  have hproto : protoAt (buf.take wirePrefixSize) 4 = protoAt buf 4 := by
    rw [protoAt, protoAt, wireGetU16, wireGetU16, h 4 (by omega), h 5 (by omega)]
  have hmsg : intAt (buf.take wirePrefixSize) 6 = intAt buf 6 := by
    rw [intAt, intAt, h 6 (by omega)]
  rw [wireDecodePrefix, wireDecodePrefix, hmagic, hproto, hmsg]

theorem fullRead_ok {n : Nat} {stream : List UInt8} (h : n ≤ stream.length) :
    fullRead n stream = some (stream.take n, stream.drop n) := if_pos h

theorem fullRead_all {n : Nat} {stream : List UInt8} (h : stream.length = n) :
    fullRead n stream = some (stream, []) := by
  rw [fullRead_ok (by omega), List.take_of_length_le (by omega), List.drop_of_length_le (by omega)]

section
variable (reg : EndpointRegistry) (handler : Option BridgeCallOpFn) (junk : Junk)

theorem serveOne_ping {req : List UInt8} {proto : Int} (hlen : req.length = wireReqSize)
    (hpre : wireDecodePrefix req = some (proto, wireMsgPing)) :
    serveOne reg handler junk req = servePing reg junk req := by
  have hlen' : req.length = 39 := hlen
  have hrest : (req.drop wirePrefixSize).length = wireReqSize - wirePrefixSize := by
    rw [List.length_drop, hlen]
  have h7 : wirePrefixSize ≤ req.length := by
    rw [hlen']
    decide
  simp only [serveOne, fullRead_ok h7, wireDecodePrefix_take, hpre, fullRead_all hrest,
    Option.bind_eq_bind, Option.bind_some, if_true, List.take_append_drop]

theorem serveOne_callOp {req : List UInt8} {proto : Int} (hlen : req.length = wireCallopReqSize)
    (hpre : wireDecodePrefix req = some (proto, wireMsgCallOp)) :
    serveOne reg handler junk req = serveCallOp reg handler junk req := by
  have hlen' : req.length = 53 := hlen
  have hrest : (req.drop wirePrefixSize).length = wireCallopReqSize - wirePrefixSize := by
    rw [List.length_drop, hlen]
  have h7 : wirePrefixSize ≤ req.length := by
    rw [hlen']
    decide
  have hne : ¬ wireMsgCallOp = wireMsgPing := by decide
  simp only [serveOne, fullRead_ok h7, wireDecodePrefix_take, hpre, fullRead_all hrest,
    Option.bind_eq_bind, Option.bind_some, if_true, if_neg hne, List.take_append_drop]

/-- the server's reply to a handshake with a live endpoint -/
theorem serveOne_pingFrame {id : List UInt8} (nonce : Int64) {seam : EndpointSeam}
    (hid : id.length = wireIdLen) (hlive : reg.lookup id = .live seam) :
    serveOne reg handler junk
        (headBytes endpointProtoVersion (UInt8.ofInt wireMsgPing) 0 ++ (id ++ i64Bytes nonce))
      = some (headBytes endpointProtoVersion (UInt8.ofInt wireOk) 0 ++
          i64Bytes (seam.onPing nonce)) := by
  have hlen : (headBytes endpointProtoVersion (UInt8.ofInt wireMsgPing) 0 ++
      (id ++ i64Bytes nonce)).length = wireReqSize := by
    simp [hid, wireReqSize, wireIdLen]
  have hpre : wireDecodePrefix (headBytes endpointProtoVersion (UInt8.ofInt wireMsgPing) 0 ++
      (id ++ i64Bytes nonce)) = some (endpointProtoVersion, wireMsgPing) := by
    rw [wireDecodePrefix, hasMagic_head, if_pos rfl, protoAt_head, intAt_head6]
    rfl
  have hver : ¬ (((UInt16.ofInt endpointProtoVersion).toNat : Int) ≠ endpointProtoVersion ∨
      ((UInt8.ofInt wireMsgPing).toNat : Int) ≠ wireMsgPing) := by decide
  rw [serveOne_ping reg handler junk hlen hpre, servePing, wireDecodeRequest_frame _ _ _ _ hid]
  simp only [if_neg hver, hlive]
  rw [wireEncodeResponse_eq _ _ _ (junk.length_eq wireRespSize)]

/-- the server's reply to a call for a live endpoint -/
theorem serveOne_callFrame {id : List UInt8} {op : UInt16} {args : List CallOpArg}
    {seam : EndpointSeam} {handle : BridgeCallOpFn} (hid : id.length = wireIdLen)
    (hargs : args.length ≤ wireMaxCallArgs) (hlive : reg.lookup id = .live seam) :
    serveOne reg (some handle) junk (callOpBytes endpointProtoVersion id op args args.length)
      = some (headBytes endpointProtoVersion
          (UInt8.ofInt (handle op.toNat (args.map CallOpArg.wire)).status)
          (UInt8.ofInt (handle op.toNat (args.map CallOpArg.wire)).tag) ++
          i64Bytes (handle op.toNat (args.map CallOpArg.wire)).bits) := by
  have hargs' : args.length ≤ 2 := hargs
  have hlen : (callOpBytes endpointProtoVersion id op args args.length).length
      = wireCallopReqSize := by
    simp [callOpBytes, length_slotsBytes, hid, wireCallopReqSize, wireIdLen]
    omega
  have hpre : wireDecodePrefix (callOpBytes endpointProtoVersion id op args args.length)
      = some (endpointProtoVersion, wireMsgCallOp) := by
    rw [wireDecodePrefix, callOpBytes, hasMagic_head, if_pos rfl, protoAt_head, intAt_head6]
    rfl
  have hver : ¬ ((UInt16.ofInt endpointProtoVersion).toNat : Int) ≠ endpointProtoVersion := by
    decide
  have hargc : (min (args.length : Int) wireMaxCallArgs).toNat = args.length := by omega
  obtain ⟨slots, hdec, hslots⟩ := wireDecodeCallOp_frame endpointProtoVersion op hid hargs
  rw [serveOne_callOp reg _ junk hlen hpre, serveCallOp, hdec]
  simp only [if_neg hver, callResult, hlive, hargc, hslots]
  rw [wireEncodeCallResp_eq _ _ _ _ (junk.length_eq wireCallopRespSize)]

end

/-- **A remote call to a live endpoint is a call of its handler**, as long as what it is given and
what it returns fit the fields of the frames. -/
theorem callOpRemote_live {id : List UInt8} {reg : EndpointRegistry} {seam : EndpointSeam}
    {handle : BridgeCallOpFn} {opCode : Int} {args : List CallOpArg} (client server : Junk)
    (hid : id.length = wireIdLen) (hlive : reg.lookup id = .live seam)
    (hop : ((UInt16.ofInt opCode).toNat : Int) = opCode) (hargs : args.length ≤ wireMaxCallArgs)
    (htags : args.map CallOpArg.wire = args)
    (hstatus : ((UInt8.ofInt (handle opCode args).status).toNat : Int) = (handle opCode args).status)
    (htag : ((UInt8.ofInt (handle opCode args).tag).toNat : Int) = (handle opCode args).tag) :
    callOpRemote id client (answer (serveOne reg (some handle) server)) opCode args
      = handle opCode args := by
  have hmin : min args.length wireMaxCallArgs = args.length := by omega
  have hver : ¬ ((UInt16.ofInt endpointProtoVersion).toNat : Int) ≠ endpointProtoVersion := by
    decide
  have hframe : ∀ pad, callOpBytes endpointProtoVersion id (UInt16.ofInt opCode) (args ++ pad)
      args.length = callOpBytes endpointProtoVersion id (UInt16.ofInt opCode) args args.length := by
    intro pad
    rw [callOpBytes, callOpBytes, slotsBytes_append args pad le_rfl]
  simp only [callOpRemote, hmin, List.take_length]
  rw [wireEncodeCallOp_eq _ _ _ hid hargs (client.length_eq wireCallopReqSize), hframe, answer,
    serveOne_callFrame reg server hid hargs hlive, hop, htags]
  simp only [wireDecodeCallResp_frame, if_neg hver, hstatus, htag]

/-- **The handshake across the process boundary.**  For a live endpoint the inline value, the value
that comes back over the wire and the Python formula are the same `int64`, and the transform is its
own inverse. -/
theorem ping_invariant (id : EndpointId) (nonce : Int64) {reg : EndpointRegistry}
    {seam : EndpointSeam} (hlive : reg.lookup id.bytes = .live seam)
    (handler : Option BridgeCallOpFn) (client server : Junk) :
    Peer.ping client false nonce (.inProcess (reg.resolve id.bytes))
      = (pingOk, seam.onPing nonce) ∧
    Peer.ping client false nonce (.remote id.bytes (answer (serveOne reg handler server)))
      = (pingOk, seam.onPing nonce) ∧
    pyPing id.str nonce.toInt = .ok (seam.onPing nonce).toInt ∧
    seam.onPing (seam.onPing nonce) = nonce := by
  obtain ⟨hkey, hopen⟩ := EndpointRegistry.lookup_live hlive
  refine ⟨?_, ?_, onPing_python id.toTargetId hkey nonce, onPing_onPing seam nonce⟩
  · rw [EndpointRegistry.resolve_eq_some.mpr hlive, Peer.ping, hopen]
    rfl
  · have hver : ¬ ((UInt16.ofInt endpointProtoVersion).toNat : Int) ≠ endpointProtoVersion := by
      decide
    have hok : ((UInt8.ofInt wireOk).toNat : Int) = wireOk := by decide
    simp only [Peer.ping, pingRemote]
    rw [wireEncodeRequest_eq _ _ id.length_eq (client.length_eq wireReqSize), answer,
      serveOne_pingFrame reg handler server nonce id.length_eq hlive]
    simp only [wireDecodeResponse_frame, if_neg hver, if_pos hok]
    rfl

/-- `rtb-ep-0000000000000000` -/
def zeroEndpoint : EndpointId := { zeroId with prefixed := rfl, hex := rfl }

def zeroSeam : EndpointSeam := EndpointSeam.new zeroEndpoint.bytes

/-- a process in which `zeroEndpoint` is open -/
def zeroRegistry : EndpointRegistry := EndpointRegistry.empty.registerSeam zeroSeam

theorem zeroRegistry_live : zeroRegistry.lookup zeroEndpoint.bytes = .live zeroSeam :=
  EndpointRegistry.lookup_registerSeam rfl

/-- arrays full of ones -/
def onesJunk : Junk := ⟨fun n => List.replicate n 0xff, fun _ => List.length_replicate⟩

theorem ping_invariant_zero :
    Peer.ping onesJunk false (-1) (.remote zeroEndpoint.bytes
      (answer (serveOne zeroRegistry none onesJunk))) = (pingOk, zeroSeam.onPing (-1)) ∧
    pyPing zeroEndpoint.str (-1) = .ok (zeroSeam.onPing (-1)).toInt := by
  obtain ⟨_, hwire, hpy, _⟩ :=
    ping_invariant zeroEndpoint (-1) zeroRegistry_live none onesJunk onesJunk
  exact ⟨hwire, hpy⟩

end RayX
