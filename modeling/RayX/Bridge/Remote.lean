import RayX.Bridge.Call
import RayX.Endpoint.RoundTrip
import RayX.Endpoint.Serve

/-!
# Remote calls over sockets

`call_op` of a remote connection with both ends of its socket: the client writes the request and
reads the response, the listener of the other process serves what arrives.

* `Net`              the answers of the kernel to both processes during one call;
* `Net.exchange`     dial, write, the serving on the other side, read;
* `remoteCall`       the native `call_op`, with the handler calls it causes;
* `CallExact`        the handler runs exactly what was asked, or the caller gets an error;
* `remoteCall_calls` **the op-code arrives modulo `2 ^ 16` and the arguments cut to two slots**;
* `remoteCall_exact_iff`  which calls are executed as they were asked.
-/

namespace RayX
open Sys

/-! ## one call -/

/-- `dial` is `none` when the dial succeeds, otherwise whether it timed out -/
structure Net where
  dial : Option Bool
  clientPolls : List PollAnswer
  clientMoves : List MoveAnswer
  serverPolls : List PollAnswer
  serverMoves : List MoveAnswer

/-- the request of `call_op_remote` -/
def callOpRequest (peerId : List UInt8) (junk : Junk) (opCode : Int) (args : List CallOpArg) :
    List UInt8 :=
  let argc := min args.length wireMaxCallArgs
  let slots := args.take argc ++ List.replicate (wireMaxCallArgs - argc) ({} : CallOpArg)
  wireEncodeCallOp endpointProtoVersion peerId opCode slots argc (junk.bytes wireCallopReqSize)

/-- the client sends nothing else -/
theorem callOpRemote_request (peerId : List UInt8) (junk : Junk) (io : List UInt8 → RoundTrip)
    (opCode : Int) (args : List CallOpArg) : callOpRemote peerId junk io opCode args
      = callOpRemote peerId junk (fun _ => io (callOpRequest peerId junk opCode args)) opCode args :=
  rfl

/-- the round trip of `call_op_remote`, `none` while it waits, and the connection on the other side;
the server reads what the client has sent, the client what the server has sent -/
def Net.exchange (net : Net) (serve : Await Served Unit) (req : List UInt8) :
    Option RoundTrip × Served :=
  match net.dial with
  | some timedOut => (some (.failed timedOut), .accept [] [] [])
  | none =>
    let w := Sock.fullWrite req { polls := net.clientPolls, moves := net.clientMoves, inbox := [] }
    let served := (serve (.accept net.serverPolls net.serverMoves w.2.sent)).2
    match w.1 with
    | none => (none, served)
    | some .ok =>
      match (Sock.fullRead wireCallopRespSize { w.2 with inbox := served.sock.sent }).1 with
      | none => (none, served)
      | some (.ok, resp) => (some (.reply resp), served)
      | some (rr, _) => (some (.failed (rr == .timeout)), served)
    | some wr => (some (.failed (wr == .timeout)), served)

/-- the two processes of a remote call: the caller with its own bridge dispatch, and the server with
its registry and its installed handler -/
structure Session where
  closed : Bool
  dispatch : BridgeCallOpFn
  client : Junk
  server : Junk
  net : Net
  reg : EndpointRegistry
  handler : Option BridgeCallOpFn

/-- `call_op` of a remote connection: what the caller gets, and the handler calls of the server -/
def remoteCall (s : Session) (peerId : List UInt8) (opCode : Int) (vals : List Int64) :
    Option (Int × PyObj) × List (Int × List CallOpArg) :=
  if s.closed then
    (some (Peer.callOp s.client true s.dispatch opCode vals (.remote peerId fun _ => .failed false)),
      [])
  else
    let ex := s.net.exchange (Served.serveOne s.reg s.handler s.server)
      (callOpRequest peerId s.client opCode (vals.map argOf))
    (ex.1.map fun rt => Peer.callOp s.client false s.dispatch opCode vals (.remote peerId fun _ => rt),
      ex.2.calls)

/-- the handler runs what was asked and nothing else; without a handler call the caller gets an
error, if it gets anything -/
def CallExact (opCode : Int) (vals : List Int64)
    (out : Option (Int × PyObj) × List (Int × List CallOpArg)) : Prop :=
  (∀ c ∈ out.2, c = (opCode, vals.map argOf)) ∧
  (out.2 = [] → ∀ r, out.1 = some r → r.1 ≠ callOk)

/-! ## the request -/

/-- the arguments of the request -/
def sentArgs (vals : List Int64) : List CallOpArg := (vals.take wireMaxCallArgs).map argOf

theorem callOpRequest_eq {peerId : List UInt8} (hid : peerId.length = wireIdLen) (junk : Junk)
    (opCode : Int) (vals : List Int64) : callOpRequest peerId junk opCode (vals.map argOf)
      = callOpBytes endpointProtoVersion peerId (UInt16.ofInt opCode) (sentArgs vals)
        (sentArgs vals).length := by
  have hn : min vals.length wireMaxCallArgs ≤ wireMaxCallArgs := Nat.min_le_right _ _
  have hlen : (sentArgs vals).length = min vals.length wireMaxCallArgs := by
    rw [sentArgs, List.length_map, List.length_take, Nat.min_comm]
  have htake : (vals.map argOf).take (min vals.length wireMaxCallArgs) = sentArgs vals := by
    rw [sentArgs, ← List.map_take, Nat.min_comm, ← List.take_take, List.take_length]
  rw [callOpRequest]
  rw [List.length_map, htake, wireEncodeCallOp_eq _ _ _ hid hn (junk.length_eq wireCallopReqSize),
    ← hlen, callOpBytes, slotsBytes_append _ _ (Nat.le_refl _), callOpBytes]

theorem length_sentArgs (vals : List Int64) : (sentArgs vals).length ≤ wireMaxCallArgs := by
  rw [sentArgs, List.length_map, List.length_take]
  exact Nat.min_le_left _ _

/-- the request of a call: `opCode` modulo `2 ^ 16`, the first arguments, the target as it is -/
theorem decode_request {id : List UInt8} (hid : id.length = wireIdLen) (junk : Junk) (opCode : Int)
    (vals : List Int64) : ∃ r, wireDecodeCallOp (callOpRequest id junk opCode (vals.map argOf))
        = some r ∧ r.proto = endpointProtoVersion ∧ r.msg = wireMsgCallOp ∧ r.targetId = id ∧
      r.opCode = (UInt16.ofInt opCode).toNat ∧
      r.args.take (min r.argc wireMaxCallArgs).toNat = sentArgs vals := by
  have hle := length_sentArgs vals
  obtain ⟨slots, hdec, hslots⟩ := wireDecodeCallOp_frame endpointProtoVersion (UInt16.ofInt opCode)
    hid hle
  rw [callOpRequest_eq hid]
  refine ⟨_, hdec, rfl, rfl, rfl, rfl, ?_⟩
  have hargc : (min ((sentArgs vals).length : Int) wireMaxCallArgs).toNat
      = (sentArgs vals).length := by omega
  dsimp only
  rw [hargc, hslots]
  exact wire_argOf _

theorem length_request {id : List UInt8} (hid : id.length = wireIdLen) (junk : Junk) (opCode : Int)
    (vals : List Int64) :
    (callOpRequest id junk opCode (vals.map argOf)).length = wireCallopReqSize := by
  have hle : (sentArgs vals).length ≤ 2 := length_sentArgs vals
  rw [callOpRequest_eq hid]
  simp [callOpBytes, length_slotsBytes, hid, wireCallopReqSize, wireIdLen]
  omega

/-- a part of the request is a whole frame only when it is all of it -/
theorem frame_of_request {id : List UInt8} (hid : id.length = wireIdLen) {junk : Junk}
    {opCode : Int} {vals : List Int64} {recv frame : List UInt8}
    (hrecv : recv <+: callOpRequest id junk opCode (vals.map argOf))
    (hf : wholeFrame recv = some frame) :
    frame = callOpRequest id junk opCode (vals.map argOf) ∧ intAt frame 6 = wireMsgCallOp := by
  obtain ⟨r, hdec, -, hmsg, -⟩ := decode_request hid junk opCode vals
  have hlen := length_request hid junk opCode vals
  obtain ⟨hframe, -, hsize⟩ := wholeFrame_some hf
  have hpre : frame <+: callOpRequest id junk opCode (vals.map argOf) := hframe.trans hrecv
  -- the byte of the message is that of the request
  have h6 : intAt frame 6 = wireMsgCallOp := by
    obtain ⟨rest, hrest⟩ := hpre
    have h7 : 6 < frame.length := by
      rcases hsize with ⟨h, -⟩ | ⟨h, -⟩ <;> rw [h] <;> decide
    rw [← hmsg, wireDecodeCallOp_msg hdec, ← hrest]
    simp [intAt, byteAt, List.getD, List.getElem?_append_left h7]
  refine ⟨?_, h6⟩
  rcases hsize with ⟨-, hping⟩ | ⟨h53, -⟩
  · exact absurd (hping.symm.trans h6) (by decide)
  · exact hpre.eq_of_length (by rw [h53, hlen])

/-- **What the handler is called with**, from any part of the request -/
theorem request_calls {id : List UInt8} (hid : id.length = wireIdLen) {junk : Junk} {opCode : Int}
    {vals : List Int64} {recv : List UInt8} {reg : EndpointRegistry}
    {handler : Option BridgeCallOpFn}
    (hrecv : recv <+: callOpRequest id junk opCode (vals.map argOf))
    {c : Int × List CallOpArg} (hc : c ∈ handlerCalls reg handler recv) :
    c = (((UInt16.ofInt opCode).toNat : Int), sentArgs vals) := by
  rw [handlerCalls, Option.mem_toList] at hc
  obtain ⟨frame, hf, hcall⟩ := Option.bind_eq_some_iff.mp hc
  obtain ⟨rfl, -⟩ := frame_of_request hid hrecv hf
  obtain ⟨r, hdec, -, -, -, hop, hargs⟩ := decode_request hid junk opCode vals
  obtain ⟨r', -, -, hdec', -, -, -, -, rfl⟩ := frameCall_some hcall
  rw [hdec] at hdec'
  cases hdec'
  rw [hop, hargs]

/-! ## the response -/

/-- a reply for which no handler ran is an error -/
theorem quiet_reply {reg : EndpointRegistry} {handler : Option BridgeCallOpFn} {junk : Junk}
    {frame resp : List UInt8} (hmsg : intAt frame 6 = wireMsgCallOp)
    (hcall : frameCall reg handler frame = none)
    (h : frameReply reg handler junk frame = some resp) :
    ∃ r, wireDecodeCallResp resp = some r ∧ r.status ≠ callOk := by
  have hne : ¬ intAt frame 6 = wireMsgPing := by
    rw [hmsg]
    decide
  have hresp : ∀ status, UInt8.ofInt status ≠ 0 → ∀ tag bits,
      ∃ r, wireDecodeCallResp (wireEncodeCallResp endpointProtoVersion status tag bits
        (junk.bytes wireCallopRespSize)) = some r ∧ r.status ≠ callOk := by
    intro status hstatus tag bits
    rw [wireEncodeCallResp_eq _ _ _ _ (junk.length_eq wireCallopRespSize)]
    refine ⟨_, wireDecodeCallResp_frame _ _ _ _, fun h0 => hstatus ?_⟩
    apply UInt8.toNat_inj.mp
    exact Int.ofNat_inj.mp h0
  rw [frameReply, if_neg hne, serveCallOp] at h
  rw [frameCall] at hcall
  cases hd : wireDecodeCallOp frame with
  | none =>
    rw [hd] at h
    cases h
  | some r =>
    have hr : r.msg = wireMsgCallOp := (wireDecodeCallOp_msg hd).trans hmsg
    rw [hd] at h hcall
    dsimp only at h hcall
    by_cases hbad : r.proto ≠ endpointProtoVersion
    · rw [if_pos hbad] at h
      rw [← Option.some.inj h]
      exact hresp callProtoErr (by decide) 0 0
    · have hgood : ¬ (r.msg ≠ wireMsgCallOp ∨ r.proto ≠ endpointProtoVersion) :=
        not_or.mpr ⟨fun h => h hr, hbad⟩
      rw [if_neg hbad] at h
      rw [if_neg hgood] at hcall
      unfold callResult at h
      cases hl : reg.lookup r.targetId with
      | live seam =>
        rw [hl] at h hcall
        cases handler with
        | none =>
          rw [← Option.some.inj h]
          exact hresp callRuntimeAbsent (by decide) 0 0
        | some handle => cases hcall
      | closed =>
        rw [hl] at h
        rw [← Option.some.inj h]
        exact hresp callPeerClosed (by decide) 0 0
      | absent =>
        rw [hl] at h
        rw [← Option.some.inj h]
        exact hresp callNotFound (by decide) 0 0

/-! ## the exchange -/

theorem exchange_served (net : Net) (hdial : net.dial = none) (serve : Await Served Unit)
    (req : List UInt8) : (net.exchange serve req).2 = (serve (.accept net.serverPolls net.serverMoves
      (Sock.fullWrite req
        { polls := net.clientPolls, moves := net.clientMoves, inbox := [] }).2.sent)).2 := by
  unfold Net.exchange
  rw [hdial]
  dsimp only
  split
  · rfl
  · split <;> rfl
  · rfl

/-- a successful read has all its bytes from the stream -/
theorem read_bytes (n : Nat) (s : Sock) : (Sock.fullRead n).wp
    (fun r _ => ∀ bs, r = some (.ok, bs) → bs.length = n ∧ bs <+: s.inbox) s := by
  refine Sock.wp_fullRead ?_ ?_
  · intro r s' bs hr _ _ _ _ _ _ _ bs' h
    cases r with
    | none => cases h
    | some r =>
      cases h
      exact absurd rfl hr
  · intro s' bs hlen _ hin _ _ _ bs' h
    cases h
    exact ⟨hlen, ⟨_, hin.symm⟩⟩

/-- a write sends a part of its bytes, whatever it returns -/
theorem written_sent (bs : List UInt8) (s : Sock) (h0 : s.sent = []) :
    (Sock.fullWrite bs).wp (fun _ s' => s'.sent <+: bs) s := by
  refine Sock.wp_fullWrite ?_
  intro _ s' bs' hpre _ _ _ hout _ _ _
  rw [hout, h0]
  exact hpre

/-- a round trip serves a part of the request; a reply that came back is the one that was made for
that part -/
theorem exchange_spec (net : Net) (reg : EndpointRegistry) (handler : Option BridgeCallOpFn)
    (junk : Junk) (req : List UInt8) : ∃ recv, recv <+: req ∧
      (net.exchange (Served.serveOne reg handler junk) req).2.calls
        = handlerCalls reg handler recv ∧
      ∀ resp, (net.exchange (Served.serveOne reg handler junk) req).1 = some (.reply resp) →
        serveOne reg handler junk recv = some resp := by
  unfold Net.exchange
  cases net.dial with
  | some timedOut =>
    refine ⟨[], List.nil_prefix, rfl, fun resp h => ?_⟩
    cases h
  | none =>
    dsimp only
    have hwrite := written_sent req
      { polls := net.clientPolls, moves := net.clientMoves, inbox := [] } rfl
    unfold Await.wp at hwrite
    generalize Sock.fullWrite req
      { polls := net.clientPolls, moves := net.clientMoves, inbox := [] } = w at hwrite ⊢
    have htold := Served.serveOne_told reg handler junk net.serverPolls net.serverMoves w.2.sent
    unfold Await.wp at htold
    generalize Served.serveOne reg handler junk
      (Served.accept net.serverPolls net.serverMoves w.2.sent) = served at htold ⊢
    have hrecv : served.2.sock.received <+: req := by
      refine List.IsPrefix.trans ⟨_, htold.split.symm⟩ hwrite
    refine ⟨served.2.sock.received, hrecv, ?_, ?_⟩
    · rw [← htold.calls]
      split
      · rfl
      · split <;> rfl
      · rfl
    · intro resp h
      split at h
      · cases h
      · split at h
        · cases h
        · rename_i resp' hread
          cases h
          -- the 16 bytes of the client are all that the server has written
          have hbytes := read_bytes wireCallopRespSize { w.2 with inbox := served.2.sock.sent }
          obtain ⟨hlen, hpre⟩ := hbytes resp hread
          have hsent := hpre.trans htold.sent
          rw [htold.responses] at hsent
          cases hserve : serveOne reg handler junk served.2.sock.received with
          | none =>
            rw [hserve] at hsent
            have hnil : resp = [] := List.prefix_nil.mp hsent
            rw [hnil] at hlen
            exact absurd hlen (by decide)
          | some resp' =>
            rw [hserve] at hsent
            have hframe := hserve
            rw [serveOne_frame] at hframe
            obtain ⟨frame, -, hreply⟩ := Option.bind_eq_some_iff.mp hframe
            have hpre' : resp <+: resp' := by simpa using hsent
            rw [hpre'.eq_of_length (by rw [hlen, length_frameReply hreply]; rfl)]
        · cases h
      · cases h

/-- a native status is the status of the result -/
theorem callOp_remote_status {s : Session} {id : List UInt8} {opCode : Int} {vals : List Int64}
    {rt : RoundTrip} : (Peer.callOp s.client false s.dispatch opCode vals (.remote id fun _ => rt)).1
      = (callOpRemote id s.client (fun _ => rt) opCode (vals.map argOf)).status := rfl

/-- **What a remote call causes**: every handler call is the one of the cut request, and without a
handler call the caller gets an error. -/
theorem remoteCall_calls (s : Session) {id : List UInt8} (hid : id.length = wireIdLen)
    (opCode : Int) (vals : List Int64) :
    (∀ c ∈ (remoteCall s id opCode vals).2, c = (((UInt16.ofInt opCode).toNat : Int), sentArgs vals)) ∧
    ((remoteCall s id opCode vals).2 = [] →
      ∀ r, (remoteCall s id opCode vals).1 = some r → r.1 ≠ callOk) := by
  obtain ⟨recv, hrecv, hcalls, hreply⟩ := exchange_spec s.net s.reg s.handler s.server
    (callOpRequest id s.client opCode (vals.map argOf))
  unfold remoteCall
  by_cases hclosed : s.closed = true
  · rw [if_pos hclosed]
    refine ⟨by simp, fun _ r hr => ?_⟩
    cases hr
    show callConnClosed ≠ callOk
    decide
  · rw [if_neg hclosed]
    dsimp only
    refine ⟨fun c hc => ?_, fun hnil r hr => ?_⟩
    · rw [hcalls] at hc
      exact request_calls hid hrecv hc
    · obtain ⟨rt, hrt, rfl⟩ := Option.map_eq_some_iff.mp hr
      rw [callOp_remote_status, callOpRemote]
      cases rt with
      | failed timedOut => cases timedOut <;> decide
      | reply resp =>
        have hserve := hreply resp hrt
        rw [serveOne_frame] at hserve
        obtain ⟨frame, hf, hresp⟩ := Option.bind_eq_some_iff.mp hserve
        rw [hcalls, handlerCalls, hf, Option.bind_some, Option.toList_eq_nil_iff] at hnil
        obtain ⟨r', hdec, hstatus⟩ :=
          quiet_reply (frame_of_request hid hrecv hf).2 hnil hresp
        dsimp only
        rw [hdec]
        dsimp only
        split
        · decide
        · exact hstatus

/-! ## which calls are exact -/

/-- a kernel that always moves a byte -/
def fullNet : Net where
  dial := none
  clientPolls := List.replicate Served.most .ready
  clientMoves := List.replicate Served.most (.moved 1)
  serverPolls := List.replicate Served.most .ready
  serverMoves := List.replicate Served.most (.moved 1)

theorem full_calm (inbox : List UInt8) : Sock.Calm
    { polls := fullNet.clientPolls, moves := fullNet.clientMoves, inbox := inbox } := by
  have hp : fullNet.clientPolls.all PollAnswer.calm = true := by decide
  have hm : fullNet.clientMoves.all MoveAnswer.calm = true := by decide
  exact ⟨hp, hm⟩

theorem full_ample (inbox : List UInt8) : Sock.Ample
    { polls := fullNet.clientPolls, moves := fullNet.clientMoves, inbox := inbox } Served.most := by
  have hp : fullNet.clientMoves.length ≤ fullNet.clientPolls.countP (· != .interrupted) := by decide
  have hm : Served.most ≤ fullNet.clientMoves.countP MoveAnswer.moves := by decide
  exact ⟨hp, hm⟩

/-- with this kernel the whole request is served -/
theorem exchange_full (reg : EndpointRegistry) (handler : Option BridgeCallOpFn) (junk : Junk)
    {req : List UInt8} (hlen : req.length = wireCallopReqSize) :
    (fullNet.exchange (Served.serveOne reg handler junk) req).2.calls
      = handlerCalls reg handler req := by
  have hwrite : (Sock.fullWrite req).wp (fun _ s => s.sent = req)
      { polls := fullNet.clientPolls, moves := fullNet.clientMoves, inbox := [] } := by
    refine Sock.wp_fullWrite fun r s' bs _ hiff _ _ hout _ hcalm hret => ?_
    have hr : r ≠ none := hret ((full_ample []).mono (by rw [hlen]; decide))
    rw [hout, hiff.mp ((hcalm (full_calm [])).2 hr)]
    rfl
  have htold := Served.serveOne_told reg handler junk fullNet.serverPolls fullNet.serverMoves req
  unfold Await.wp at hwrite htold
  obtain ⟨hframe, -⟩ := htold.calm (full_calm req) (htold.returns (full_ample req))
  rw [exchange_served fullNet rfl, hwrite, htold.calls, handlerCalls, hframe, handlerCalls]
  rfl

/-- a call to a live endpoint, served to its end -/
theorem remoteCall_full {s : Session} {id : List UInt8} {seam : EndpointSeam}
    {handle : BridgeCallOpFn} (hid : id.length = wireIdLen) (hopen : s.closed = false)
    (hnet : s.net = fullNet) (hlive : s.reg.lookup id = .live seam)
    (hhandler : s.handler = some handle) (opCode : Int) (vals : List Int64) :
    (remoteCall s id opCode vals).2 = [(((UInt16.ofInt opCode).toNat : Int), sentArgs vals)] := by
  obtain ⟨r, hdec, hproto, hmsg, htarget, hop, hargs⟩ := decode_request hid s.client opCode vals
  have hlen := length_request hid s.client opCode vals
  have hgood : ¬ (r.msg ≠ wireMsgCallOp ∨ r.proto ≠ endpointProtoVersion) := by
    rw [hmsg, hproto]
    simp
  have hcall : frameCall s.reg s.handler (callOpRequest id s.client opCode (vals.map argOf))
      = some (((UInt16.ofInt opCode).toNat : Int), sentArgs vals) := by
    rw [frameCall, hdec]
    dsimp only
    rw [if_neg hgood, htarget, hlive, hhandler, hop, hargs]
  have hwhole : wholeFrame (callOpRequest id s.client opCode (vals.map argOf))
      = some (callOpRequest id s.client opCode (vals.map argOf)) := by
    have hsize : frameSize
        ((callOpRequest id s.client opCode (vals.map argOf)).take wirePrefixSize)
        = some wireCallopReqSize := by
      rw [callOpRequest_eq hid, callOpBytes, frameSize, wireDecodePrefix_head]
      rfl
    rw [wholeFrame, if_pos (by rw [hlen]; decide), hsize]
    dsimp only
    rw [if_pos (by omega), List.take_of_length_le (by omega)]
  unfold remoteCall
  rw [hopen, hnet]
  show (fullNet.exchange _ _).2.calls = _
  rw [exchange_full _ _ _ hlen, handlerCalls, hwhole, Option.bind_some, hcall]
  rfl

/-- `id` is open, the handler returns `CALL_OK`, the kernel moves every byte -/
def fullSession (id : List UInt8) : Session where
  closed := false
  dispatch := fun _ _ => callStatus callOk
  client := zeroJunk
  server := zeroJunk
  net := fullNet
  reg := EndpointRegistry.empty.registerSeam (EndpointSeam.new id)
  handler := some fun _ _ => callStatus callOk

theorem fullSession_calls {id : List UInt8} (hid : id.length = wireIdLen) (opCode : Int)
    (vals : List Int64) : (remoteCall (fullSession id) id opCode vals).2
      = [(((UInt16.ofInt opCode).toNat : Int), sentArgs vals)] :=
  remoteCall_full hid rfl rfl (EndpointRegistry.lookup_registerSeam rfl) rfl opCode vals

/-- what survives the casts and the clamps of a request -/
def Fits (opCode : Int) (vals : List Int64) : Prop :=
  (0 ≤ opCode ∧ opCode < 2 ^ 16) ∧ vals.length ≤ wireMaxCallArgs

theorem fits_iff (opCode : Int) (vals : List Int64) :
    (((UInt16.ofInt opCode).toNat : Int), sentArgs vals) = (opCode, vals.map argOf) ↔
      Fits opCode vals := by
  rw [Prod.mk.injEq, u16_cast_iff, InU16, Fits]
  constructor
  · rintro ⟨hop, hargs⟩
    refine ⟨hop, ?_⟩
    have hlen := length_sentArgs vals
    rw [hargs, List.length_map] at hlen
    exact hlen
  · rintro ⟨hop, hlen⟩
    exact ⟨hop, by rw [sentArgs, List.take_of_length_le hlen]⟩

/-- **Which remote calls execute what was asked or fail.**  For every op-code and every list of
arguments: in every session, whatever the kernel answers, the handler runs exactly what was asked or
the caller gets an error, if and only if the op-code has sixteen bits and there are at most two
arguments. -/
theorem remoteCall_exact_iff (id : TargetId) (opCode : Int) (vals : List Int64) :
    (∀ s : Session, CallExact opCode vals (remoteCall s id.bytes opCode vals)) ↔
      Fits opCode vals := by
  constructor
  · intro h
    apply (fits_iff opCode vals).mp
    apply (h (fullSession id.bytes)).1
    rw [fullSession_calls id.length_eq]
    exact List.mem_singleton.mpr rfl
  · intro hfits s
    obtain ⟨hcalls, hquiet⟩ := remoteCall_calls s id.length_eq opCode vals
    refine ⟨fun c hc => ?_, hquiet⟩
    rw [hcalls c hc]
    exact (fits_iff opCode vals).mpr hfits

/-- op-code `65537` with the argument `5` runs `square` on it -/
theorem remoteCall_wraps : ¬ CallExact 65537 [5]
    (remoteCall { fullSession zeroEndpoint.bytes with
        handler := some (bridgeHandler { bridge := some 0 } fun _ => idleLanes) }
      zeroEndpoint.bytes 65537 [5]) := by
  intro h
  have hcall := h.1 (bridgeOpSquare, [argOf 5]) (by
    rw [remoteCall_full zeroEndpoint.length_eq rfl rfl
      (EndpointRegistry.lookup_registerSeam rfl) rfl]
    decide)
  exact absurd hcall (by decide)

end RayX
