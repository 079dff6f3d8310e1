import RayX.Endpoint.Socket
import RayX.Endpoint.Transport

/-!
# Serving a connection

`serve_one` of `TransportListener` on an accepted socket: the two reads, the handler call and the
one write, over whatever the kernel answers.

* `Served`           the socket, the handler calls made for it, the buffers given to `full_write`;
* `Served.serveOne`  with `servePing` and `serveCallOp`, as the listener runs them;
* `wholeFrame`       the frame at the head of a stream, once it is complete;
* `handlerCalls`, `replies`   what a stream asks for and what it is answered;
* `Served.serveOne_bytes`     **serving depends on the received bytes alone**.
-/

namespace RayX
open Sys

structure Served where
  sock : Sock
  calls : List (Int × List CallOpArg) := []
  responses : List (List UInt8) := []

namespace Served

/-- an accepted connection on which the client sends `stream` -/
def accept (polls : List PollAnswer) (moves : List MoveAnswer) (stream : List UInt8) : Served :=
  { sock := { polls := polls, moves := moves, inbox := stream } }

def onSock {α : Type} (m : Await Sock α) : Await Served α :=
  .zoom sock (fun s w => { w with sock := s }) m

def respond (resp : List UInt8) : Await Served Unit := do
  .modify fun w => { w with responses := w.responses ++ [resp] }
  let _ ← onSock (Sock.fullWrite resp)
  pure ()

def invoke (handle : BridgeCallOpFn) (opCode : Int) (args : List CallOpArg) :
    Await Served CallResult := do
  .modify fun w => { w with calls := w.calls ++ [(opCode, args)] }
  pure (handle opCode args)

section
variable (reg : EndpointRegistry) (handler : Option BridgeCallOpFn) (junk : Junk)

def servePing (req : List UInt8) : Await Served Unit :=
  match wireDecodeRequest req with
  | none => pure ()
  | some r =>
    let resp := junk.bytes wireRespSize
    if r.proto ≠ endpointProtoVersion ∨ r.msg ≠ wireMsgPing then
      respond (wireEncodeResponse endpointProtoVersion wireProtoErr 0 resp)
    else
      match reg.lookup r.targetId with
      | .live seam =>
        respond (wireEncodeResponse endpointProtoVersion wireOk (seam.onPing r.nonce) resp)
      | .closed => respond (wireEncodeResponse endpointProtoVersion wirePeerClosed 0 resp)
      | .absent => respond (wireEncodeResponse endpointProtoVersion wireNotFound 0 resp)

/-- the three-state lookup and, for a live target, the handler -/
def dispatch (r : CallOp) : Await Served CallResult :=
  match reg.lookup r.targetId with
  | .live _ =>
    match handler with
    | none => pure (callStatus callRuntimeAbsent)
    | some handle => invoke handle r.opCode (r.args.take (min r.argc wireMaxCallArgs).toNat)
  | .closed => pure (callStatus callPeerClosed)
  | .absent => pure (callStatus callNotFound)

def serveCallOp (req : List UInt8) : Await Served Unit :=
  match wireDecodeCallOp req with
  | none => pure ()
  | some r =>
    let resp := junk.bytes wireCallopRespSize
    if r.proto ≠ endpointProtoVersion then
      respond (wireEncodeCallResp endpointProtoVersion callProtoErr 0 0 resp)
    else do
      let cr ← dispatch reg handler r
      respond (wireEncodeCallResp endpointProtoVersion cr.status cr.tag cr.bits resp)

/-- the rest of a frame of `size` bytes behind its prefix -/
def readRest (size : Nat) (pre : List UInt8) (serve : List UInt8 → Await Served Unit) :
    Await Served Unit := do
  let (r, body) ← onSock (Sock.fullRead (size - wirePrefixSize))
  if r ≠ .ok then pure () else serve (pre ++ body)

def serveOne : Await Served Unit := do
  let (r, pre) ← onSock (Sock.fullRead wirePrefixSize)
  if r ≠ .ok then pure ()
  else
    match wireDecodePrefix pre with
    | none => pure ()
    | some (_, msg) =>
      if msg = wireMsgPing then readRest wireReqSize pre (servePing reg junk)
      else if msg = wireMsgCallOp then
        readRest wireCallopReqSize pre (serveCallOp reg handler junk)
      else pure ()

end

end Served

/-! ## what a stream asks for -/

/-- the size of the frame that begins with `pre` -/
def frameSize (pre : List UInt8) : Option Nat :=
  match wireDecodePrefix pre with
  | none => none
  | some (_, msg) =>
    if msg = wireMsgPing then some wireReqSize
    else if msg = wireMsgCallOp then some wireCallopReqSize
    else none

def wholeFrame (stream : List UInt8) : Option (List UInt8) :=
  if wirePrefixSize ≤ stream.length then
    match frameSize (stream.take wirePrefixSize) with
    | none => none
    | some size => if size ≤ stream.length then some (stream.take size) else none
  else none

/-- arrays of zeros -/
def zeroJunk : Junk := ⟨fun n => List.replicate n 0, fun _ => List.length_replicate⟩

section
variable (reg : EndpointRegistry) (handler : Option BridgeCallOpFn)

/-- the handler call of a call frame: a live target of this protocol version -/
def frameCall (frame : List UInt8) : Option (Int × List CallOpArg) :=
  match wireDecodeCallOp frame with
  | none => none
  | some r =>
    if r.msg ≠ wireMsgCallOp ∨ r.proto ≠ endpointProtoVersion then none
    else
      match reg.lookup r.targetId, handler with
      | .live _, some _ => some (r.opCode, r.args.take (min r.argc wireMaxCallArgs).toNat)
      | _, _ => none

def handlerCalls (stream : List UInt8) : List (Int × List CallOpArg) :=
  ((wholeFrame stream).bind (frameCall reg handler)).toList

/-- the answer to a stream, when the handler returns `result`; `none` is no handler -/
def replies (result : Option CallResult) (stream : List UInt8) : List (List UInt8) :=
  (serveOne reg (result.map fun cr _ _ => cr) zeroJunk stream).toList

end

/-! ## frames of a stream -/

theorem wholeFrame_short {stream : List UInt8} (h : stream.length < wirePrefixSize) :
    wholeFrame stream = none := if_neg (by omega)

theorem wholeFrame_joined {pre rest : List UInt8} (hpre : pre.length = wirePrefixSize) :
    wholeFrame (pre ++ rest) = match frameSize pre with
      | none => none
      | some size =>
        if size ≤ (pre ++ rest).length then some ((pre ++ rest).take size) else none := by
  rw [wholeFrame, if_pos (by simp [hpre]), List.take_left' hpre]

theorem wireDecodeCallOp_msg {frame : List UInt8} {r : CallOp} (h : wireDecodeCallOp frame = some r) :
    r.msg = intAt frame 6 := by
  rw [wireDecodeCallOp] at h
  split at h
  · cases h
    rfl
  · cases h

/-- the message decides the size -/
theorem frameSize_eq {pre : List UInt8} {proto msg : Int}
    (h : wireDecodePrefix pre = some (proto, msg)) : frameSize pre =
      if msg = wireMsgPing then some wireReqSize
      else if msg = wireMsgCallOp then some wireCallopReqSize
      else none := by
  rw [frameSize, h]

theorem frameSize_some {pre : List UInt8} {size : Nat} (h : frameSize pre = some size) :
    ∃ proto msg, wireDecodePrefix pre = some (proto, msg) ∧
      ((size = wireReqSize ∧ msg = wireMsgPing) ∨ (size = wireCallopReqSize ∧ msg = wireMsgCallOp)) := by
  cases hpre : wireDecodePrefix pre with
  | none =>
    rw [frameSize, hpre] at h
    cases h
  | some pm =>
    obtain ⟨proto, msg⟩ := pm
    rw [frameSize_eq hpre] at h
    refine ⟨proto, msg, rfl, ?_⟩
    split at h
    · rename_i hping
      exact Or.inl ⟨(Option.some.inj h).symm, hping⟩
    · split at h
      · rename_i hcall
        exact Or.inr ⟨(Option.some.inj h).symm, hcall⟩
      · cases h

theorem frameSize_le {pre : List UInt8} {size : Nat} (h : frameSize pre = some size) :
    wirePrefixSize ≤ size := by
  obtain ⟨_, _, _, ⟨rfl, _⟩ | ⟨rfl, _⟩⟩ := frameSize_some h
  · decide
  · decide

/-- a frame stays whole when more bytes come -/
theorem wholeFrame_append {stream rest frame : List UInt8} (h : wholeFrame stream = some frame) :
    wholeFrame (stream ++ rest) = some frame := by
  unfold wholeFrame at h ⊢
  split at h
  · rename_i h7
    rw [if_pos (by rw [List.length_append]; omega), List.take_append_of_le_length h7]
    split at h
    · cases h
    · rename_i size hsize
      split at h
      · rename_i hle
        rw [if_pos (by rw [List.length_append]; omega), List.take_append_of_le_length hle]
        exact h
      · cases h
  · cases h

/-- what is answered to a whole frame -/
def frameReply (reg : EndpointRegistry) (handler : Option BridgeCallOpFn) (junk : Junk)
    (frame : List UInt8) : Option (List UInt8) :=
  if intAt frame 6 = wireMsgPing then servePing reg junk frame
  else serveCallOp reg handler junk frame

/-- the message of a frame stands in its prefix -/
theorem intAt_frame {stream : List UInt8} {proto msg : Int} {size : Nat}
    (h : wireDecodePrefix (stream.take wirePrefixSize) = some (proto, msg))
    (hsize : wirePrefixSize ≤ size) : intAt (stream.take size) 6 = msg := by
  have hsize' : 7 ≤ size := hsize
  rw [wireDecodePrefix_take, wireDecodePrefix] at h
  split at h
  · cases h
    rw [intAt, byteAt_take (by omega), intAt]
  · cases h

theorem serveOne_frame (reg : EndpointRegistry) (handler : Option BridgeCallOpFn) (junk : Junk)
    (stream : List UInt8) : serveOne reg handler junk stream
      = (wholeFrame stream).bind (frameReply reg handler junk) := by
  have hne : ¬ wireMsgCallOp = wireMsgPing := by decide
  by_cases h7 : wirePrefixSize ≤ stream.length
  · rw [wholeFrame, if_pos h7, frameSize]
    simp only [serveOne, fullRead_ok h7, Option.bind_eq_bind, Option.bind_some]
    rcases hpre : wireDecodePrefix (stream.take wirePrefixSize) with _ | ⟨proto, msg⟩
    · rfl
    · -- the rest of a frame of `size` bytes is there together with the whole frame
      have hrest : ∀ size, wirePrefixSize ≤ size → fullRead (size - wirePrefixSize)
          (stream.drop wirePrefixSize) = if size ≤ stream.length then
            some ((stream.drop wirePrefixSize).take (size - wirePrefixSize), stream.drop size)
            else none := by
        intro size hsize
        unfold fullRead
        rw [List.length_drop, List.drop_drop, Nat.add_sub_cancel' hsize]
        by_cases hle : size ≤ stream.length
        · rw [if_pos hle, if_pos (by omega)]
        · rw [if_neg hle, if_neg (by omega)]
      have hjoin : ∀ size, wirePrefixSize ≤ size → stream.take wirePrefixSize ++
          (stream.drop wirePrefixSize).take (size - wirePrefixSize) = stream.take size := by
        intro size hsize
        rw [← List.take_add, Nat.add_sub_cancel' hsize]
      rw [Option.bind_some]
      dsimp only
      by_cases hping : msg = wireMsgPing
      · have hsize : wirePrefixSize ≤ wireReqSize := by decide
        rw [if_pos hping, if_pos hping, hrest _ hsize]
        dsimp only
        by_cases hle : wireReqSize ≤ stream.length
        · rw [if_pos hle, if_pos hle, Option.bind_some, Option.bind_some, hjoin _ hsize,
            frameReply, intAt_frame hpre hsize, if_pos hping]
        · rw [if_neg hle, if_neg hle]
          rfl
      · rw [if_neg hping, if_neg hping]
        by_cases hcall : msg = wireMsgCallOp
        · have hsize : wirePrefixSize ≤ wireCallopReqSize := by decide
          rw [if_pos hcall, if_pos hcall, hrest _ hsize]
          dsimp only
          by_cases hle : wireCallopReqSize ≤ stream.length
          · rw [if_pos hle, if_pos hle, Option.bind_some, Option.bind_some, hjoin _ hsize,
              frameReply, intAt_frame hpre hsize, if_neg hping]
          · rw [if_neg hle, if_neg hle]
            rfl
        · rw [if_neg hcall, if_neg hcall]
          rfl
  · rw [wholeFrame, if_neg h7]
    simp only [serveOne, fullRead, if_neg h7, Option.bind_eq_bind, Option.bind_none]

/-- both responses have one size -/
theorem length_frameReply {reg : EndpointRegistry} {handler : Option BridgeCallOpFn} {junk : Junk}
    {frame resp : List UInt8} (h : frameReply reg handler junk frame = some resp) :
    resp.length = wireRespSize := by
  have hping : ∀ status value, (wireEncodeResponse endpointProtoVersion status value
      (junk.bytes wireRespSize)).length = wireRespSize := by
    intro status value
    rw [wireEncodeResponse_eq _ _ _ (junk.length_eq wireRespSize)]
    simp [wireRespSize]
  have hcall : ∀ status tag bits, (wireEncodeCallResp endpointProtoVersion status tag bits
      (junk.bytes wireCallopRespSize)).length = wireRespSize := by
    intro status tag bits
    rw [wireEncodeCallResp_eq _ _ _ _ (junk.length_eq wireCallopRespSize)]
    simp [wireRespSize]
  unfold frameReply servePing serveCallOp at h
  split at h
  · split at h
    · cases h
    · dsimp only at h
      split at h
      · rw [← Option.some.inj h]
        exact hping _ _
      · split at h
        · rw [← Option.some.inj h]
          exact hping _ _
        · rw [← Option.some.inj h]
          exact hping _ _
        · rw [← Option.some.inj h]
          exact hping _ _
  · split at h
    · cases h
    · dsimp only at h
      split at h
      · rw [← Option.some.inj h]
        exact hcall _ _ _
      · rw [← Option.some.inj h]
        exact hcall _ _ _

/-! ## the serving of a stream -/

namespace Served
variable {reg : EndpointRegistry} {handler : Option BridgeCallOpFn} {junk : Junk}

/-- the most bytes that one connection moves: a call and its response -/
def most : Nat := wireCallopReqSize + wireRespSize

/-- **What holds after any part of the serving**, whether it has returned or waits: the calls and
the responses are those of the received bytes.  `s₀` is the socket at the start. -/
structure Told (reg : EndpointRegistry) (handler : Option BridgeCallOpFn) (junk : Junk) (s₀ : Sock)
    (r : Option Unit) (w : Served) : Prop where
  split : s₀.inbox = w.sock.received ++ w.sock.inbox
  calls : w.calls = handlerCalls reg handler w.sock.received
  responses : w.responses = (RayX.serveOne reg handler junk w.sock.received).toList
  sent : w.sock.sent <+: w.responses.flatten
  waits : r = none → w.sock.Waits
  calm : s₀.Calm → r ≠ none →
    wholeFrame w.sock.received = wholeFrame s₀.inbox ∧ w.sock.sent = w.responses.flatten
  returns : s₀.Ample most → r ≠ none

/-- nothing was asked and nothing answered yet -/
structure Fresh (s₀ : Sock) (w : Served) : Prop where
  split : s₀.inbox = w.sock.received ++ w.sock.inbox
  calls : w.calls = []
  responses : w.responses = []
  sent : w.sock.sent = []
  calm : s₀.Calm → w.sock.Calm

variable {s₀ : Sock} {n : Nat} {r : Option Unit} {w : Served}

/-- the stream ended, or the serving still reads, before a frame was whole -/
theorem Fresh.unread (hw : Fresh s₀ w) (hf : wholeFrame w.sock.received = none)
    (hwaits : r = none → w.sock.Waits) (hcalm : s₀.Calm → r ≠ none → wholeFrame s₀.inbox = none)
    (hret : s₀.Ample most → r ≠ none) : Told reg handler junk s₀ r w where
  split := hw.split
  calls := by rw [hw.calls, handlerCalls, hf]; rfl
  responses := by rw [hw.responses, serveOne_frame, hf]; rfl
  sent := by rw [hw.sent]; exact List.nil_prefix
  waits := hwaits
  calm hc hr := ⟨by rw [hf, hcalm hc hr], by rw [hw.sent, hw.responses]; rfl⟩
  returns := hret

/-- the frame was whole, its call is made, and its reply is written -/
theorem wp_respond {frame resp : List UInt8}
    (hsplit : s₀.inbox = w.sock.received ++ w.sock.inbox)
    (hf : wholeFrame w.sock.received = some frame)
    (hcalls : w.calls = (frameCall reg handler frame).toList) (hresp : w.responses = [])
    (hsent : w.sock.sent = []) (hreply : frameReply reg handler junk frame = some resp)
    (hcalm : s₀.Calm → w.sock.Calm) (hample : s₀.Ample most → w.sock.Ample wireRespSize) :
    (respond resp).wp (Told reg handler junk s₀) w := by
  refine Await.wp_bind (Await.wp_modify (Await.wp_bind (Await.wp_zoom (Sock.wp_fullWrite ?_))))
  intro r s' bs hpre hiff hrec hin hout hwaits hdone hret
  have hlen := length_frameReply hreply
  have htold : ∀ r' : Option Unit, (r' = none ↔ r = none) →
      Told reg handler junk s₀ r'
        { w with sock := s', responses := w.responses ++ [resp] } := by
    intro r' hr'
    refine ⟨?_, ?_, ?_, ?_, fun h => hwaits (hr'.mp h), fun hc hr => ⟨?_, ?_⟩, fun ha h => ?_⟩
    · rw [hrec, hin]
      exact hsplit
    · show w.calls = handlerCalls reg handler s'.received
      rw [hrec, hcalls, handlerCalls, hf, Option.bind_some]
    · show w.responses ++ [resp] = _
      rw [hrec, hresp, serveOne_frame, hf, Option.bind_some, hreply]
      rfl
    · show s'.sent <+: (w.responses ++ [resp]).flatten
      rw [hout, hresp, hsent]
      simpa using hpre
    · show wholeFrame s'.received = _
      rw [hrec, hf, hsplit, wholeFrame_append hf]
    · have hbs : bs = resp := hiff.mp ((hdone (hcalm hc)).2 fun h => hr (hr'.mpr h))
      show s'.sent = (w.responses ++ [resp]).flatten
      rw [hout, hresp, hsent, hbs]
      simp
    · refine hret ?_ (hr'.mp h)
      rw [hlen]
      exact hample ha
  cases r with
  | none => exact htold none (by simp)
  | some r => exact htold (some ()) (by simp)

/-- a whole frame that is dropped -/
theorem Fresh.dropped {frame : List UInt8} (hw : Fresh s₀ w)
    (hf : wholeFrame w.sock.received = some frame) (hcall : frameCall reg handler frame = none)
    (hreply : frameReply reg handler junk frame = none) :
    Told reg handler junk s₀ (some ()) w where
  split := hw.split
  calls := by rw [hw.calls, handlerCalls, hf, Option.bind_some, hcall]; rfl
  responses := by rw [hw.responses, serveOne_frame, hf, Option.bind_some, hreply]; rfl
  sent := by rw [hw.sent]; exact List.nil_prefix
  waits := nofun
  calm _ _ := by
    refine ⟨?_, by rw [hw.sent, hw.responses]; rfl⟩
    rw [hw.split, wholeFrame_append hf, hf]
  returns _ := nofun

theorem wp_servePing {frame : List UInt8} (hw : Fresh s₀ w)
    (hample : s₀.Ample most → w.sock.Ample wireRespSize)
    (hf : wholeFrame w.sock.received = some frame) (hmsg : intAt frame 6 = wireMsgPing) :
    (servePing reg junk frame).wp (Told reg handler junk s₀) w := by
  have hreply : frameReply reg handler junk frame = RayX.servePing reg junk frame := if_pos hmsg
  -- a ping frame read as a call is a call of another message
  have hcall : frameCall reg handler frame = none := by
    unfold frameCall
    split
    · rfl
    · rename_i r hr
      have hr' : r.msg = wireMsgPing := (wireDecodeCallOp_msg hr).trans hmsg
      rw [if_pos (Or.inl (by rw [hr']; decide))]
  have hrespond : ∀ resp, RayX.servePing reg junk frame = some resp →
      (respond resp).wp (Told reg handler junk s₀) w := by
    intro resp h
    exact wp_respond hw.split hf (by rw [hw.calls, hcall]; rfl) hw.responses hw.sent
      (hreply.trans h) hw.calm hample
  unfold servePing
  unfold RayX.servePing at hreply hrespond
  split
  · rename_i hd
    rw [hd] at hreply
    exact Await.wp_pure (hw.dropped hf hcall hreply)
  · rename_i q hd
    rw [hd] at hrespond
    dsimp only at hrespond ⊢
    split
    · rename_i hbad
      exact hrespond _ (if_pos hbad)
    · rename_i hbad
      rw [if_neg hbad] at hrespond
      cases hl : reg.lookup q.targetId with
      | live seam => exact hrespond _ (by rw [hl])
      | closed => exact hrespond _ (by rw [hl])
      | absent => exact hrespond _ (by rw [hl])

theorem wp_invoke {Q : Option CallResult → Served → Prop} {handle : BridgeCallOpFn} {opCode : Int}
    {args : List CallOpArg} (h : Q (some (handle opCode args))
      { w with calls := w.calls ++ [(opCode, args)] }) : (invoke handle opCode args).wp Q w :=
  Await.wp_bind (Await.wp_modify (Await.wp_pure h))

theorem wp_serveCallOp {frame : List UInt8} (hw : Fresh s₀ w)
    (hample : s₀.Ample most → w.sock.Ample wireRespSize)
    (hf : wholeFrame w.sock.received = some frame) (hmsg : intAt frame 6 = wireMsgCallOp) :
    (serveCallOp reg handler junk frame).wp (Told reg handler junk s₀) w := by
  have hne : ¬ intAt frame 6 = wireMsgPing := by
    rw [hmsg]
    decide
  have hreply : frameReply reg handler junk frame = RayX.serveCallOp reg handler junk frame :=
    if_neg hne
  -- the response to a frame that asks for the calls `cs`
  have hrespond : ∀ cs resp, (frameCall reg handler frame).toList = cs →
      RayX.serveCallOp reg handler junk frame = some resp →
      (respond resp).wp (Told reg handler junk s₀) { w with calls := cs } := by
    intro cs resp hcs h
    exact wp_respond hw.split hf hcs.symm hw.responses hw.sent (hreply.trans h) hw.calm hample
  unfold serveCallOp
  unfold RayX.serveCallOp callResult at hreply hrespond
  unfold frameCall at hrespond
  cases hd : wireDecodeCallOp frame with
  | none =>
    rw [hd] at hreply
    exact Await.wp_pure (hw.dropped hf (by rw [frameCall, hd]) hreply)
  | some q =>
    have hq : q.msg = wireMsgCallOp := (wireDecodeCallOp_msg hd).trans hmsg
    rw [hd] at hrespond
    dsimp only at hrespond ⊢
    have hnil : ∀ Q resp, (respond resp).wp Q { w with calls := [] } → (respond resp).wp Q w := by
      intro Q resp h
      rw [← hw.calls] at h
      exact h
    by_cases hbad : q.proto ≠ endpointProtoVersion
    · rw [if_pos hbad]
      rw [if_pos (Or.inr hbad), if_pos hbad] at hrespond
      exact hnil _ _ (hrespond _ _ rfl rfl)
    · have hgood : ¬ (q.msg ≠ wireMsgCallOp ∨ q.proto ≠ endpointProtoVersion) :=
        not_or.mpr ⟨fun h => h hq, hbad⟩
      rw [if_neg hbad]
      rw [if_neg hgood, if_neg hbad] at hrespond
      refine Await.wp_bind ?_
      unfold dispatch
      cases hl : reg.lookup q.targetId with
      | closed =>
        rw [hl] at hrespond
        exact Await.wp_pure (hnil _ _ (hrespond _ _ rfl rfl))
      | absent =>
        rw [hl] at hrespond
        exact Await.wp_pure (hnil _ _ (hrespond _ _ rfl rfl))
      | live seam =>
        rw [hl] at hrespond
        cases handler with
        | none => exact Await.wp_pure (hnil _ _ (hrespond _ _ rfl rfl))
        | some handle =>
          refine wp_invoke ?_
          rw [hw.calls, List.nil_append]
          exact hrespond _ _ rfl rfl

/-- **A read of `n` more bytes**, before which nothing was asked or answered: it ends without a whole
frame, or goes on with the `n` bytes; `k` bytes are to move after it -/
theorem wp_read {k : Nat} {f : IoResult × List UInt8 → Await Served Unit} (hw : Fresh s₀ w)
    (hample : s₀.Ample most → w.sock.Ample (n + k))
    (hnone : ∀ bs, bs.length < n → wholeFrame (w.sock.received ++ bs) = none)
    (hstop : ∀ r bs, r ≠ .ok → f (r, bs) = pure ())
    (hok : ∀ w' bs, bs.length = n → Fresh s₀ w' → w'.sock.received = w.sock.received ++ bs →
      (s₀.Ample most → w'.sock.Ample k) → (f (.ok, bs)).wp (Told reg handler junk s₀) w') :
    (onSock (Sock.fullRead n) >>= f).wp (Told reg handler junk s₀) w := by
  refine Await.wp_bind (Await.wp_zoom (Sock.wp_fullRead ?_ ?_))
  · intro r s' bs hr hlt hrec hin hout hwaits hcalm hret
    have hw' : Fresh s₀ { w with sock := s' } :=
      ⟨by rw [hw.split, hrec, List.append_assoc, ← hin], hw.calls, hw.responses,
        by rw [hout, hw.sent], fun hc => (hcalm (hw.calm hc)).1⟩
    have hcut : wholeFrame s'.received = none := by
      rw [hrec]
      exact hnone bs hlt
    have htold : ∀ r' : Option Unit, (r' = none ↔ r = none) →
        Told reg handler junk s₀ r' { w with sock := s' } := by
      intro r' hr'
      refine hw'.unread hcut (fun h => hwaits (hr'.mp h)) (fun hc h => ?_) fun ha h => ?_
      · rw [hw'.split, (hcalm (hw.calm hc)).2 fun h' => h (hr'.mpr h'), List.append_nil]
        exact hcut
      · exact hret ((hample ha).mono (by omega)) (hr'.mp h)
    cases r with
    | none => exact htold none (by simp)
    | some r =>
      show (f (r, bs)).wp _ _
      rw [hstop r bs (by simpa using hr)]
      exact Await.wp_pure (htold (some ()) (by simp))
  · intro s' bs hlen hrec hin hout hcalm hret
    exact hok { w with sock := s' } bs hlen
      ⟨by rw [hw.split, hrec, List.append_assoc, ← hin], hw.calls, hw.responses,
        by rw [hout, hw.sent], fun hc => hcalm (hw.calm hc)⟩ hrec fun ha => hret k (hample ha)

/-- the second read of both messages -/
theorem wp_readRest {pre : List UInt8} {size : Nat} {serve : List UInt8 → Await Served Unit}
    (hw : Fresh s₀ w) (hrec : w.sock.received = pre) (hpre : pre.length = wirePrefixSize)
    (hsize : frameSize pre = some size)
    (hample : s₀.Ample most → w.sock.Ample (size - wirePrefixSize + wireRespSize))
    (hserve : ∀ w' body, Fresh s₀ w' → (s₀.Ample most → w'.sock.Ample wireRespSize) →
      w'.sock.received = pre ++ body → wholeFrame (pre ++ body) = some (pre ++ body) →
      (serve (pre ++ body)).wp (Told reg handler junk s₀) w') :
    (readRest size pre serve).wp (Told reg handler junk s₀) w := by
  have hle := frameSize_le hsize
  refine wp_read hw hample ?_ (fun r bs hr => if_pos hr) ?_
  · intro bs hlt
    rw [hrec, wholeFrame_joined hpre, hsize]
    dsimp only
    rw [if_neg (by rw [List.length_append]; omega)]
  · intro w' bs hlen hw' hrec' hample'
    have hall : (pre ++ bs).length = size := by
      rw [List.length_append]
      omega
    show (if IoResult.ok ≠ .ok then pure () else serve (pre ++ bs) : Await Served Unit).wp _ _
    rw [if_neg (by simp)]
    refine hserve _ bs hw' hample' (by rw [hrec', hrec]) ?_
    rw [wholeFrame_joined hpre, hsize]
    dsimp only
    rw [if_pos (by omega), List.take_of_length_le (by omega)]

variable (reg handler junk) in
/-- **Serving a stream**, for whatever the kernel answers -/
theorem serveOne_told (polls : List PollAnswer) (moves : List MoveAnswer) (stream : List UInt8) :
    (serveOne reg handler junk).wp
      (Told reg handler junk (accept polls moves stream).sock) (accept polls moves stream) := by
  refine wp_read ⟨rfl, rfl, rfl, rfl, id⟩ (k := wireCallopReqSize - wirePrefixSize + wireRespSize)
    id ?_ (fun r bs hr => if_pos hr) ?_
  · intro bs hlt
    exact wholeFrame_short hlt
  · intro w' bs hlen hw hrec hample
    have hrec' : w'.sock.received = bs := hrec
    have hdrop : frameSize bs = none →
        Told reg handler junk (accept polls moves stream).sock (some ()) w' := by
      intro hsize
      have hnone : ∀ rest, wholeFrame (bs ++ rest) = none := by
        intro rest
        rw [wholeFrame_joined hlen, hsize]
      refine hw.unread ?_ nofun (fun _ _ => ?_) fun _ => nofun
      · have := hnone []
        rw [List.append_nil] at this
        rw [hrec']
        exact this
      · rw [hw.split, hrec']
        exact hnone _
    show (if IoResult.ok ≠ .ok then pure () else _ : Await Served Unit).wp _ _
    rw [if_neg (by simp)]
    cases hpre : wireDecodePrefix bs with
    | none => exact Await.wp_pure (hdrop (by rw [frameSize, hpre]))
    | some pm =>
      obtain ⟨proto, msg⟩ := pm
      have hmsg : ∀ body, intAt (bs ++ body) 6 = msg := by
        intro body
        have h7 : wirePrefixSize ≤ (bs ++ body).length := by
          rw [List.length_append]
          omega
        have hp : wireDecodePrefix ((bs ++ body).take wirePrefixSize) = some (proto, msg) := by
          rw [List.take_left' hlen, hpre]
        rw [← intAt_frame hp h7, List.take_length]
      dsimp only
      by_cases hping : msg = wireMsgPing
      · have hsize : frameSize bs = some wireReqSize := (frameSize_eq hpre).trans (if_pos hping)
        rw [if_pos hping]
        refine wp_readRest hw hrec' hlen hsize (fun ha => (hample ha).mono (by decide)) ?_
        intro w'' body hw' hample' hbody hf
        exact wp_servePing hw' hample' (by rw [hbody, hf]) ((hmsg body).trans hping)
      · rw [if_neg hping]
        by_cases hcall : msg = wireMsgCallOp
        · have hsize : frameSize bs = some wireCallopReqSize := by
            rw [frameSize_eq hpre, if_neg hping, if_pos hcall]
          rw [if_pos hcall]
          refine wp_readRest hw hrec' hlen hsize hample ?_
          intro w'' body hw' hample' hbody hf
          exact wp_serveCallOp hw' hample' (by rw [hbody, hf]) ((hmsg body).trans hcall)
        · rw [if_neg hcall]
          refine Await.wp_pure (hdrop ?_)
          rw [frameSize_eq hpre, if_neg hping, if_neg hcall]

end Served

/-! ## what the bytes decide -/

/-- a whole frame is a ping or a call of its full size, with the magic -/
theorem wholeFrame_some {stream frame : List UInt8} (h : wholeFrame stream = some frame) :
    frame <+: stream ∧ hasMagic frame = true ∧
    ((frame.length = wireReqSize ∧ intAt frame 6 = wireMsgPing) ∨
      (frame.length = wireCallopReqSize ∧ intAt frame 6 = wireMsgCallOp)) := by
  unfold wholeFrame at h
  split at h
  swap
  · cases h
  split at h
  · cases h
  rename_i size hsize
  split at h
  swap
  · cases h
  rename_i hle
  cases h
  obtain ⟨proto, msg, hpre, hkind⟩ := frameSize_some hsize
  have hle7 := frameSize_le hsize
  have hlen : (stream.take size).length = size := by
    rw [List.length_take]
    omega
  refine ⟨List.take_prefix _ _, ?_, ?_⟩
  · have htake : (stream.take size).take wirePrefixSize = stream.take wirePrefixSize := by
      rw [List.take_take, Nat.min_eq_left hle7]
    rw [← htake, wireDecodePrefix_take, wireDecodePrefix] at hpre
    split at hpre
    · assumption
    · cases hpre
  · rw [hlen, intAt_frame hpre hle7]
    exact hkind

/-- a call for a live target, in a whole frame of this protocol version -/
def LiveCall (reg : EndpointRegistry) (received : List UInt8) (opCode : Int)
    (args : List CallOpArg) : Prop :=
  ∃ frame r seam, wholeFrame received = some frame ∧ frame.length = wireCallopReqSize ∧
    hasMagic frame = true ∧ wireDecodeCallOp frame = some r ∧ r.msg = wireMsgCallOp ∧
    r.proto = endpointProtoVersion ∧ reg.lookup r.targetId = .live seam ∧ opCode = r.opCode ∧
    args = r.args.take (min r.argc wireMaxCallArgs).toNat

theorem frameCall_some {reg : EndpointRegistry} {handler : Option BridgeCallOpFn}
    {frame : List UInt8} {c : Int × List CallOpArg} (h : frameCall reg handler frame = some c) :
    ∃ r seam handle, wireDecodeCallOp frame = some r ∧ r.msg = wireMsgCallOp ∧
      r.proto = endpointProtoVersion ∧ reg.lookup r.targetId = .live seam ∧
      handler = some handle ∧ c = (r.opCode, r.args.take (min r.argc wireMaxCallArgs).toNat) := by
  unfold frameCall at h
  split at h
  · cases h
  · rename_i r hd
    split at h
    · cases h
    · rename_i hgood
      obtain ⟨hmsg, hver⟩ := not_or.mp hgood
      split at h
      · rename_i seam handle hl
        cases h
        exact ⟨r, seam, handle, hd, Decidable.not_not.mp hmsg, Decidable.not_not.mp hver, hl, rfl,
          rfl⟩
      · cases h

theorem mem_handlerCalls {reg : EndpointRegistry} {handler : Option BridgeCallOpFn}
    {stream : List UInt8} {opCode : Int} {args : List CallOpArg}
    (h : (opCode, args) ∈ handlerCalls reg handler stream) : LiveCall reg stream opCode args := by
  rw [handlerCalls, Option.mem_toList] at h
  obtain ⟨frame, hf, hc⟩ := Option.bind_eq_some_iff.mp h
  obtain ⟨r, seam, handle, hd, hmsg, hver, hl, -, hcall⟩ := frameCall_some hc
  obtain ⟨-, hmagic, hsize⟩ := wholeFrame_some hf
  obtain ⟨hop, hargs⟩ := Prod.mk.inj hcall
  refine ⟨frame, r, seam, hf, ?_, hmagic, hd, hmsg, hver, hl, hop, hargs⟩
  -- a ping frame is a call of another message
  rcases hsize with ⟨-, hping⟩ | ⟨hlen, -⟩
  · have hne : ¬ wireMsgPing = wireMsgCallOp := by decide
    exact absurd (hping.symm.trans ((wireDecodeCallOp_msg hd).symm.trans hmsg)) hne
  · exact hlen

/-- what the handler returned for `calls` -/
def handlerResult (handler : Option BridgeCallOpFn) (calls : List (Int × List CallOpArg)) :
    Option CallResult :=
  handler.map fun handle =>
    match calls with
    | [] => {}
    | (opCode, args) :: _ => handle opCode args

theorem servePing_junk (reg : EndpointRegistry) (junk junk' : Junk) (req : List UInt8) :
    servePing reg junk req = servePing reg junk' req := by
  have hout : ∀ status value,
      wireEncodeResponse endpointProtoVersion status value (junk.bytes wireRespSize)
        = wireEncodeResponse endpointProtoVersion status value (junk'.bytes wireRespSize) := by
    intro status value
    rw [wireEncodeResponse_eq _ _ _ (junk.length_eq wireRespSize),
      wireEncodeResponse_eq _ _ _ (junk'.length_eq wireRespSize)]
  unfold servePing
  simp only [hout]

/-- the reply to a call depends on the handler through its result -/
theorem serveCallOp_result (reg : EndpointRegistry) (handler : Option BridgeCallOpFn)
    (junk junk' : Junk) {req : List UInt8} (hmsg : intAt req 6 = wireMsgCallOp) :
    serveCallOp reg handler junk req = serveCallOp reg
      ((handlerResult handler (frameCall reg handler req).toList).map fun cr _ _ => cr) junk'
      req := by
  have hout : ∀ status tag bits,
      wireEncodeCallResp endpointProtoVersion status tag bits (junk.bytes wireCallopRespSize)
        = wireEncodeCallResp endpointProtoVersion status tag bits
          (junk'.bytes wireCallopRespSize) := by
    intro status tag bits
    rw [wireEncodeCallResp_eq _ _ _ _ (junk.length_eq wireCallopRespSize),
      wireEncodeCallResp_eq _ _ _ _ (junk'.length_eq wireCallopRespSize)]
  unfold serveCallOp frameCall
  cases hd : wireDecodeCallOp req with
  | none => rfl
  | some r =>
    have hr : r.msg = wireMsgCallOp := (wireDecodeCallOp_msg hd).trans hmsg
    dsimp only
    by_cases hbad : r.proto ≠ endpointProtoVersion
    · rw [if_pos hbad, if_pos hbad, hout]
    · have hgood : ¬ (r.msg ≠ wireMsgCallOp ∨ r.proto ≠ endpointProtoVersion) :=
        not_or.mpr ⟨fun h => h hr, hbad⟩
      rw [if_neg hbad, if_neg hbad, if_neg hgood, hout]
      unfold callResult
      cases hl : reg.lookup r.targetId with
      | live seam => cases handler <;> rfl
      | closed => rfl
      | absent => rfl

/-- the answer depends on the handler through its result, and not on what the arrays held -/
theorem serveOne_replies (reg : EndpointRegistry) (handler : Option BridgeCallOpFn) (junk : Junk)
    (stream : List UInt8) : (serveOne reg handler junk stream).toList
      = replies reg (handlerResult handler (handlerCalls reg handler stream)) stream := by
  rw [replies, serveOne_frame reg handler junk, serveOne_frame reg _ zeroJunk, handlerCalls]
  cases hf : wholeFrame stream with
  | none => rw [Option.bind_none, Option.bind_none]
  | some frame =>
    rw [Option.bind_some, Option.bind_some, Option.bind_some]
    apply congrArg Option.toList
    obtain ⟨-, -, ⟨-, hping⟩ | ⟨-, hcall⟩⟩ := wholeFrame_some hf
    · rw [frameReply, frameReply, if_pos hping, if_pos hping]
      exact servePing_junk reg junk zeroJunk frame
    · have hne : ¬ intAt frame 6 = wireMsgPing := by
        rw [hcall]
        decide
      rw [frameReply, frameReply, if_neg hne, if_neg hne]
      exact serveCallOp_result reg handler junk zeroJunk hcall

/-- **What serving owes a client** whose bytes come in on the socket `s₀`, whether it has returned or
waits. -/
structure ServesBytes (reg : EndpointRegistry) (handler : Option BridgeCallOpFn) (s₀ : Sock)
    (r : Option Unit) (w : Served) : Prop where
  oneResponse : w.responses.length ≤ 1
  oneCall : w.calls.length ≤ 1
  live : ∀ opCode args, (opCode, args) ∈ w.calls → LiveCall reg w.sock.received opCode args
  received : w.sock.received <+: s₀.inbox
  calls : w.calls = handlerCalls reg handler w.sock.received
  responses : w.responses = replies reg (handlerResult handler w.calls) w.sock.received
  sent : w.sock.sent <+: w.responses.flatten
  early : wholeFrame s₀.inbox = none → w.responses = [] ∧ w.calls = []
  /-- without a deadline or a failed call the bytes are those of the stream -/
  calm : s₀.Calm → r ≠ none → w.calls = handlerCalls reg handler s₀.inbox ∧
    w.responses = replies reg (handlerResult handler w.calls) s₀.inbox ∧
    w.sock.sent = w.responses.flatten
  waits : r = none → w.sock.Waits
  returns : s₀.Ample Served.most → r ≠ none

/-- **Serving a connection depends on its bytes.**  However the kernel cuts the stream into reads,
interrupts or fails them, there is at most one response and at most one handler call, the call only
for a live target in a whole frame, and both are functions of the received bytes, the registry and
what the handler returned; a stream without a whole frame gets neither. -/
theorem serveOne_bytes (reg : EndpointRegistry) (handler : Option BridgeCallOpFn) (junk : Junk)
    (polls : List PollAnswer) (moves : List MoveAnswer) (stream : List UInt8) :
    (Served.serveOne reg handler junk).wp
      (ServesBytes reg handler (Served.accept polls moves stream).sock)
      (Served.accept polls moves stream) := by
  refine Await.wp_mono ?_ (Served.serveOne_told reg handler junk polls moves stream)
  intro r w h
  have hnone : wholeFrame stream = none → wholeFrame w.sock.received = none := by
    intro hn
    have hsplit : stream = w.sock.received ++ w.sock.inbox := h.split
    cases hf : wholeFrame w.sock.received with
    | none => rfl
    | some frame =>
      rw [hsplit, wholeFrame_append hf] at hn
      cases hn
  have hresp := h.responses
  rw [serveOne_replies, ← h.calls] at hresp
  refine ⟨?_, ?_, ?_, ⟨_, h.split.symm⟩, h.calls, hresp, h.sent, fun hn => ⟨?_, ?_⟩, ?_, h.waits,
    h.returns⟩
  · rw [h.responses]
    exact Option.length_toList_le
  · rw [h.calls]
    exact Option.length_toList_le
  · intro opCode args hmem
    rw [h.calls] at hmem
    exact mem_handlerCalls hmem
  · rw [h.responses, serveOne_frame, hnone hn]
    rfl
  · rw [h.calls, handlerCalls, hnone hn]
    rfl
  · intro hc hr
    obtain ⟨hf, hsent⟩ := h.calm hc hr
    have hcalls : w.calls
        = handlerCalls reg handler (Served.accept polls moves stream).sock.inbox := by
      rw [h.calls, handlerCalls, handlerCalls, hf]
    refine ⟨hcalls, ?_, hsent⟩
    rw [hcalls, ← serveOne_replies reg handler junk, h.responses, serveOne_frame, serveOne_frame, hf]

end RayX
