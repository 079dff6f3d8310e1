import RayX.Endpoint.Codec
import RayX.Lib.Codec

/-!
# Round trips of the wire codec

The encoders of `endpoint_seam.hpp` cast what they are given to the fields of a frame.  Each frame is
a `Codec`: `norm` is the cast, and what is in range is what the cast leaves alone.

* `InU8`, `InU16`       the range of a field of one and of two bytes;
* `requestCodec` ..     the four frames, over a buffer with any contents;
* `RoundTrips`          what the codec owes its callers;
* `wire_roundTrips`     **every frame, the prefix of the requests and the 64-bit field**.
-/

namespace RayX
open Sys

/-! ## ranges -/

def InU8 (v : Int) : Prop := 0 ≤ v ∧ v < 2 ^ 8
def InU16 (v : Int) : Prop := 0 ≤ v ∧ v < 2 ^ 16

theorem u8_cast_iff (v : Int) : ((UInt8.ofInt v).toNat : Int) = v ↔ InU8 v := by
  rw [toNat_u8_ofInt, InU8]
  omega

theorem u16_cast_iff (v : Int) : ((UInt16.ofInt v).toNat : Int) = v ↔ InU16 v := by
  rw [toNat_u16_ofInt, InU16]
  omega

theorem CallOpArg.wire_iff (a : CallOpArg) : a.wire = a ↔ InU8 a.tag := by
  rw [← u8_cast_iff]
  constructor
  · intro h
    exact congrArg CallOpArg.tag h
  · intro h
    rw [CallOpArg.wire, h]

/-! ## the frames as codecs -/

/-- the head is made of what the casts leave -/
theorem headBytes_cast (proto : Int) (b6 b7 : UInt8) :
    headBytes (UInt16.ofInt proto).toNat b6 b7 = headBytes proto b6 b7 := by
  rw [headBytes, u16_ofInt_toNat, headBytes]

theorem padId_padId (id : List UInt8) : padId (padId id) = padId id := padId_eq (length_padId id)

section
variable {out : List UInt8}

def requestCodec (h : out.length = wireReqSize) : Codec Request (List UInt8) where
  encode r := wireEncodeRequest r.proto r.targetId r.nonce out
  decode := wireDecodeRequest
  norm r := { proto := (UInt16.ofInt r.proto).toNat, msg := wireMsgPing,
              targetId := padId r.targetId, nonce := r.nonce }
  decode_encode r := by
    rw [wireEncodeRequest_bytes _ _ _ h, wireDecodeRequest_frame _ _ _ _ (length_padId _)]
    rfl
  encode_norm r := by
    rw [wireEncodeRequest_bytes _ _ _ h, wireEncodeRequest_bytes _ _ _ h, headBytes_cast,
      padId_padId]

def responseCodec (h : out.length = wireRespSize) : Codec Response (List UInt8) where
  encode r := wireEncodeResponse r.proto r.status r.value out
  decode := wireDecodeResponse
  norm r := { proto := (UInt16.ofInt r.proto).toNat, status := (UInt8.ofInt r.status).toNat,
              value := r.value }
  decode_encode r := by rw [wireEncodeResponse_eq _ _ _ h, wireDecodeResponse_frame]
  encode_norm r := by
    rw [wireEncodeResponse_eq _ _ _ h, wireEncodeResponse_eq _ _ _ h, headBytes_cast,
      u8_ofInt_toNat]

def callRespCodec (h : out.length = wireCallopRespSize) : Codec CallResp (List UInt8) where
  encode r := wireEncodeCallResp r.proto r.status r.resultTag r.resultBits out
  decode := wireDecodeCallResp
  norm r := { proto := (UInt16.ofInt r.proto).toNat, status := (UInt8.ofInt r.status).toNat,
              resultTag := (UInt8.ofInt r.resultTag).toNat, resultBits := r.resultBits }
  decode_encode r := by rw [wireEncodeCallResp_eq _ _ _ _ h, wireDecodeCallResp_frame]
  encode_norm r := by
    rw [wireEncodeCallResp_eq _ _ _ _ h, wireEncodeCallResp_eq _ _ _ _ h, headBytes_cast,
      u8_ofInt_toNat, u8_ofInt_toNat]

theorem slotBytes_wire (a : CallOpArg) : slotBytes a.wire = slotBytes a := by
  rw [slotBytes, CallOpArg.wire, u8_ofInt_toNat, slotBytes]

/-- the slots that came back are written as they were -/
theorem slotsBytes_wire (args : List CallOpArg) {n : Nat} (hn : n ≤ wireMaxCallArgs) :
    slotsBytes ((wireSlots args n).map CallOpArg.wire) n = slotsBytes args n := by
  have hget : ∀ i, i < n →
      ((wireSlots args n).map CallOpArg.wire).getD i {} = (args.getD i {}).wire := by
    intro i hi
    have hi' : i < wireMaxCallArgs := by omega
    simp [wireSlots, List.getD, hi, hi']
  have hle : ∀ m, m ≤ n →
      slotsBytes ((wireSlots args n).map CallOpArg.wire) m = slotsBytes args m := by
    intro m
    induction m with
    | zero => exact fun _ => rfl
    | succ m ih =>
      intro hm
      rw [slotsBytes_succ, slotsBytes_succ, ih (by omega), hget m (by omega), slotBytes_wire]
  exact hle n (Nat.le_refl n)

def callOpCodec (h : out.length = wireCallopReqSize) : Codec CallOp (List UInt8) where
  encode r := wireEncodeCallOp r.proto r.targetId r.opCode r.args r.argc out
  decode := wireDecodeCallOp
  norm r := { proto := (UInt16.ofInt r.proto).toNat, msg := wireMsgCallOp,
              targetId := padId r.targetId, opCode := (UInt16.ofInt r.opCode).toNat,
              argc := clampArgc r.argc,
              args := (wireSlots r.args (clampArgc r.argc).toNat).map CallOpArg.wire }
  decode_encode r := by
    obtain ⟨hn, hargc⟩ := clampArgc_toNat r.argc
    rw [wireEncodeCallOp_bytes _ _ _ _ _ h, wireDecodeCallOp_bytes _ _ _ (length_padId _) hn,
      ← hargc]
  encode_norm r := by
    obtain ⟨hn, hargc⟩ := clampArgc_toNat r.argc
    have hagain : clampArgc (clampArgc r.argc) = clampArgc r.argc := by
      rw [hargc, clampArgc_eq hn]
    rw [wireEncodeCallOp_bytes _ _ _ _ _ h, wireEncodeCallOp_bytes _ _ _ _ _ h, callOpBytes,
      hagain, headBytes_cast, padId_padId, u16_ofInt_toNat, slotsBytes_wire _ hn, callOpBytes]

end

/-! ## what comes back -/

/-- slots behind the first `n` do not come back -/
theorem wireSlots_append (args pad : List CallOpArg) :
    wireSlots (args ++ pad) args.length = wireSlots args args.length := by
  apply List.map_congr_left
  intro i _
  by_cases h : i < args.length
  · rw [if_pos h, if_pos h]
    simp [List.getD, List.getElem?_append_left h]
  · rw [if_neg h, if_neg h]

theorem map_wire {args : List CallOpArg} (h : ∀ a ∈ args, InU8 a.tag) :
    args.map CallOpArg.wire = args := by
  have hid : args.map CallOpArg.wire = args.map id :=
    List.map_congr_left fun a ha => a.wire_iff.mpr (h a ha)
  rw [hid, List.map_id]

/-- the prefix of a frame is what `serve_one` dispatches on -/
theorem wireDecodePrefix_head (proto : Int) (b6 b7 : UInt8) (body : List UInt8) :
    wireDecodePrefix ((headBytes proto b6 b7 ++ body).take wirePrefixSize)
      = some (((UInt16.ofInt proto).toNat : Int), (b6.toNat : Int)) := by
  have htake : (headBytes proto b6 b7 ++ body).take wirePrefixSize
      = wireMagic ++ (beBytes 2 (UInt16.ofInt proto).toNat ++ [b6]) := by
    rw [head_append]
    simp [wirePrefixSize, wireMagic, beBytes]
  have hmagic : hasMagic (wireMagic ++ (beBytes 2 (UInt16.ofInt proto).toNat ++ [b6])) = true := by
    rw [hasMagic_iff (by simp [wireMagic])]
    rfl
  rw [htake, wireDecodePrefix, hmagic, if_pos rfl, protoAt, getU16_append (p := 4) _ rfl, intAt,
    ← List.append_assoc, byteAt_append (by simp [wireMagic])]

theorem getI64_putI64 {out : List UInt8} {p : Nat} (v : Int64) (h : p + 8 ≤ out.length) :
    wireGetI64 (wirePutI64 p v out) p = v := by
  have hp : (out.take p).length = p := by
    rw [List.length_take]
    omega
  have hsplit : wirePutI64 p v out = out.take p ++ (i64Bytes v ++ (out.drop p).drop 8) := by
    rw [← List.append_assoc, ← putI64_append v hp (by simp; omega), List.take_append_drop]
  rw [hsplit, getI64_append _ v hp]

theorem putI64_getI64 {bs out : List UInt8} {p : Nat} (hbs : bs.length = 8)
    (h : p + 8 ≤ out.length) : wirePutI64 p (wireGetI64 bs 0) out = writeAt p bs out := by
  have hp : (out.take p).length = p := by
    rw [List.length_take]
    omega
  have hbytes : i64Bytes (wireGetI64 bs 0) = bs := by
    rw [i64Bytes_getI64 (by omega), slice, List.drop_zero, List.take_of_length_le (by omega)]
  have hput := putI64_append (wireGetI64 bs 0) hp (show 8 ≤ (out.drop p).length by simp; omega)
  rw [List.take_append_drop, hbytes, List.drop_drop] at hput
  rw [hput, writeAt, hbs]

/-- **What the codec owes its callers**: what is in range comes back, and whatever was encoded is
encoded again to the same bytes, into buffers with any contents. -/
structure RoundTrips : Prop where
  request : ∀ {proto : Int} {id : List UInt8} (nonce : Int64) {out : List UInt8},
    InU16 proto → id.length = wireIdLen → out.length = wireReqSize →
    wireDecodeRequest (wireEncodeRequest proto id nonce out)
      = some { proto := proto, msg := wireMsgPing, targetId := id, nonce := nonce }
  response : ∀ {proto status : Int} (value : Int64) {out : List UInt8},
    InU16 proto → InU8 status → out.length = wireRespSize →
    wireDecodeResponse (wireEncodeResponse proto status value out)
      = some { proto := proto, status := status, value := value }
  callOp : ∀ {proto opCode : Int} {id : List UInt8} {args : List CallOpArg} (pad : List CallOpArg)
      {out : List UInt8},
    InU16 proto → id.length = wireIdLen → InU16 opCode → args.length ≤ wireMaxCallArgs →
    (∀ a ∈ args, InU8 a.tag) → out.length = wireCallopReqSize →
    wireDecodeCallOp (wireEncodeCallOp proto id opCode (args ++ pad) args.length out)
      = some { proto := proto, msg := wireMsgCallOp, targetId := id, opCode := opCode,
               argc := args.length,
               args := args ++ List.replicate (wireMaxCallArgs - args.length)
                 { tag := 0, bits := 0 } }
  callResp : ∀ {proto status tag : Int} (bits : Int64) {out : List UInt8},
    InU16 proto → InU8 status → InU8 tag → out.length = wireCallopRespSize →
    wireDecodeCallResp (wireEncodeCallResp proto status tag bits out)
      = some { proto := proto, status := status, resultTag := tag, resultBits := bits }
  requestPrefix : ∀ {proto : Int} (id : List UInt8) (nonce : Int64) {out : List UInt8},
    InU16 proto → out.length = wireReqSize →
    wireDecodePrefix ((wireEncodeRequest proto id nonce out).take wirePrefixSize)
      = some (proto, wireMsgPing)
  callOpPrefix : ∀ {proto : Int} (opCode : Int) (id : List UInt8) (args : List CallOpArg)
      (argc : Int) {out : List UInt8},
    InU16 proto → out.length = wireCallopReqSize →
    wireDecodePrefix ((wireEncodeCallOp proto id opCode args argc out).take wirePrefixSize)
      = some (proto, wireMsgCallOp)
  get_put : ∀ (v : Int64) {p : Nat} {out : List UInt8}, p + 8 ≤ out.length →
    wireGetI64 (wirePutI64 p v out) p = v
  put_get : ∀ {bs : List UInt8} {p : Nat} {out : List UInt8}, bs.length = 8 → p + 8 ≤ out.length →
    wirePutI64 p (wireGetI64 bs 0) out = writeAt p bs out
  requestAgain : ∀ (proto : Int) (id : List UInt8) (nonce : Int64) {out out' : List UInt8},
    out.length = wireReqSize → out'.length = wireReqSize →
    ∃ r, wireDecodeRequest (wireEncodeRequest proto id nonce out) = some r ∧
      wireEncodeRequest r.proto r.targetId r.nonce out' = wireEncodeRequest proto id nonce out
  responseAgain : ∀ (proto status : Int) (value : Int64) {out out' : List UInt8},
    out.length = wireRespSize → out'.length = wireRespSize →
    ∃ r, wireDecodeResponse (wireEncodeResponse proto status value out) = some r ∧
      wireEncodeResponse r.proto r.status r.value out' = wireEncodeResponse proto status value out
  callOpAgain : ∀ (proto opCode : Int) (id : List UInt8) (args : List CallOpArg) (argc : Int)
      {out out' : List UInt8},
    out.length = wireCallopReqSize → out'.length = wireCallopReqSize →
    ∃ r, wireDecodeCallOp (wireEncodeCallOp proto id opCode args argc out) = some r ∧
      wireEncodeCallOp r.proto r.targetId r.opCode r.args r.argc out'
        = wireEncodeCallOp proto id opCode args argc out
  callRespAgain : ∀ (proto status tag : Int) (bits : Int64) {out out' : List UInt8},
    out.length = wireCallopRespSize → out'.length = wireCallopRespSize →
    ∃ r, wireDecodeCallResp (wireEncodeCallResp proto status tag bits out) = some r ∧
      wireEncodeCallResp r.proto r.status r.resultTag r.resultBits out'
        = wireEncodeCallResp proto status tag bits out

/-- **The round trips of the wire codec.**  Every frame, the prefix of the two requests and the
64-bit field, for all values that the casts leave alone; and the second encoding of anything. -/
theorem wire_roundTrips : RoundTrips where
  request {proto id} nonce {out} hproto hid h := by
    have hback := (requestCodec h).decode_encode
      { proto := proto, msg := wireMsgPing, targetId := id, nonce := nonce }
    simpa only [requestCodec, (u16_cast_iff proto).mpr hproto, padId_eq hid] using hback
  response {proto status} value {out} hproto hstatus h := by
    have hback := (responseCodec h).decode_encode
      { proto := proto, status := status, value := value }
    simpa only [responseCodec, (u16_cast_iff proto).mpr hproto, (u8_cast_iff status).mpr hstatus]
      using hback
  callOp {proto opCode id args} pad {out} hproto hid hop hargs htags h := by
    have hback := (callOpCodec h).decode_encode
      { proto := proto, msg := wireMsgCallOp, targetId := id, opCode := opCode,
        argc := args.length, args := args ++ pad }
    have hslots : (wireSlots (args ++ pad) args.length).map CallOpArg.wire
        = args ++ List.replicate (wireMaxCallArgs - args.length) ({} : CallOpArg) := by
      rw [wireSlots_append, wireSlots_eq hargs, List.map_append, map_wire htags,
        List.map_replicate]
      rfl
    simpa only [callOpCodec, (u16_cast_iff proto).mpr hproto, (u16_cast_iff opCode).mpr hop,
      padId_eq hid, clampArgc_eq hargs, Int.toNat_natCast, hslots] using hback
  callResp {proto status tag} bits {out} hproto hstatus htag h := by
    have hback := (callRespCodec h).decode_encode
      { proto := proto, status := status, resultTag := tag, resultBits := bits }
    simpa only [callRespCodec, (u16_cast_iff proto).mpr hproto, (u8_cast_iff status).mpr hstatus,
      (u8_cast_iff tag).mpr htag] using hback
  requestPrefix {proto} id nonce {out} hproto h := by
    rw [wireEncodeRequest_bytes _ id nonce h, wireDecodePrefix_head, (u16_cast_iff _).mpr hproto]
    rfl
  callOpPrefix {proto} opCode id args argc {out} hproto h := by
    rw [wireEncodeCallOp_bytes _ id opCode args argc h, callOpBytes, wireDecodePrefix_head,
      (u16_cast_iff _).mpr hproto]
    rfl
  get_put v {p out} h := getI64_putI64 v h
  put_get {bs p out} hbs h := putI64_getI64 hbs h
  requestAgain proto id nonce {out out'} h h' := by
    obtain ⟨r, hr, hagain⟩ := (requestCodec h).again
      { proto := proto, msg := wireMsgPing, targetId := id, nonce := nonce }
    simp only [requestCodec] at hr hagain
    refine ⟨r, hr, ?_⟩
    rw [← hagain, wireEncodeRequest_bytes _ _ _ h', wireEncodeRequest_bytes _ _ _ h]
  responseAgain proto status value {out out'} h h' := by
    obtain ⟨r, hr, hagain⟩ := (responseCodec h).again
      { proto := proto, status := status, value := value }
    simp only [responseCodec] at hr hagain
    refine ⟨r, hr, ?_⟩
    rw [← hagain, wireEncodeResponse_eq _ _ _ h', wireEncodeResponse_eq _ _ _ h]
  callOpAgain proto opCode id args argc {out out'} h h' := by
    obtain ⟨r, hr, hagain⟩ := (callOpCodec h).again
      { proto := proto, msg := wireMsgCallOp, targetId := id, opCode := opCode, argc := argc,
        args := args }
    simp only [callOpCodec] at hr hagain
    refine ⟨r, hr, ?_⟩
    rw [← hagain, wireEncodeCallOp_bytes _ _ _ _ _ h', wireEncodeCallOp_bytes _ _ _ _ _ h]
  callRespAgain proto status tag bits {out out'} h h' := by
    obtain ⟨r, hr, hagain⟩ := (callRespCodec h).again
      { proto := proto, status := status, resultTag := tag, resultBits := bits }
    simp only [callRespCodec] at hr hagain
    refine ⟨r, hr, ?_⟩
    rw [← hagain, wireEncodeCallResp_eq _ _ _ _ h', wireEncodeCallResp_eq _ _ _ _ h]

end RayX
