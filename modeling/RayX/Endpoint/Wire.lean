import RayX.Lib.Struct
import RayX.Endpoint.Codec

/-!
# The Python wire codec

`endpoint/_wire.py`: the same four frames through `struct` formats.

* `encodeRequest` .. `decodeCallResp`   the Python functions, with their refusals;
* `TargetId`                            23 ASCII bytes, a `str` on one side and a `std::string` on
                                        the other;
* `wire_agree`                          **the native and the Python codec write the same bytes and
                                        read the same fields**.
-/

namespace RayX
open Sys

inductive WireError where
  | valueError (msg : String)
  | structError (e : StructError)
  | unicodeError
  deriving DecidableEq, Repr

def badMagic : WireError := .valueError "bad magic"

/-! ## ASCII text -/

/-- `s.encode("ascii")` -/
def encodeAscii (s : String) : Except WireError (List UInt8) :=
  if s.toList.all (fun c => decide (c.toNat < 128)) then
    .ok (s.toList.map fun c => UInt8.ofNat c.toNat)
  else .error .unicodeError

def isAscii (bs : List UInt8) : Bool := bs.all fun b => decide (b.toNat < 128)

def asciiStr (bs : List UInt8) : String := String.ofList (bs.map fun b => Char.ofNat b.toNat)

/-- `bs.decode("ascii")` -/
def decodeAscii (bs : List UInt8) : Except WireError String :=
  if isAscii bs then .ok (asciiStr bs) else .error .unicodeError

theorem toNat_ofNat_ascii {b : UInt8} (h : b.toNat < 128) : (Char.ofNat b.toNat).toNat = b.toNat := by
  have hv : b.toNat.isValidChar := Or.inl (by omega)
  rw [Char.ofNat, dif_pos hv]
  rfl

theorem encodeAscii_asciiStr {bs : List UInt8} (h : isAscii bs = true) :
    encodeAscii (asciiStr bs) = .ok bs := by
  have hall : ∀ b ∈ bs, b.toNat < 128 := by simpa [isAscii] using h
  have hback : ∀ b ∈ bs, UInt8.ofNat (Char.ofNat b.toNat).toNat = b := by
    intro b hb
    rw [toNat_ofNat_ascii (hall b hb), UInt8.ofNat_toNat]
  rw [encodeAscii, asciiStr, String.toList_ofList, if_pos]
  · rw [List.map_map]
    exact congrArg Except.ok (List.map_congr_left hback |>.trans (List.map_id' bs))
  · rw [List.all_map, List.all_eq_true]
    intro b hb
    exact decide_eq_true (by rw [toNat_ofNat_ascii (hall b hb)]; exact hall b hb)

structure TargetId where
  bytes : List UInt8
  length_eq : bytes.length = wireIdLen
  ascii : isAscii bytes = true

def TargetId.str (id : TargetId) : String := asciiStr id.bytes

theorem TargetId.encode (id : TargetId) : encodeAscii id.str = .ok id.bytes :=
  encodeAscii_asciiStr id.ascii

/-! ## formats -/

def wireReqFmt : List Fmt := [.s 4, .H, .B, .B, .s 23, .q]
def wireRespFmt : List Fmt := [.s 4, .H, .B, .B, .q]

/-- `"Bq" * WIRE_MAX_CALL_ARGS` behind the fixed fields -/
def wireCallopReqFmt : List Fmt :=
  [.s 4, .H, .B, .B, .s 23, .H, .B, .B] ++ (List.replicate wireMaxCallArgs [.B, .q]).flatten

def wireCallopRespFmt : List Fmt := [.s 4, .H, .B, .B, .q]

def structPack (fmt : List Fmt) (vs : List Field) : Except WireError (List UInt8) :=
  (pack fmt vs).mapError .structError

def structUnpack (fmt : List Fmt) (buf : List UInt8) : Except WireError (List Field) :=
  (unpack fmt buf).mapError .structError

/-- an assignment of fields to another number of names; no format yields them -/
def badTuple : WireError := .valueError "wrong number of values to unpack"

/-! ## encoders -/

/-- the id bytes of a request, exactly `WIRE_ID_LEN` of them -/
def encodeId (targetId : String) : Except WireError (List UInt8) := do
  let tid ← encodeAscii targetId
  if tid.length ≠ wireIdLen then
    .error (.valueError s!"target id must be {wireIdLen} bytes, got {tid.length}")
  else .ok tid

def encodeRequest (proto : Int) (targetId : String) (nonce : Int) :
    Except WireError (List UInt8) := do
  let tid ← encodeId targetId
  structPack wireReqFmt
    [.bytes wireMagic, .int proto, .int wireMsgPing, .int 0, .bytes tid, .int nonce]

def encodeResponse (proto status value : Int) : Except WireError (List UInt8) :=
  structPack wireRespFmt [.bytes wireMagic, .int proto, .int status, .int 0, .int value]

/-- tag and bits of every slot -/
def flatSlots (slots : List (Int × Int)) : List Field :=
  slots.flatMap fun a => [.int a.1, .int a.2]

def encodeCallOp (proto : Int) (targetId : String) (opCode : Int) (args : List (Int × Int)) :
    Except WireError (List UInt8) := do
  let tid ← encodeId targetId
  if wireMaxCallArgs < args.length then
    .error (.valueError s!"at most {wireMaxCallArgs} args, got {args.length}")
  else
    let argc := args.length
    let slots := args ++ List.replicate (wireMaxCallArgs - argc) (0, 0)
    structPack wireCallopReqFmt
      ([.bytes wireMagic, .int proto, .int wireMsgCallOp, .int 0, .bytes tid, .int opCode,
        .int argc, .int 0] ++ flatSlots slots)

def encodeCallResp (proto status resultTag resultBits : Int) : Except WireError (List UInt8) :=
  structPack wireCallopRespFmt
    [.bytes wireMagic, .int proto, .int status, .int resultTag, .int resultBits]

/-! ## decoders -/

/-- the size check and the unpacking; `what` names the frame -/
def unpackFrame (what : String) (fmt : List Fmt) (buf : List UInt8) :
    Except WireError (List Field) :=
  if buf.length ≠ calcsize fmt then
    .error (.valueError s!"{what} must be {calcsize fmt} bytes, got {buf.length}")
  else structUnpack fmt buf

def decodeRequest (buf : List UInt8) : Except WireError (Int × Int × String × Int) := do
  match ← unpackFrame "request" wireReqFmt buf with
  | [.bytes magic, .int proto, .int msg, .int _, .bytes tid, .int nonce] =>
    if magic ≠ wireMagic then .error badMagic
    else do
      let tid ← decodeAscii tid
      .ok (proto, msg, tid, nonce)
  | _ => .error badTuple

def decodeResponse (buf : List UInt8) : Except WireError (Int × Int × Int) := do
  match ← unpackFrame "response" wireRespFmt buf with
  | [.bytes magic, .int proto, .int status, .int _, .int value] =>
    if magic ≠ wireMagic then .error badMagic else .ok (proto, status, value)
  | _ => .error badTuple

/-- `tag0, bits0, tag1, bits1, ...` two by two -/
def slotPairs : List Field → List (Int × Int)
  | .int tag :: .int bits :: rest => (tag, bits) :: slotPairs rest
  | _ => []

def decodeCallOp (buf : List UInt8) :
    Except WireError (Int × Int × String × Int × Int × List (Int × Int)) := do
  match ← unpackFrame "call request" wireCallopReqFmt buf with
  | .bytes magic :: .int proto :: .int msg :: .int _ :: .bytes tid :: .int opCode :: .int argc ::
      .int _ :: rest =>
    if magic ≠ wireMagic then .error badMagic
    else do
      let slots := slotPairs rest
      let argc := min argc wireMaxCallArgs
      let tid ← decodeAscii tid
      .ok (proto, msg, tid, opCode, argc, slots.take argc.toNat)
  | _ => .error badTuple

def decodeCallResp (buf : List UInt8) : Except WireError (Int × Int × Int × Int) := do
  match ← unpackFrame "call response" wireCallopRespFmt buf with
  | [.bytes magic, .int proto, .int status, .int resultTag, .int resultBits] =>
    if magic ≠ wireMagic then .error badMagic else .ok (proto, status, resultTag, resultBits)
  | _ => .error badTuple

/-! ## same bytes -/

theorem encodeId_str (id : TargetId) : encodeId id.str = .ok id.bytes := by
  rw [encodeId, id.encode]
  show (if id.bytes.length ≠ wireIdLen then _ else Except.ok id.bytes) = _
  rw [if_neg (not_not.mpr id.length_eq)]

theorem structPack_ok {fmt : List Fmt} {vs : List Field} {bs : List UInt8}
    (hlen : fmt.length = vs.length) (h : packAll fmt vs = .ok bs) : structPack fmt vs = .ok bs := by
  rw [structPack, pack, if_neg (not_not.mpr hlen), h]
  rfl

/-- the head of a frame and what follows it -/
theorem packAll_head (proto : UInt16) (b6 b7 : UInt8) {fmt : List Fmt} {vs : List Field}
    {body : List UInt8} (h : packAll fmt vs = .ok body) :
    packAll (.s 4 :: .H :: .B :: .B :: fmt)
      (.bytes wireMagic :: .int proto.toNat :: .int b6.toNat :: .int b7.toNat :: vs)
      = .ok (headBytes proto.toNat b6 b7 ++ body) := by
  have hmagic : (Fmt.s 4).pack (.bytes wireMagic) = .ok wireMagic := pack_s rfl
  rw [packAll_cons hmagic (packAll_cons (pack_H proto) (packAll_cons (pack_B b6)
    (packAll_cons (pack_B b7) h))), headBytes, u16_ofInt_toNat]
  simp

theorem encodeRequest_agree (proto : UInt16) (id : TargetId) (nonce : Int64) {out : List UInt8}
    (h : out.length = wireReqSize) :
    encodeRequest proto.toNat id.str nonce.toInt
      = .ok (wireEncodeRequest proto.toNat id.bytes nonce out) := by
  have hid : (Fmt.s 23).pack (.bytes id.bytes) = .ok id.bytes := pack_s id.length_eq
  have hbody : packAll [.s 23, .q] [.bytes id.bytes, .int nonce.toInt]
      = .ok (id.bytes ++ i64Bytes nonce) := by
    rw [packAll_cons hid (packAll_cons (pack_q nonce) packAll_nil), i64Bytes, List.append_nil]
  rw [wireEncodeRequest_eq _ nonce id.length_eq h, encodeRequest, encodeId_str]
  exact structPack_ok rfl (packAll_head proto 1 0 hbody)

theorem encodeResp_agree (proto : UInt16) (b6 b7 : UInt8) (value : Int64) :
    structPack wireRespFmt
        [.bytes wireMagic, .int proto.toNat, .int b6.toNat, .int b7.toNat, .int value.toInt]
      = .ok (headBytes proto.toNat b6 b7 ++ i64Bytes value) := by
  have hbody : packAll [.q] [.int value.toInt] = .ok (i64Bytes value) := by
    rw [packAll_cons (pack_q value) packAll_nil, i64Bytes, List.append_nil]
  exact structPack_ok rfl (packAll_head proto b6 b7 hbody)

theorem encodeResponse_agree (proto : UInt16) (status : UInt8) (value : Int64) {out : List UInt8}
    (h : out.length = wireRespSize) :
    encodeResponse proto.toNat status.toNat value.toInt
      = .ok (wireEncodeResponse proto.toNat status.toNat value out) := by
  rw [wireEncodeResponse_eq _ _ value h, u8_ofInt_toNat]
  exact encodeResp_agree proto status 0 value

theorem encodeCallResp_agree (proto : UInt16) (status tag : UInt8) (bits : Int64)
    {out : List UInt8} (h : out.length = wireCallopRespSize) :
    encodeCallResp proto.toNat status.toNat tag.toNat bits.toInt
      = .ok (wireEncodeCallResp proto.toNat status.toNat tag.toNat bits out) := by
  rw [wireEncodeCallResp_eq _ _ _ bits h, u8_ofInt_toNat, u8_ofInt_toNat]
  exact encodeResp_agree proto status tag bits

/-- an argument as the native caller passes it -/
def slotOf (a : UInt8 × Int64) : CallOpArg := { tag := a.1.toNat, bits := a.2 }

/-- an argument as the Python caller passes it -/
def pairOf (a : UInt8 × Int64) : Int × Int := (a.1.toNat, a.2.toInt)

theorem slotBytes_slotOf (a : UInt8 × Int64) : slotBytes (slotOf a) = a.1 :: i64Bytes a.2 := by
  rw [slotBytes, slotOf, u8_ofInt_toNat]

theorem packAll_slots (args : List (UInt8 × Int64)) :
    packAll (List.replicate args.length [Fmt.B, Fmt.q]).flatten (flatSlots (args.map pairOf))
      = .ok ((args.map slotOf).flatMap slotBytes) := by
  induction args with
  | nil => rfl
  | cons a args ih =>
    show packAll (.B :: .q :: (List.replicate args.length [Fmt.B, Fmt.q]).flatten)
      (.int a.1.toNat :: .int a.2.toInt :: flatSlots (args.map pairOf)) = _
    rw [packAll_cons (pack_B a.1) (packAll_cons (pack_q a.2) ih), List.map_cons, List.flatMap_cons,
      slotBytes_slotOf]
    rfl

theorem length_flatSlots (slots : List (Int × Int)) :
    (flatSlots slots).length = 2 * slots.length := by
  induction slots with
  | nil => rfl
  | cons a slots ih =>
    show (flatSlots slots).length + 2 = _
    rw [ih, List.length_cons]
    omega

theorem slotsBytes_all (args : List CallOpArg) :
    slotsBytes args args.length = args.flatMap slotBytes := by
  have h : (List.range args.length).map (fun i => args.getD i {}) = args := by
    apply List.ext_getElem
    · simp
    · intro i h1 h2
      simp [List.getD, h2]
  rw [slotsBytes, ← List.flatMap_map, h]

/-- zero arguments fill their slots with zeros -/
theorem flatMap_zeroSlots (k : Nat) :
    (List.replicate k (slotOf (0, 0))).flatMap slotBytes = List.replicate (k * 9) 0 := by
  induction k with
  | zero => rfl
  | succ k ih =>
    have h : slotBytes (slotOf (0, 0)) = List.replicate 9 0 := rfl
    rw [List.replicate_succ, List.flatMap_cons, ih, h, List.replicate_append_replicate]
    congr 1
    omega

theorem encodeCallOp_agree (proto op : UInt16) (id : TargetId) {args : List (UInt8 × Int64)}
    {out : List UInt8} (hargs : args.length ≤ wireMaxCallArgs)
    (h : out.length = wireCallopReqSize) :
    encodeCallOp proto.toNat id.str op.toNat (args.map pairOf)
      = .ok (wireEncodeCallOp proto.toNat id.bytes op.toNat (args.map slotOf) args.length out) := by
  have hargs' : args.length ≤ 2 := hargs
  have hid : (Fmt.s 23).pack (.bytes id.bytes) = .ok id.bytes := pack_s id.length_eq
  have hargc : Fmt.B.pack (.int args.length) = .ok [UInt8.ofNat args.length] := by
    have hc : (UInt8.ofNat args.length).toNat = args.length := by
      rw [UInt8.toNat_ofNat']
      omega
    have := pack_B (UInt8.ofNat args.length)
    rwa [hc] at this
  -- the unused slots are filled up with zero arguments
  have hpad : args.map pairOf ++ List.replicate (2 - args.length) (0, 0)
      = (args ++ List.replicate (2 - args.length) (0, 0)).map pairOf := by
    rw [List.map_append, List.map_replicate]
    rfl
  have hslots : packAll [.B, .q, .B, .q]
      (flatSlots (args.map pairOf ++ List.replicate (2 - args.length) (0, 0)))
      = .ok (slotsBytes (args.map slotOf) args.length ++
          List.replicate (18 - args.length * 9) 0) := by
    have hlen : (args ++ List.replicate (2 - args.length) ((0 : UInt8), (0 : Int64))).length = 2 := by
      simp
      omega
    have hused : slotsBytes (args.map slotOf) args.length = (args.map slotOf).flatMap slotBytes := by
      rw [← slotsBytes_all, List.length_map]
    have hzero : (2 - args.length) * 9 = 18 - args.length * 9 := by omega
    have hbytes : ((args ++ List.replicate (2 - args.length) (0, 0)).map slotOf).flatMap slotBytes
        = slotsBytes (args.map slotOf) args.length ++ List.replicate (18 - args.length * 9) 0 := by
      rw [List.map_append, List.flatMap_append, List.map_replicate, flatMap_zeroSlots, hused, hzero]
    have hall := packAll_slots (args ++ List.replicate (2 - args.length) (0, 0))
    rw [hlen, hbytes] at hall
    rw [hpad]
    exact hall
  have hbody := packAll_cons hid (packAll_cons (pack_H op) (packAll_cons hargc
    (packAll_cons (pack_B 0) hslots)))
  rw [wireEncodeCallOp_eq _ _ _ id.length_eq hargs h, u16_ofInt_toNat, encodeCallOp, encodeId_str]
  show (if wireMaxCallArgs < (args.map pairOf).length then _ else _) = _
  rw [List.length_map, if_neg (by omega)]
  refine structPack_ok ?_ (packAll_head proto 2 0 hbody)
  rw [List.length_append, length_flatSlots, List.length_append, List.length_map,
    List.length_replicate]
  show 12 = 8 + 2 * (args.length + (2 - args.length))
  omega

/-! ## same fields -/

theorem unpackFrame_ok {what : String} {fmt : List Fmt} {buf : List UInt8}
    (h : buf.length = calcsize fmt) : unpackFrame what fmt buf = .ok (unpackAll fmt buf) := by
  rw [unpackFrame, if_neg (not_not.mpr h), structUnpack, unpack, if_neg (not_not.mpr h)]
  rfl

theorem unpackAll_H (fmt : List Fmt) {buf : List UInt8} {p : Nat} (h : p + 2 ≤ buf.length) :
    unpackAll (.H :: fmt) (buf.drop p) = .int (protoAt buf p) :: unpackAll fmt (buf.drop (p + 2)) := by
  rw [unpackAll_cons, protoAt, wireGetU16_toNat h]
  rfl

theorem unpackAll_B (fmt : List Fmt) {buf : List UInt8} {p : Nat} (h : p + 1 ≤ buf.length) :
    unpackAll (.B :: fmt) (buf.drop p) = .int (intAt buf p) :: unpackAll fmt (buf.drop (p + 1)) := by
  rw [unpackAll_cons, intAt, byteAt_toNat h]
  rfl

theorem unpackAll_q (fmt : List Fmt) {buf : List UInt8} {p : Nat} (h : p + 8 ≤ buf.length) :
    unpackAll (.q :: fmt) (buf.drop p)
      = .int (wireGetI64 buf p).toInt :: unpackAll fmt (buf.drop (p + 8)) := by
  rw [unpackAll_cons, wireGetI64_toInt h]
  rfl

theorem unpackAll_s (n : Nat) (fmt : List Fmt) (buf : List UInt8) (p : Nat) :
    unpackAll (.s n :: fmt) (buf.drop p) = .bytes (slice buf p n) :: unpackAll fmt (buf.drop (p + n)) :=
  unpackAll_cons _ _ _ _

theorem unpackAll_head (fmt : List Fmt) {buf : List UInt8} (h : 8 ≤ buf.length) :
    unpackAll (.s 4 :: .H :: .B :: .B :: fmt) buf = .bytes (slice buf 0 4) :: .int (protoAt buf 4) ::
      .int (intAt buf 6) :: .int (intAt buf 7) :: unpackAll fmt (buf.drop 8) := by
  rw [← List.drop_zero (l := buf), unpackAll_s, List.drop_zero, unpackAll_H _ (by omega),
    unpackAll_B _ (by omega), unpackAll_B _ (by omega)]

/-- the Python reading of the fields of a native request -/
def Request.py (r : Request) : Int × Int × String × Int :=
  (r.proto, r.msg, asciiStr r.targetId, r.nonce.toInt)

def Response.py (r : Response) : Int × Int × Int := (r.proto, r.status, r.value.toInt)

/-- of the slots, the first `argc` -/
def CallOp.py (r : CallOp) : Int × Int × String × Int × Int × List (Int × Int) :=
  (r.proto, r.msg, asciiStr r.targetId, r.opCode, r.argc,
    (r.args.take r.argc.toNat).map fun a => (a.tag, a.bits.toInt))

def CallResp.py (r : CallResp) : Int × Int × Int × Int :=
  (r.proto, r.status, r.resultTag, r.resultBits.toInt)

/-- both refuse, or both give the same fields -/
def sameFields {α β : Type} (f : α → β) : Option α → Except WireError β
  | none => .error badMagic
  | some r => .ok (f r)

/-- the client tests for the other outcome than the receiver -/
theorem magic_ite {α : Type} {buf : List UInt8} (h : 4 ≤ buf.length) (a b : α) :
    (if slice buf 0 4 ≠ wireMagic then a else b) = if hasMagic buf = true then b else a := by
  by_cases hm : hasMagic buf = true
  · rw [if_neg (not_not.mpr ((hasMagic_iff h).mp hm)), if_pos hm]
  · rw [if_pos (mt (hasMagic_iff h).mpr hm), if_neg hm]

theorem decodeRequest_agree {buf : List UInt8} (h : buf.length = wireReqSize)
    (ha : isAscii (slice buf 8 wireIdLen) = true) :
    decodeRequest buf = sameFields Request.py (wireDecodeRequest buf) := by
  have hlen : buf.length = 39 := h
  have hfields : unpackFrame "request" wireReqFmt buf = .ok [.bytes (slice buf 0 4),
      .int (protoAt buf 4), .int (intAt buf 6), .int (intAt buf 7), .bytes (slice buf 8 wireIdLen),
      .int (wireGetI64 buf (8 + wireIdLen)).toInt] := by
    rw [unpackFrame_ok h, wireReqFmt, unpackAll_head _ (by omega), unpackAll_s,
      unpackAll_q _ (by omega)]
    rfl
  rw [decodeRequest, hfields, wireDecodeRequest]
  show (if slice buf 0 4 ≠ wireMagic then _ else _) = _
  rw [magic_ite (by omega), decodeAscii, if_pos ha]
  cases hasMagic buf with
  | false => rfl
  | true => rfl

/-- the two response frames -/
theorem unpackFrame_resp (what : String) {buf : List UInt8} (h : buf.length = 16) :
    unpackFrame what wireRespFmt buf = .ok [.bytes (slice buf 0 4), .int (protoAt buf 4),
      .int (intAt buf 6), .int (intAt buf 7), .int (wireGetI64 buf 8).toInt] := by
  rw [unpackFrame_ok h, wireRespFmt, unpackAll_head _ (by omega), unpackAll_q _ (by omega)]
  rfl

theorem decodeResponse_agree {buf : List UInt8} (h : buf.length = wireRespSize) :
    decodeResponse buf = sameFields Response.py (wireDecodeResponse buf) := by
  have hlen : buf.length = 16 := h
  rw [decodeResponse, unpackFrame_resp "response" h, wireDecodeResponse]
  show (if slice buf 0 4 ≠ wireMagic then _ else _) = _
  rw [magic_ite (by omega)]
  cases hasMagic buf with
  | false => rfl
  | true => rfl

theorem decodeCallResp_agree {buf : List UInt8} (h : buf.length = wireCallopRespSize) :
    decodeCallResp buf = sameFields CallResp.py (wireDecodeCallResp buf) := by
  have hlen : buf.length = 16 := h
  have hfields := unpackFrame_resp "call response" hlen
  rw [decodeCallResp, wireDecodeCallResp]
  show (unpackFrame "call response" wireRespFmt buf >>= _) = _
  rw [hfields]
  show (if slice buf 0 4 ≠ wireMagic then _ else _) = _
  rw [magic_ite (by omega)]
  cases hasMagic buf with
  | false => rfl
  | true => rfl

theorem clampArgc_min {n : Nat} : clampArgc n = min (n : Int) wireMaxCallArgs := by
  have h0 : ¬ (n : Int) < 0 := by omega
  simp only [clampArgc, if_neg h0]
  split <;> omega

theorem decodeCallOp_agree {buf : List UInt8} (h : buf.length = wireCallopReqSize)
    (ha : isAscii (slice buf 8 wireIdLen) = true) :
    decodeCallOp buf = sameFields CallOp.py (wireDecodeCallOp buf) := by
  have hlen : buf.length = 53 := h
  have hfields : unpackFrame "call request" wireCallopReqFmt buf = .ok [.bytes (slice buf 0 4),
      .int (protoAt buf 4), .int (intAt buf 6), .int (intAt buf 7), .bytes (slice buf 8 wireIdLen),
      .int (protoAt buf 31), .int (intAt buf 33), .int (intAt buf 34),
      .int (intAt buf 35), .int (wireGetI64 buf 36).toInt,
      .int (intAt buf 44), .int (wireGetI64 buf 45).toInt] := by
    rw [unpackFrame_ok h]
    show Except.ok (unpackAll [.s 4, .H, .B, .B, .s 23, .H, .B, .B, .B, .q, .B, .q] buf) = _
    rw [unpackAll_head _ (by omega), unpackAll_s, unpackAll_H _ (by omega),
      unpackAll_B _ (by omega), unpackAll_B _ (by omega), unpackAll_B _ (by omega),
      unpackAll_q _ (by omega), unpackAll_B _ (by omega), unpackAll_q _ (by omega)]
    rfl
  rw [decodeCallOp, hfields, wireDecodeCallOp]
  show (if slice buf 0 4 ≠ wireMagic then _ else _) = _
  rw [magic_ite (by omega), decodeAscii, if_pos ha]
  cases hasMagic buf with
  | false => rfl
  | true =>
    have hargc : clampArgc (intAt buf 33) = min (intAt buf 33) wireMaxCallArgs := clampArgc_min
    show Except.ok _ = Except.ok (CallOp.py _)
    rw [CallOp.py, List.map_take, hargc]
    rfl

/-- **The two codecs agree.**  On all four frames and whatever the native buffer held before, the
two encoders write the same bytes, and the two decoders refuse the same byte strings and read the
same fields from the others. -/
theorem wire_agree :
    (∀ (proto : UInt16) (id : TargetId) (nonce : Int64) (out : List UInt8),
      out.length = wireReqSize →
      encodeRequest proto.toNat id.str nonce.toInt
        = .ok (wireEncodeRequest proto.toNat id.bytes nonce out)) ∧
    (∀ (proto : UInt16) (status : UInt8) (value : Int64) (out : List UInt8),
      out.length = wireRespSize →
      encodeResponse proto.toNat status.toNat value.toInt
        = .ok (wireEncodeResponse proto.toNat status.toNat value out)) ∧
    (∀ (proto op : UInt16) (id : TargetId) (args : List (UInt8 × Int64)) (out : List UInt8),
      args.length ≤ wireMaxCallArgs → out.length = wireCallopReqSize →
      encodeCallOp proto.toNat id.str op.toNat (args.map pairOf)
        = .ok (wireEncodeCallOp proto.toNat id.bytes op.toNat (args.map slotOf) args.length out)) ∧
    (∀ (proto : UInt16) (status tag : UInt8) (bits : Int64) (out : List UInt8),
      out.length = wireCallopRespSize →
      encodeCallResp proto.toNat status.toNat tag.toNat bits.toInt
        = .ok (wireEncodeCallResp proto.toNat status.toNat tag.toNat bits out)) ∧
    (∀ buf : List UInt8, buf.length = wireReqSize → isAscii (slice buf 8 wireIdLen) = true →
      decodeRequest buf = sameFields Request.py (wireDecodeRequest buf)) ∧
    (∀ buf : List UInt8, buf.length = wireRespSize →
      decodeResponse buf = sameFields Response.py (wireDecodeResponse buf)) ∧
    (∀ buf : List UInt8, buf.length = wireCallopReqSize →
      isAscii (slice buf 8 wireIdLen) = true →
      decodeCallOp buf = sameFields CallOp.py (wireDecodeCallOp buf)) ∧
    (∀ buf : List UInt8, buf.length = wireCallopRespSize →
      decodeCallResp buf = sameFields CallResp.py (wireDecodeCallResp buf)) :=
  ⟨fun proto id nonce _ h => encodeRequest_agree proto id nonce h,
   fun proto status value _ h => encodeResponse_agree proto status value h,
   fun proto op id _ _ hargs h => encodeCallOp_agree proto op id hargs h,
   fun proto status tag bits _ h => encodeCallResp_agree proto status tag bits h,
   fun _ h ha => decodeRequest_agree h ha,
   fun _ h => decodeResponse_agree h,
   fun _ h ha => decodeCallOp_agree h ha,
   fun _ h => decodeCallResp_agree h⟩

/-- `rtb-ep-0000000000000000` -/
def zeroId : TargetId where
  bytes := [0x72, 0x74, 0x62, 0x2d, 0x65, 0x70, 0x2d] ++ List.replicate 16 0x30
  length_eq := rfl
  ascii := rfl

/-- a call request with a negative argument over a dirty buffer, and a frame without magic -/
theorem wire_agree_dirty :
    encodeCallOp 2 zeroId.str 1 [(0, -5)]
      = .ok (wireEncodeCallOp 2 zeroId.bytes 1 [{ tag := 0, bits := -5 }] 1
          (List.replicate 53 0xff)) ∧
    decodeRequest (List.replicate 39 0x20) = .error badMagic := by
  obtain ⟨_, _, hcall, _, hdec, _⟩ := wire_agree
  exact ⟨hcall 2 1 zeroId [(0, -5)] (List.replicate 53 0xff) (by decide) rfl,
    hdec (List.replicate 39 0x20) rfl rfl⟩

end RayX
