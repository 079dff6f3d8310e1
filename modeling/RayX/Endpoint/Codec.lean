import RayX.Lib.Bytes

/-!
# The native wire codec

The four fixed frames of `endpoint_seam.hpp`, written into and read from a fixed buffer byte by
byte.  A C `int` is an `Int`, a cast to a narrower type is `ofInt`.

* `wirePutU16` .. `wireGetI64`   big-endian integers by shifts;
* `wireEncodeRequest` ..         the encoders, on a buffer with any contents;
* `wireDecodeRequest` ..         the decoders, `none` on a bad magic;
* `wireEncodeRequest_eq` ..      **the bytes of each frame, field by field**;
* `wireDecodeRequest_frame` ..   decoding what was encoded.
-/

namespace RayX
open Sys

def wireIdLen : Nat := 23
def wireReqSize : Nat := 39
def wireRespSize : Nat := 16
def wireMsgPing : Int := 1
def wireMsgCallOp : Int := 2
def wirePrefixSize : Nat := 7
def wireMaxCallArgs : Nat := 2
def wireCallopReqSize : Nat := 53
def wireCallopRespSize : Nat := 16

/-- one typed bridge argument; tag `0` is `int64`, tag `1` the bits of a `double` -/
structure CallOpArg where
  tag : Int := 0
  bits : Int64 := 0
  deriving DecidableEq

/-! ## integers -/

def wirePutU16 (p : Nat) (v : UInt16) (out : List UInt8) : List UInt8 :=
  (out.set p ((v >>> 8) &&& 0xff).toUInt8).set (p + 1) (v &&& 0xff).toUInt8

def wireGetU16 (inp : List UInt8) (p : Nat) : UInt16 :=
  ((byteAt inp p).toUInt16 <<< 8) ||| (byteAt inp (p + 1)).toUInt16

def wirePutI64 (p : Nat) (v : Int64) (out : List UInt8) : List UInt8 :=
  (List.range 8).foldl (fun out i =>
    out.set (p + i) ((v.toUInt64 >>> UInt64.ofNat (8 * (7 - i))) &&& 0xff).toUInt8) out

def wireGetI64 (inp : List UInt8) (p : Nat) : Int64 :=
  ((List.range 8).foldl (fun u i => shiftStep u (byteAt inp (p + i))) 0).toInt64

/-! ## encoders -/

/-- magic, version and two bytes: the head of every frame -/
def putHead (proto : Int) (b6 b7 : UInt8) (out : List UInt8) : List UInt8 :=
  let out := (((out.set 0 'R'.toUInt8).set 1 'A'.toUInt8).set 2 'Y'.toUInt8).set 3 'X'.toUInt8
  let out := wirePutU16 4 (UInt16.ofInt proto) out
  (out.set 6 b6).set 7 b7

def wireEncodeRequest (proto : Int) (targetId : List UInt8) (nonce : Int64) (out : List UInt8) :
    List UInt8 :=
  let out := putHead proto (UInt8.ofInt wireMsgPing) 0 out
  let out := writeAt 8 (List.replicate wireIdLen 0) out
  let out := writeAt 8 (targetId.take wireIdLen) out
  wirePutI64 (8 + wireIdLen) nonce out

def wireEncodeResponse (proto status : Int) (value : Int64) (out : List UInt8) : List UInt8 :=
  wirePutI64 8 value (putHead proto (UInt8.ofInt status) 0 out)

/-- the argument slots `0 .. n - 1` -/
def putSlots (args : List CallOpArg) (n : Nat) (out : List UInt8) : List UInt8 :=
  (List.range n).foldl (fun out i =>
    let slot := 35 + i * 9
    wirePutI64 (slot + 1) (args.getD i {}).bits
      (out.set slot (UInt8.ofInt (args.getD i {}).tag))) out

/-- `0 .. WIRE_MAX_CALL_ARGS` -/
def clampArgc (argc : Int) : Int :=
  let argc := if argc < 0 then 0 else argc
  if (wireMaxCallArgs : Int) < argc then wireMaxCallArgs else argc

def wireEncodeCallOp (proto : Int) (targetId : List UInt8) (opCode : Int) (args : List CallOpArg)
    (argc : Int) (out : List UInt8) : List UInt8 :=
  let out := writeAt 0 (List.replicate wireCallopReqSize 0) out
  let out := putHead proto (UInt8.ofInt wireMsgCallOp) 0 out
  let out := writeAt 8 (targetId.take wireIdLen) out
  let out := wirePutU16 31 (UInt16.ofInt opCode) out
  let argc := clampArgc argc
  let out := (out.set 33 (UInt8.ofInt argc)).set 34 0
  putSlots args argc.toNat out

def wireEncodeCallResp (proto status resultTag : Int) (resultBits : Int64) (out : List UInt8) :
    List UInt8 :=
  wirePutI64 8 resultBits (putHead proto (UInt8.ofInt status) (UInt8.ofInt resultTag) out)

/-! ## decoders -/

def hasMagic (inp : List UInt8) : Bool :=
  byteAt inp 0 == 'R'.toUInt8 && byteAt inp 1 == 'A'.toUInt8 && byteAt inp 2 == 'Y'.toUInt8
    && byteAt inp 3 == 'X'.toUInt8

structure Request where
  proto : Int
  msg : Int
  targetId : List UInt8
  nonce : Int64
  deriving DecidableEq

structure Response where
  proto : Int
  status : Int
  value : Int64
  deriving DecidableEq

/-- `args` has `WIRE_MAX_CALL_ARGS` slots, `argc` of them meaningful -/
structure CallOp where
  proto : Int
  msg : Int
  targetId : List UInt8
  opCode : Int
  argc : Int
  args : List CallOpArg
  deriving DecidableEq

structure CallResp where
  proto : Int
  status : Int
  resultTag : Int
  resultBits : Int64
  deriving DecidableEq

/-- `int` from `uint16_t` -/
def protoAt (inp : List UInt8) (p : Nat) : Int := (wireGetU16 inp p).toNat

/-- `int` from `unsigned char` -/
def intAt (inp : List UInt8) (p : Nat) : Int := (byteAt inp p).toNat

def wireDecodeRequest (inp : List UInt8) : Option Request :=
  if hasMagic inp then
    some { proto := protoAt inp 4, msg := intAt inp 6, targetId := slice inp 8 wireIdLen,
           nonce := wireGetI64 inp (8 + wireIdLen) }
  else none

def wireDecodeResponse (inp : List UInt8) : Option Response :=
  if hasMagic inp then
    some { proto := protoAt inp 4, status := intAt inp 6, value := wireGetI64 inp 8 }
  else none

/-- version and message of the 7-byte prefix -/
def wireDecodePrefix (inp : List UInt8) : Option (Int × Int) :=
  if hasMagic inp then some (protoAt inp 4, intAt inp 6) else none

def slotAt (inp : List UInt8) (i : Nat) : CallOpArg :=
  { tag := intAt inp (35 + i * 9), bits := wireGetI64 inp (35 + i * 9 + 1) }

def wireDecodeCallOp (inp : List UInt8) : Option CallOp :=
  if hasMagic inp then
    some { proto := protoAt inp 4, msg := intAt inp 6, targetId := slice inp 8 wireIdLen,
           opCode := protoAt inp 31, argc := clampArgc (intAt inp 33),
           args := (List.range wireMaxCallArgs).map (slotAt inp) }
  else none

def wireDecodeCallResp (inp : List UInt8) : Option CallResp :=
  if hasMagic inp then
    some { proto := protoAt inp 4, status := intAt inp 6, resultTag := intAt inp 7,
           resultBits := wireGetI64 inp 8 }
  else none

/-! ## what the writers write -/

def wireMagic : List UInt8 := [0x52, 0x41, 0x59, 0x58]

def headBytes (proto : Int) (b6 b7 : UInt8) : List UInt8 :=
  wireMagic ++ (beBytes 2 (UInt16.ofInt proto).toNat ++ [b6, b7])

def i64Bytes (v : Int64) : List UInt8 := beBytes 8 v.toUInt64.toNat

def slotBytes (a : CallOpArg) : List UInt8 := UInt8.ofInt a.tag :: i64Bytes a.bits

@[simp] theorem length_headBytes (proto : Int) (b6 b7 : UInt8) :
    (headBytes proto b6 b7).length = 8 := by simp [headBytes, wireMagic]

@[simp] theorem length_i64Bytes (v : Int64) : (i64Bytes v).length = 8 := length_beBytes 8 _

section
variable {pre rest : List UInt8} {p : Nat}

theorem putU16_append (v : UInt16) (hp : pre.length = p) (hr : 2 ≤ rest.length) :
    wirePutU16 p v (pre ++ rest) = (pre ++ beBytes 2 v.toNat) ++ rest.drop 2 := by
  obtain ⟨a, b, rest, rfl⟩ : ∃ a b r, rest = a :: b :: r := by
    match rest, hr with
    | a :: b :: r, _ => exact ⟨a, b, r, rfl⟩
  subst hp
  rw [wirePutU16, toUInt8_shift16, toUInt8_low16]
  simp [beBytes, List.set_append_right]

theorem putI64_append (v : Int64) (hp : pre.length = p) (hr : 8 ≤ rest.length) :
    wirePutI64 p v (pre ++ rest) = (pre ++ i64Bytes v) ++ rest.drop 8 := by
  have hbytes : (List.range 8).map
      (fun i => ((v.toUInt64 >>> UInt64.ofNat (8 * (7 - i))) &&& 0xff).toUInt8) = i64Bytes v := by
    rw [i64Bytes, beBytes_eq_map]
    apply List.map_congr_left
    intro i _
    exact toUInt8_shift64 _ (by omega)
  rw [wirePutI64, foldl_set _ 8 hp hr, hbytes]

end

theorem putHead_eq (proto : Int) (b6 b7 : UInt8) {out : List UInt8} (h : 8 ≤ out.length) :
    putHead proto b6 b7 out = headBytes proto b6 b7 ++ out.drop 8 := by
  match out, h with
  | a0 :: a1 :: a2 :: a3 :: a4 :: a5 :: a6 :: a7 :: rest, _ =>
    rw [putHead, wirePutU16, toUInt8_shift16, toUInt8_low16]
    simp [headBytes, wireMagic, beBytes]
    decide

/-- the slots `0 .. n - 1` as they stand in the frame -/
def slotsBytes (args : List CallOpArg) (n : Nat) : List UInt8 :=
  (List.range n).flatMap fun i => slotBytes (args.getD i {})

theorem slotsBytes_succ (args : List CallOpArg) (n : Nat) :
    slotsBytes args (n + 1) = slotsBytes args n ++ slotBytes (args.getD n {}) := by
  simp [slotsBytes, List.range_succ]

/-- slots behind the first `n` are not sent -/
theorem slotsBytes_append (args pad : List CallOpArg) {n : Nat} (hn : n ≤ args.length) :
    slotsBytes (args ++ pad) n = slotsBytes args n := by
  induction n with
  | zero => rfl
  | succ n ih =>
    have h : (args ++ pad).getD n {} = args.getD n {} := by
      simp [List.getD, List.getElem?_append_left (show n < args.length by omega)]
    rw [slotsBytes_succ, slotsBytes_succ, ih (by omega), h]

theorem length_slotsBytes (args : List CallOpArg) (n : Nat) :
    (slotsBytes args n).length = n * 9 := by
  induction n with
  | zero => rfl
  | succ n ih =>
    rw [slotsBytes_succ, List.length_append, ih]
    simp [slotBytes]
    omega

theorem putSlots_append (args : List CallOpArg) (n : Nat) {pre rest : List UInt8}
    (hp : pre.length = 35) (hr : n * 9 ≤ rest.length) :
    putSlots args n (pre ++ rest) = (pre ++ slotsBytes args n) ++ rest.drop (n * 9) := by
  induction n with
  | zero => simp [putSlots, slotsBytes]
  | succ n ih =>
    have hstep : putSlots args (n + 1) (pre ++ rest)
        = wirePutI64 (35 + n * 9 + 1) (args.getD n {}).bits
          ((putSlots args n (pre ++ rest)).set (35 + n * 9) (UInt8.ofInt (args.getD n {}).tag)) := by
      rw [putSlots, List.range_succ, List.foldl_append]
      rfl
    have hlen : (pre ++ slotsBytes args n).length = 35 + n * 9 := by
      rw [List.length_append, length_slotsBytes, hp]
    have hne : rest.drop (n * 9) ≠ [] := by
      intro h
      have := List.drop_eq_nil_iff.mp h
      omega
    rw [hstep, ih (by omega), set_append hlen hne,
      putI64_append _ (by rw [List.length_append, hlen, List.length_singleton]) (by simp; omega),
      slotsBytes_succ, slotBytes, List.drop_drop, List.drop_drop]
    simp
    omega

/-! ## the frames -/

theorem clampArgc_eq {n : Nat} (h : n ≤ wireMaxCallArgs) : clampArgc n = n := by
  have h0 : ¬ (n : Int) < 0 := by omega
  have h2 : ¬ (wireMaxCallArgs : Int) < n := by omega
  simp only [clampArgc, if_neg h0, if_neg h2]

/-- what the clamp leaves is the number of slots in use -/
theorem clampArgc_toNat (argc : Int) :
    (clampArgc argc).toNat ≤ wireMaxCallArgs ∧ clampArgc argc = (clampArgc argc).toNat := by
  have hle : 0 ≤ clampArgc argc ∧ clampArgc argc ≤ wireMaxCallArgs := by
    unfold clampArgc wireMaxCallArgs
    dsimp only
    split <;> split <;> omega
  omega

/-- the id of a frame: cut to its field, or padded with zeros -/
def padId (id : List UInt8) : List UInt8 :=
  id.take wireIdLen ++ List.replicate (wireIdLen - id.length) 0

@[simp] theorem length_padId (id : List UInt8) : (padId id).length = wireIdLen := by
  simp [padId]
  omega

theorem padId_eq {id : List UInt8} (h : id.length = wireIdLen) : padId id = id := by
  simp [padId, h, List.take_of_length_le]

/-- the copy of an id into a cleared field -/
theorem writeAt_id (id : List UInt8) {pre rest : List UInt8} {p : Nat} (hp : pre.length = p) :
    writeAt p (id.take wireIdLen) (pre ++ (List.replicate wireIdLen 0 ++ rest))
      = pre ++ (padId id ++ rest) := by
  have hdrop : (List.replicate wireIdLen 0 ++ rest).drop (id.take wireIdLen).length
      = List.replicate (wireIdLen - id.length) (0 : UInt8) ++ rest := by
    rw [List.drop_append_of_le_length (by simp), List.drop_replicate, List.length_take]
    congr 2
    omega
  rw [writeAt_append hp, hdrop, padId]
  simp

theorem wireEncodeRequest_bytes (proto : Int) (id : List UInt8) (nonce : Int64) {out : List UInt8}
    (h : out.length = wireReqSize) :
    wireEncodeRequest proto id nonce out
      = headBytes proto (UInt8.ofInt wireMsgPing) 0 ++ (padId id ++ i64Bytes nonce) := by
  unfold wireReqSize at h
  have hhead := length_headBytes proto (UInt8.ofInt wireMsgPing) 0
  have hpre : (headBytes proto (UInt8.ofInt wireMsgPing) 0 ++ padId id).length = 8 + wireIdLen := by
    simp
  rw [wireEncodeRequest]
  rw [putHead_eq proto _ _ (by omega), writeAt_append hhead, List.append_assoc,
    writeAt_id id hhead, ← List.append_assoc, putI64_append nonce hpre (by simp [h, wireIdLen]),
    List.append_assoc, List.append_assoc]
  simp [h, wireIdLen]

theorem wireEncodeRequest_eq (proto : Int) {id : List UInt8} (nonce : Int64) {out : List UInt8}
    (hid : id.length = wireIdLen) (h : out.length = wireReqSize) :
    wireEncodeRequest proto id nonce out
      = headBytes proto (UInt8.ofInt wireMsgPing) 0 ++ (id ++ i64Bytes nonce) := by
  rw [wireEncodeRequest_bytes proto id nonce h, padId_eq hid]

/-- the two response frames -/
theorem putResp_eq (proto : Int) (b6 b7 : UInt8) (value : Int64) {out : List UInt8}
    (h : out.length = 16) :
    wirePutI64 8 value (putHead proto b6 b7 out) = headBytes proto b6 b7 ++ i64Bytes value := by
  rw [putHead_eq proto b6 b7 (by omega), putI64_append value (length_headBytes _ _ _) (by simp [h])]
  simp [h]

theorem wireEncodeResponse_eq (proto status : Int) (value : Int64) {out : List UInt8}
    (h : out.length = wireRespSize) :
    wireEncodeResponse proto status value out
      = headBytes proto (UInt8.ofInt status) 0 ++ i64Bytes value :=
  putResp_eq proto _ _ value h

theorem wireEncodeCallResp_eq (proto status tag : Int) (bits : Int64) {out : List UInt8}
    (h : out.length = wireCallopRespSize) :
    wireEncodeCallResp proto status tag bits out
      = headBytes proto (UInt8.ofInt status) (UInt8.ofInt tag) ++ i64Bytes bits :=
  putResp_eq proto _ _ bits h

/-- the call request; unused slots are zero -/
def callOpBytes (proto : Int) (id : List UInt8) (op : UInt16) (args : List CallOpArg) (n : Nat) :
    List UInt8 :=
  headBytes proto (UInt8.ofInt wireMsgCallOp) 0 ++ (id ++ (beBytes 2 op.toNat ++
    (UInt8.ofNat n :: 0 :: (slotsBytes args n ++ List.replicate (18 - n * 9) 0))))

theorem wireEncodeCallOp_bytes (proto : Int) (id : List UInt8) (op : Int) (args : List CallOpArg)
    (argc : Int) {out : List UInt8} (h : out.length = wireCallopReqSize) :
    wireEncodeCallOp proto id op args argc out
      = callOpBytes proto (padId id) (UInt16.ofInt op) args (clampArgc argc).toNat := by
  unfold wireCallopReqSize at h
  have hclear : writeAt 0 (List.replicate 53 0) out = List.replicate 53 0 := by
    simp [writeAt, h]
  have hhead := length_headBytes proto (UInt8.ofInt wireMsgCallOp) 0
  have hzero : List.replicate (53 - 8) (0 : UInt8)
      = List.replicate wireIdLen 0 ++ List.replicate 22 0 := by decide
  have hid31 : (headBytes proto (UInt8.ofInt wireMsgCallOp) 0 ++ padId id).length = 31 := by
    simp [wireIdLen]
  have hop : (headBytes proto (UInt8.ofInt wireMsgCallOp) 0 ++ padId id ++
      beBytes 2 (UInt16.ofInt op).toNat).length = 33 := by
    simp [wireIdLen]
  obtain ⟨hn, hargc⟩ := clampArgc_toNat argc
  generalize (clampArgc argc).toNat = n at hn hargc
  have hn' : n ≤ 2 := hn
  simp only [wireEncodeCallOp, wireCallopReqSize]
  rw [hclear, putHead_eq proto _ _ (by simp), List.drop_replicate, hzero, writeAt_id id hhead,
    ← List.append_assoc, putU16_append _ hid31 (by simp), List.drop_replicate,
    set_append hop (by simp), List.drop_replicate, set_append (by simp [wireIdLen]) (by simp),
    List.drop_replicate, hargc, Int.toNat_natCast,
    putSlots_append args n (by simp [wireIdLen]) (by simp; omega),
    List.drop_replicate, u8_ofInt_natCast, callOpBytes]
  simp

theorem wireEncodeCallOp_eq (proto : Int) {id : List UInt8} (op : Int) (args : List CallOpArg)
    {n : Nat} {out : List UInt8} (hid : id.length = wireIdLen) (hn : n ≤ wireMaxCallArgs)
    (h : out.length = wireCallopReqSize) :
    wireEncodeCallOp proto id op args n out = callOpBytes proto id (UInt16.ofInt op) args n := by
  rw [wireEncodeCallOp_bytes proto id op args n h, padId_eq hid, clampArgc_eq hn,
    Int.toNat_natCast]

/-! ## what the readers read -/

section
variable {inp : List UInt8} {p : Nat}

theorem hasMagic_iff (h : 4 ≤ inp.length) : hasMagic inp = true ↔ slice inp 0 4 = wireMagic := by
  match inp, h with
  | a :: b :: c :: d :: rest, _ =>
    have hR : 'R'.toUInt8 = 0x52 := rfl
    have hA : 'A'.toUInt8 = 0x41 := rfl
    have hY : 'Y'.toUInt8 = 0x59 := rfl
    have hX : 'X'.toUInt8 = 0x58 := rfl
    simp [hasMagic, byteAt, slice, wireMagic, hR, hA, hY, hX, and_assoc]

theorem wireGetU16_toNat (h : p + 2 ≤ inp.length) :
    (wireGetU16 inp p).toNat = beValue (slice inp p 2) := by
  rw [wireGetU16, toNat_shift_or16, ← map_byteAt h]
  rfl

theorem wireGetI64_eq (h : p + 8 ≤ inp.length) :
    wireGetI64 inp p = (UInt64.ofNat (beValue (slice inp p 8))).toInt64 := by
  have hfold : ∀ u, (List.range 8).foldl (fun u i => shiftStep u (byteAt inp (p + i))) u
      = (slice inp p 8).foldl shiftStep u := by
    intro u
    rw [← map_byteAt h, List.foldl_map]
  rw [wireGetI64, hfold]
  congr 1
  apply UInt64.toNat_inj.mp
  rw [toNat_foldl_shiftStep, UInt64.toNat_ofNat']
  rfl

theorem wireGetI64_toInt (h : p + 8 ≤ inp.length) :
    (wireGetI64 inp p).toInt = signed64 (beValue (slice inp p 8)) := by
  have hlen : (slice inp p 8).length = 8 := by
    rw [length_slice]
    omega
  have hlt := beValue_lt (slice inp p 8)
  rw [hlen] at hlt
  rw [wireGetI64_eq h, toInt_toInt64, UInt64.toNat_ofNat_of_lt' hlt]

/-- a number read is the bytes it was read from -/
theorem i64Bytes_getI64 (h : p + 8 ≤ inp.length) : i64Bytes (wireGetI64 inp p) = slice inp p 8 := by
  have hlen : (slice inp p 8).length = 8 := by
    rw [length_slice]
    omega
  have hlt := beValue_lt (slice inp p 8)
  rw [hlen] at hlt
  have hback := beBytes_beValue (slice inp p 8)
  rw [hlen] at hback
  rw [i64Bytes, wireGetI64_eq h, UInt64.toUInt64_toInt64, UInt64.toNat_ofNat_of_lt' hlt, hback]

theorem byteAt_toNat (h : p + 1 ≤ inp.length) : (byteAt inp p).toNat = beValue (slice inp p 1) := by
  rw [← map_byteAt h]
  simp [beValue, beStep]

/-! ## decoding what was encoded -/

variable {pre rest : List UInt8}

theorem getU16_append (v : UInt16) (hp : pre.length = p) :
    wireGetU16 (pre ++ (beBytes 2 v.toNat ++ rest)) p = v := by
  have hv := v.toNat_lt
  apply UInt16.toNat_inj.mp
  rw [wireGetU16_toNat (by simp [hp]), slice_append hp (length_beBytes 2 _), beValue_beBytes]
  omega

theorem getI64_append (rest : List UInt8) (v : Int64) (hp : pre.length = p) :
    wireGetI64 (pre ++ (i64Bytes v ++ rest)) p = v := by
  have hv := v.toUInt64.toNat_lt
  have hval : beValue (i64Bytes v) = v.toUInt64.toNat := by
    rw [i64Bytes, beValue_beBytes]
    omega
  rw [wireGetI64_eq (by simp [hp]), slice_append hp (length_i64Bytes v), hval, UInt64.ofNat_toNat,
    Int64.toInt64_toUInt64]

variable (proto : Int) (b6 b7 : UInt8) (body : List UInt8)

theorem head_append : headBytes proto b6 b7 ++ body
    = wireMagic ++ (beBytes 2 (UInt16.ofInt proto).toNat ++ (b6 :: b7 :: body)) := by
  simp [headBytes]

theorem hasMagic_head : hasMagic (headBytes proto b6 b7 ++ body) = true := by
  rw [hasMagic_iff (by simp; omega), head_append]
  rfl

theorem protoAt_head : protoAt (headBytes proto b6 b7 ++ body) 4 = (UInt16.ofInt proto).toNat := by
  rw [protoAt, head_append, getU16_append (p := 4) _ rfl]

theorem intAt_head6 : intAt (headBytes proto b6 b7 ++ body) 6 = b6.toNat := by
  rw [intAt, head_append, ← List.append_assoc, byteAt_append (by simp [wireMagic])]

theorem intAt_head7 : intAt (headBytes proto b6 b7 ++ body) 7 = b7.toNat := by
  have h : headBytes proto b6 b7 ++ body
      = (wireMagic ++ beBytes 2 (UInt16.ofInt proto).toNat ++ [b6]) ++ b7 :: body := by
    simp [headBytes]
  rw [intAt, h, byteAt_append (by simp [wireMagic])]

end

section
variable (proto : Int) (b6 b7 : UInt8)

theorem wireDecodeRequest_frame {id : List UInt8} (nonce : Int64) (hid : id.length = wireIdLen) :
    wireDecodeRequest (headBytes proto b6 b7 ++ (id ++ i64Bytes nonce))
      = some { proto := (UInt16.ofInt proto).toNat, msg := b6.toNat, targetId := id,
               nonce := nonce } := by
  have hnonce : wireGetI64 (headBytes proto b6 b7 ++ (id ++ i64Bytes nonce)) (8 + wireIdLen)
      = nonce := by
    have hlen : (headBytes proto b6 b7 ++ id).length = 8 + wireIdLen := by simp [hid]
    simpa using getI64_append [] nonce hlen
  rw [wireDecodeRequest, hasMagic_head, if_pos rfl, protoAt_head, intAt_head6, hnonce,
    slice_append (length_headBytes _ _ _) hid]

theorem getI64_resp (v : Int64) : wireGetI64 (headBytes proto b6 b7 ++ i64Bytes v) 8 = v := by
  simpa using getI64_append [] v (length_headBytes proto b6 b7)

theorem wireDecodeResponse_frame (value : Int64) :
    wireDecodeResponse (headBytes proto b6 b7 ++ i64Bytes value)
      = some { proto := (UInt16.ofInt proto).toNat, status := b6.toNat, value := value } := by
  rw [wireDecodeResponse, hasMagic_head, if_pos rfl, protoAt_head, intAt_head6, getI64_resp]

theorem wireDecodeCallResp_frame (bits : Int64) :
    wireDecodeCallResp (headBytes proto b6 b7 ++ i64Bytes bits)
      = some { proto := (UInt16.ofInt proto).toNat, status := b6.toNat, resultTag := b7.toNat,
               resultBits := bits } := by
  rw [wireDecodeCallResp, hasMagic_head, if_pos rfl, protoAt_head, intAt_head6, intAt_head7,
    getI64_resp]

end

/-- what is left of an argument on the wire -/
def CallOpArg.wire (a : CallOpArg) : CallOpArg :=
  { tag := (UInt8.ofInt a.tag).toNat, bits := a.bits }

theorem slotsBytes_split (args : List CallOpArg) {i n : Nat} (hi : i < n) :
    ∃ post, slotsBytes args n = slotsBytes args i ++ (slotBytes (args.getD i {}) ++ post) := by
  induction n with
  | zero => omega
  | succ n ih =>
    rw [slotsBytes_succ]
    by_cases h : i = n
    · exact ⟨[], by rw [h, List.append_nil]⟩
    · obtain ⟨post, hpost⟩ := ih (by omega)
      exact ⟨post ++ slotBytes (args.getD n {}), by rw [hpost]; simp⟩

theorem slotAt_append (args : List CallOpArg) (tail : List UInt8) {n i : Nat} {pre : List UInt8}
    (hp : pre.length = 35) (hi : i < n) :
    slotAt (pre ++ (slotsBytes args n ++ tail)) i = (args.getD i {}).wire := by
  obtain ⟨post, hpost⟩ := slotsBytes_split args hi
  have hlen : (pre ++ slotsBytes args i).length = 35 + i * 9 := by
    rw [List.length_append, length_slotsBytes, hp]
  have htag : pre ++ (slotsBytes args n ++ tail) = (pre ++ slotsBytes args i) ++
      (UInt8.ofInt (args.getD i {}).tag :: (i64Bytes (args.getD i {}).bits ++ (post ++ tail))) := by
    rw [hpost]
    simp [slotBytes]
  have hbits : pre ++ (slotsBytes args n ++ tail) =
      (pre ++ slotsBytes args i ++ [UInt8.ofInt (args.getD i {}).tag]) ++
      (i64Bytes (args.getD i {}).bits ++ (post ++ tail)) := by
    rw [htag]
    simp
  rw [slotAt, hbits, getI64_append _ _ (by rw [List.length_append, hlen]; rfl), ← hbits, htag, intAt,
    byteAt_append hlen, CallOpArg.wire]

/-- the slots of a frame with `n` arguments; the others are zero -/
def wireSlots (args : List CallOpArg) (n : Nat) : List CallOpArg :=
  (List.range wireMaxCallArgs).map fun i => if i < n then args.getD i {} else {}

theorem slotsBytes_pad (args : List CallOpArg) {n : Nat} (hn : n ≤ wireMaxCallArgs) :
    slotsBytes args n ++ List.replicate (18 - n * 9) 0
      = slotsBytes (wireSlots args n) wireMaxCallArgs := by
  have hzero : slotBytes {} = List.replicate 9 0 := by decide
  match n, hn with
  | 0, _ => simp [slotsBytes, wireSlots, wireMaxCallArgs, List.range_succ, hzero]
  | 1, _ => simp [slotsBytes, wireSlots, wireMaxCallArgs, List.range_succ, hzero]
  | 2, _ => simp [slotsBytes, wireSlots, wireMaxCallArgs, List.range_succ]

/-- every slot comes back, the unused ones as zeros -/
theorem wireDecodeCallOp_bytes (proto : Int) {id : List UInt8} (op : UInt16)
    (args : List CallOpArg) {n : Nat} (hid : id.length = wireIdLen) (hn : n ≤ wireMaxCallArgs) :
    wireDecodeCallOp (callOpBytes proto id op args n)
      = some { proto := (UInt16.ofInt proto).toNat, msg := wireMsgCallOp, targetId := id,
               opCode := op.toNat, argc := n, args := (wireSlots args n).map CallOpArg.wire } := by
  have hn' : n ≤ 2 := hn
  have hid' : id.length = 23 := hid
  have hop : protoAt (callOpBytes proto id op args n) 31 = op.toNat := by
    rw [protoAt, callOpBytes, ← List.append_assoc, getU16_append op (by simp [hid'])]
  have hargc : intAt (callOpBytes proto id op args n) 33 = n := by
    have hc : (UInt8.ofNat n).toNat = n := by
      rw [UInt8.toNat_ofNat']
      omega
    rw [intAt, callOpBytes, ← List.append_assoc, ← List.append_assoc,
      byteAt_append (by simp [hid']), hc]
  have hslot : ∀ i, i < wireMaxCallArgs →
      slotAt (callOpBytes proto id op args n) i = ((wireSlots args n).getD i {}).wire := by
    intro i hi
    have hlen : (headBytes proto (UInt8.ofInt wireMsgCallOp) 0 ++ id ++ beBytes 2 op.toNat ++
        [UInt8.ofNat n, 0]).length = 35 := by simp [hid']
    rw [callOpBytes, slotsBytes_pad args hn]
    simpa using slotAt_append (wireSlots args n) [] hlen hi
  have hargs : (List.range wireMaxCallArgs).map (slotAt (callOpBytes proto id op args n))
      = (wireSlots args n).map CallOpArg.wire := by
    apply List.ext_getElem
    · simp [wireSlots]
    · intro i h1 h2
      have hi : i < (wireSlots args n).length := by
        rw [List.length_map] at h2
        exact h2
      have hi' : i < wireMaxCallArgs := by
        rw [List.length_map, List.length_range] at h1
        exact h1
      rw [List.getElem_map, List.getElem_range, hslot i hi', List.getElem_map, List.getD,
        List.getElem?_eq_getElem hi, Option.getD_some]
  rw [wireDecodeCallOp, hop, hargc, clampArgc_eq hn, hargs, callOpBytes, hasMagic_head, if_pos rfl,
    protoAt_head, intAt_head6, slice_append (length_headBytes _ _ _) hid]
  rfl

theorem wireSlots_eq {args : List CallOpArg} (h : args.length ≤ wireMaxCallArgs) :
    wireSlots args args.length
      = args ++ List.replicate (wireMaxCallArgs - args.length) ({} : CallOpArg) := by
  match args, h with
  | [], _ => rfl
  | [_], _ => rfl
  | [_, _], _ => rfl

/-- the arguments come back in the first `argc` slots -/
theorem wireDecodeCallOp_frame (proto : Int) {id : List UInt8} (op : UInt16) {args : List CallOpArg}
    (hid : id.length = wireIdLen) (hn : args.length ≤ wireMaxCallArgs) :
    ∃ slots, wireDecodeCallOp (callOpBytes proto id op args args.length)
      = some { proto := (UInt16.ofInt proto).toNat, msg := wireMsgCallOp, targetId := id,
               opCode := op.toNat, argc := args.length, args := slots }
      ∧ slots.take args.length = args.map CallOpArg.wire := by
  refine ⟨_, wireDecodeCallOp_bytes proto op args hid hn, ?_⟩
  rw [wireSlots_eq hn, List.map_append, List.take_left' (List.length_map _)]

end RayX
