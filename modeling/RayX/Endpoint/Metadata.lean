import RayX.Lib.Pattern
import RayX.Ops.Validate
import RayX.Endpoint.Seam
import RayX.Endpoint.RoundTrip

/-!
# Peer metadata

The validators of `endpoint/_validate.py` over Python objects, and what becomes of an endpoint id on
its way to the server.

* `PyStr`               a Python string, its code points;
* `endpointIdRe`        the pattern of an id, matched with `re.match`;
* `validateMetadata`    the checks in their order, with the texts of their errors;
* `IdShape`, `Shape`    what the documentation calls an id and well-formed metadata;
* `reads_idRe`          the pattern reads an id, and an id before a newline;
* `validateMetadata_ok_iff`   the metadata that is accepted;
* `id_survives_iff`     **validation and the wire agree about a string exactly unless it is an id
                        with a newline behind it**.
-/

namespace RayX
open Sys

/-! ## Python strings -/

/-- a code point, a lone surrogate included -/
abbrev PyChar := Fin 0x110000

abbrev PyStr := List PyChar

def lit (s : String) : PyStr := s.toList.map fun c => Fin.ofNat 0x110000 c.toNat

/-- UTF-8, which has no bytes for a lone surrogate -/
def utf8Char (c : PyChar) : Option (List UInt8) :=
  let n := c.val
  if n < 0x80 then some [UInt8.ofNat n]
  else if n < 0x800 then some [UInt8.ofNat (0xc0 + n / 0x40), UInt8.ofNat (0x80 + n % 0x40)]
  else if 0xd800 ≤ n ∧ n < 0xe000 then none
  else if n < 0x10000 then
    some [UInt8.ofNat (0xe0 + n / 0x1000), UInt8.ofNat (0x80 + n / 0x40 % 0x40),
      UInt8.ofNat (0x80 + n % 0x40)]
  else
    some [UInt8.ofNat (0xf0 + n / 0x40000), UInt8.ofNat (0x80 + n / 0x1000 % 0x40),
      UInt8.ofNat (0x80 + n / 0x40 % 0x40), UInt8.ofNat (0x80 + n % 0x40)]

/-- a `str` as the `std::string` of a native call -/
def utf8 : PyStr → Option (List UInt8)
  | [] => some []
  | c :: s => do
    let bs ← utf8Char c
    let rest ← utf8 s
    some (bs ++ rest)

/-- a string without lone surrogates as text -/
def PyStr.text (s : PyStr) : String := String.ofList (s.map fun c => Char.ofNat c.val)

/-! ## objects and exceptions -/

/-- an exception that is no `EndpointError`; a subclass stands under its base -/
inductive PyExc where
  | typeError (msg : String)
  | valueError (msg : String)
  | other (cls : String)
  deriving DecidableEq

/-- a value of the dictionary; of an object of another class only the name of the class is read -/
inductive PyVal where
  | str (s : PyStr)
  | int (n : Int)
  | bool (b : Bool)
  | other (typeName : String)
  deriving DecidableEq

/-- `type(v).__name__` -/
def PyVal.typeName : PyVal → String
  | .str _ => "str"
  | .int _ => "int"
  | .bool _ => "bool"
  | .other t => t

/-- a dictionary: the entries under strings, whether there are other keys, and what comes of printing
`sorted(keys)` -/
structure PyDict where
  entries : List (PyStr × PyVal)
  otherKeys : Bool := false
  sortedKeys : Except PyExc String
  once : (entries.map Prod.fst).Nodup

inductive PyObject where
  | dict (d : PyDict)
  | other (typeName : String)

/-- the interpreter: `repr` of a `str`, and `sys.get_int_max_str_digits()` with `0` for no limit -/
structure PyText where
  repr : PyStr → String
  maxStrDigits : Nat

/-- `str(n)`, which fails when it has more digits than the limit -/
def PyText.int (py : PyText) (n : Int) : Except PyExc String :=
  if py.maxStrDigits ≠ 0 ∧ 10 ^ py.maxStrDigits ≤ n.natAbs then
    .error (.valueError (s!"Exceeds the limit ({py.maxStrDigits} digits) for integer string conversion; "
      ++ "use sys.set_int_max_str_digits() to increase the limit"))
  else .ok (toString n)

/-! ## the validators -/

/-- `[0-9a-f]` -/
def isHexChar (c : PyChar) : Bool :=
  (decide (0x30 ≤ c.val) && decide (c.val ≤ 0x39)) || (decide (0x61 ≤ c.val) && decide (c.val ≤ 0x66))

/-- `^rtb-ep-[0-9a-f]{16}$` -/
def endpointIdRe : List (Pattern PyChar) :=
  .start :: (Pattern.word (lit "rtb-ep-") ++ [.chars 16 isHexChar, .stop])

/-- `"\n"` -/
def newlineChar : PyChar := 10

def metadataKeys : List PyStr :=
  ["endpoint_id", "pid", "host", "proto_version", "transport_kind", "transport_addr"].map lit

def transportKinds : List PyStr := ["none", "unix", "tcp"].map lit

def validateEndpointId (py : PyText) : PyVal → Except PyExc PyStr
  | .str s =>
    if Pattern.reads newlineChar endpointIdRe true s then .ok s
    else .error (.valueError
      s!"endpoint id must match 'rtb-ep-<16 lowercase hex>', got {py.repr s}")
  | v => .error (.typeError s!"endpoint id must be str, got {v.typeName}")

/-- `set(meta) == set(METADATA_KEYS)` -/
def PyDict.hasKeys (d : PyDict) : Bool :=
  !d.otherKeys && d.entries.all (fun e => metadataKeys.contains e.1) &&
    metadataKeys.all fun k => (d.entries.lookup k).isSome

/-- `meta[k]` -/
def PyDict.item (d : PyDict) (k : String) : Except PyExc PyVal :=
  match d.entries.lookup (lit k) with
  | some v => .ok v
  | none => .error (.other "KeyError")

/-- the check of `pid` and of `proto_version` -/
def metaInt (py : PyText) (name : String) : PyVal → Except PyExc Int
  | .int n =>
    if n < 0 then do
      let t ← py.int n
      .error (.valueError s!"endpoint metadata '{name}' must be >= 0, got {t}")
    else .ok n
  | v => .error (.typeError s!"endpoint metadata '{name}' must be int, got {v.typeName}")

/-- the type check of `host`, `transport_kind` and `transport_addr` -/
def metaStr (name : String) : PyVal → Except PyExc PyStr
  | .str s => .ok s
  | v => .error (.typeError s!"endpoint metadata '{name}' must be str, got {v.typeName}")

/-- an error unless the condition holds -/
def demand (c : Prop) [Decidable c] (e : PyExc) : Except PyExc Unit :=
  if c then .ok () else .error e

structure Metadata where
  endpointId : PyStr
  pid : Int
  host : PyStr
  protoVersion : Int
  transportKind : PyStr
  transportAddr : PyStr
  deriving DecidableEq

/-- the fields of a dictionary that has the keys -/
def validateFields (py : PyText) (d : PyDict) : Except PyExc Metadata := do
  let endpointId ← validateEndpointId py (← d.item "endpoint_id")
  let pid ← metaInt py "pid" (← d.item "pid")
  let host ← metaStr "host" (← d.item "host")
  demand (host ≠ []) (.valueError "endpoint metadata 'host' must be non-empty")
  let proto ← metaInt py "proto_version" (← d.item "proto_version")
  let kind ← metaStr "transport_kind" (← d.item "transport_kind")
  demand (kind ∈ transportKinds) (.valueError
    s!"endpoint metadata 'transport_kind' must be one of ['none', 'unix', 'tcp'], got {py.repr kind}")
  let addr ← metaStr "transport_addr" (← d.item "transport_addr")
  demand (¬ (kind = lit "none" ∧ addr ≠ [])) (.valueError
    "endpoint metadata 'transport_addr' must be empty when transport_kind is 'none'")
  demand (¬ (kind ≠ lit "none" ∧ addr = [])) (.valueError
    s!"endpoint metadata 'transport_addr' must be non-empty when transport_kind is {py.repr kind}")
  .ok { endpointId := endpointId, pid := pid, host := host, protoVersion := proto,
        transportKind := kind, transportAddr := addr }

def validateMetadata (py : PyText) : PyObject → Except PyExc Metadata
  | .other t => .error (.typeError s!"endpoint metadata must be dict, got {t}")
  | .dict d =>
    if d.hasKeys then validateFields py d
    else do
      let got ← d.sortedKeys
      .error (.valueError ("endpoint metadata keys must be exactly ['endpoint_id', 'host', 'pid', "
        ++ s!"'proto_version', 'transport_addr', 'transport_kind'], got {got}"))

/-! ## the documented shape -/

/-- `rtb-ep-` and 16 lowercase hex digits -/
def IdShape (s : PyStr) : Prop :=
  ∃ hex, s = lit "rtb-ep-" ++ hex ∧ hex.length = 16 ∧ hex.all isHexChar = true

/-- the fields of well-formed metadata, but for the form of the id -/
structure Shape (d : PyDict) (m : Metadata) : Prop where
  keys : d.hasKeys = true
  endpointId : d.entries.lookup (lit "endpoint_id") = some (.str m.endpointId)
  pid : d.entries.lookup (lit "pid") = some (.int m.pid)
  host : d.entries.lookup (lit "host") = some (.str m.host)
  protoVersion : d.entries.lookup (lit "proto_version") = some (.int m.protoVersion)
  transportKind : d.entries.lookup (lit "transport_kind") = some (.str m.transportKind)
  transportAddr : d.entries.lookup (lit "transport_addr") = some (.str m.transportAddr)
  pid_nonneg : 0 ≤ m.pid
  host_ne : m.host ≠ []
  proto_nonneg : 0 ≤ m.protoVersion
  kind : m.transportKind ∈ transportKinds
  addr : m.transportAddr = [] ↔ m.transportKind = lit "none"

/-- **The pattern reads an id, and an id before a newline.** -/
theorem reads_idRe (s : PyStr) : Pattern.reads newlineChar endpointIdRe true s = true ↔
    ∃ id, IdShape id ∧ (s = id ∨ s = id ++ [newlineChar]) := by
  rw [endpointIdRe, Pattern.reads_start, Pattern.reads_word]
  constructor
  · rintro ⟨v, rfl, hv⟩
    obtain ⟨hex, rest, rfl, hlen, hall, hstop⟩ := Pattern.reads_chars.mp hv
    refine ⟨lit "rtb-ep-" ++ hex, ⟨hex, rfl, hlen, hall⟩, ?_⟩
    rcases Pattern.reads_stop.mp hstop with rfl | rfl
    · exact Or.inl (by rw [List.append_nil])
    · exact Or.inr (List.append_assoc _ _ _).symm
  · rintro ⟨id, ⟨hex, rfl, hlen, hall⟩, rfl | rfl⟩
    · exact ⟨hex, rfl, Pattern.reads_chars.mpr
        ⟨hex, [], (List.append_nil _).symm, hlen, hall, Pattern.reads_stop.mpr (Or.inl rfl)⟩⟩
    · exact ⟨hex ++ [newlineChar], List.append_assoc _ _ _, Pattern.reads_chars.mpr
        ⟨hex, [newlineChar], rfl, hlen, hall, Pattern.reads_stop.mpr (Or.inr rfl)⟩⟩

/-! ## what is accepted -/

/-- `s` is read as an endpoint id -/
def IdRead (s : PyStr) : Prop := Pattern.reads newlineChar endpointIdRe true s = true

section
variable {py : PyText} {d : PyDict} {m : Metadata}

theorem validateEndpointId_ok_iff {v : PyVal} {s : PyStr} :
    validateEndpointId py v = .ok s ↔ v = .str s ∧ IdRead s := by
  cases v with
  | str t =>
    rw [validateEndpointId]
    split
    · rename_i ht
      constructor
      · intro h
        cases h
        exact ⟨rfl, ht⟩
      · rintro ⟨h, _⟩
        cases h
        rfl
    · rename_i ht
      constructor
      · intro h
        cases h
      · rintro ⟨h, hr⟩
        cases h
        exact absurd hr ht
  | int n => exact iff_of_false (by simp [validateEndpointId]) (by simp)
  | bool b => exact iff_of_false (by simp [validateEndpointId]) (by simp)
  | other t => exact iff_of_false (by simp [validateEndpointId]) (by simp)

theorem item_ok_iff {k : String} {v : PyVal} :
    d.item k = .ok v ↔ d.entries.lookup (lit k) = some v := by
  rw [PyDict.item]
  cases d.entries.lookup (lit k) with
  | none => simp
  | some w => simp

theorem metaStr_ok_iff {name : String} {v : PyVal} {s : PyStr} :
    metaStr name v = .ok s ↔ v = .str s := by
  cases v with
  | str t => simp [metaStr]
  | int n => simp [metaStr]
  | bool b => simp [metaStr]
  | other t => simp [metaStr]

theorem metaInt_ok_iff {name : String} {v : PyVal} {n : Int} :
    metaInt py name v = .ok n ↔ v = .int n ∧ 0 ≤ n := by
  cases v with
  | int k =>
    rw [metaInt]
    split
    · rename_i hk
      refine iff_of_false ?_ ?_
      · intro h
        obtain ⟨t, _, h⟩ := bind_ok_iff.mp h
        cases h
      · rintro ⟨h, hn⟩
        cases h
        omega
    · rename_i hk
      constructor
      · intro h
        cases h
        exact ⟨rfl, by omega⟩
      · rintro ⟨h, _⟩
        cases h
        rfl
  | str t => exact iff_of_false (by simp [metaInt]) (by simp)
  | bool b => exact iff_of_false (by simp [metaInt]) (by simp)
  | other t => exact iff_of_false (by simp [metaInt]) (by simp)

theorem demand_ok_iff {c : Prop} [Decidable c] {e : PyExc} {u : Unit} :
    demand c e = .ok u ↔ c := by
  rw [demand]
  split
  · rename_i hc
    exact iff_of_true rfl hc
  · rename_i hc
    exact iff_of_false (by simp) hc

/-- **Metadata is accepted as its documented shape**, with an id that the pattern reads. -/
theorem validateMetadata_ok_iff :
    validateMetadata py (.dict d) = .ok m ↔ Shape d m ∧ IdRead m.endpointId := by
  rw [validateMetadata]
  by_cases hk : d.hasKeys = true
  · rw [if_pos hk]
    constructor
    · intro h
      rw [validateFields] at h
      obtain ⟨vId, hvId, h⟩ := bind_ok_iff.mp h
      obtain ⟨id, hid, h⟩ := bind_ok_iff.mp h
      obtain ⟨vPid, hvPid, h⟩ := bind_ok_iff.mp h
      obtain ⟨pid, hpid, h⟩ := bind_ok_iff.mp h
      obtain ⟨vHost, hvHost, h⟩ := bind_ok_iff.mp h
      obtain ⟨host, hhost, h⟩ := bind_ok_iff.mp h
      obtain ⟨_, hne, h⟩ := bind_ok_iff.mp h
      obtain ⟨vProto, hvProto, h⟩ := bind_ok_iff.mp h
      obtain ⟨proto, hproto, h⟩ := bind_ok_iff.mp h
      obtain ⟨vKind, hvKind, h⟩ := bind_ok_iff.mp h
      obtain ⟨kind, hkind, h⟩ := bind_ok_iff.mp h
      obtain ⟨_, hin, h⟩ := bind_ok_iff.mp h
      obtain ⟨vAddr, hvAddr, h⟩ := bind_ok_iff.mp h
      obtain ⟨addr, haddr, h⟩ := bind_ok_iff.mp h
      obtain ⟨_, hnone, h⟩ := bind_ok_iff.mp h
      obtain ⟨_, hsome, h⟩ := bind_ok_iff.mp h
      cases h
      obtain ⟨hid, hread⟩ := validateEndpointId_ok_iff.mp hid
      obtain ⟨hpid, hpid0⟩ := metaInt_ok_iff.mp hpid
      obtain ⟨hproto, hproto0⟩ := metaInt_ok_iff.mp hproto
      rw [hid] at hvId
      rw [hpid] at hvPid
      rw [metaStr_ok_iff.mp hhost] at hvHost
      rw [hproto] at hvProto
      rw [metaStr_ok_iff.mp hkind] at hvKind
      rw [metaStr_ok_iff.mp haddr] at hvAddr
      have hnone := demand_ok_iff.mp hnone
      have hsome := demand_ok_iff.mp hsome
      refine ⟨⟨hk, item_ok_iff.mp hvId, item_ok_iff.mp hvPid, item_ok_iff.mp hvHost,
        item_ok_iff.mp hvProto, item_ok_iff.mp hvKind, item_ok_iff.mp hvAddr, hpid0,
        demand_ok_iff.mp hne, hproto0, demand_ok_iff.mp hin, ?_⟩, hread⟩
      constructor
      · intro ha
        exact not_not.mp fun hkn => hsome ⟨hkn, ha⟩
      · intro hkn
        exact not_not.mp fun ha => hnone ⟨hkn, ha⟩
    · rintro ⟨h, hread⟩
      rw [validateFields, item_ok_iff.mpr h.endpointId, item_ok_iff.mpr h.pid,
        item_ok_iff.mpr h.host, item_ok_iff.mpr h.protoVersion, item_ok_iff.mpr h.transportKind,
        item_ok_iff.mpr h.transportAddr]
      refine bind_ok_iff.mpr ⟨_, rfl, ?_⟩
      refine bind_ok_iff.mpr ⟨_, validateEndpointId_ok_iff.mpr ⟨rfl, hread⟩, ?_⟩
      refine bind_ok_iff.mpr ⟨_, rfl, ?_⟩
      refine bind_ok_iff.mpr ⟨_, metaInt_ok_iff.mpr ⟨rfl, h.pid_nonneg⟩, ?_⟩
      refine bind_ok_iff.mpr ⟨_, rfl, ?_⟩
      refine bind_ok_iff.mpr ⟨_, rfl, ?_⟩
      refine bind_ok_iff.mpr ⟨(), demand_ok_iff.mpr h.host_ne, ?_⟩
      refine bind_ok_iff.mpr ⟨_, rfl, ?_⟩
      refine bind_ok_iff.mpr ⟨_, metaInt_ok_iff.mpr ⟨rfl, h.proto_nonneg⟩, ?_⟩
      refine bind_ok_iff.mpr ⟨_, rfl, ?_⟩
      refine bind_ok_iff.mpr ⟨_, rfl, ?_⟩
      refine bind_ok_iff.mpr ⟨(), demand_ok_iff.mpr h.kind, ?_⟩
      refine bind_ok_iff.mpr ⟨_, rfl, ?_⟩
      refine bind_ok_iff.mpr ⟨_, rfl, ?_⟩
      refine bind_ok_iff.mpr ⟨(), demand_ok_iff.mpr fun hc => hc.2 (h.addr.mpr hc.1), ?_⟩
      exact bind_ok_iff.mpr ⟨(), demand_ok_iff.mpr fun hc => hc.1 (h.addr.mp hc.2), rfl⟩
  · rw [if_neg hk]
    refine iff_of_false ?_ (fun h => hk h.1.keys)
    intro h
    obtain ⟨got, _, h⟩ := bind_ok_iff.mp h
    cases h

end

/-! ## the id on the wire -/

theorem utf8_ascii {s : PyStr} (h : ∀ c ∈ s, c.val < 0x80) :
    utf8 s = some (s.map fun c => UInt8.ofNat c.val) := by
  induction s with
  | nil => rfl
  | cons c s ih =>
    have hc : utf8Char c = some [UInt8.ofNat c.val] := if_pos (h c List.mem_cons_self)
    rw [utf8, hc, ih fun c hc => h c (List.mem_cons_of_mem _ hc)]
    rfl

theorem isHexChar_ascii {c : PyChar} (h : isHexChar c = true) : c.val < 0x80 := by
  simp only [isHexChar, Bool.or_eq_true, Bool.and_eq_true, decide_eq_true_eq] at h
  omega

theorem idWord_ascii : (lit "rtb-ep-").all (fun c => c.val < 0x80) = true := by decide

theorem IdShape.ascii {s : PyStr} (h : IdShape s) : ∀ c ∈ s, c.val < 0x80 := by
  obtain ⟨hex, rfl, _, hall⟩ := h
  intro c hc
  rcases List.mem_append.mp hc with hc | hc
  · exact of_decide_eq_true (List.all_eq_true.mp idWord_ascii c hc)
  · exact isHexChar_ascii (List.all_eq_true.mp hall c hc)

theorem IdShape.length {s : PyStr} (h : IdShape s) : s.length = wireIdLen := by
  obtain ⟨hex, rfl, hlen, _⟩ := h
  rw [List.length_append, hlen]
  rfl

/-- an id with something behind it is not an id -/
theorem IdShape.ne_append {id : PyStr} (h : IdShape id) (c : PyChar) : ¬ IdShape (id ++ [c]) := by
  intro h'
  have hlen := h.length
  have hlen' := h'.length
  rw [List.length_append, List.length_singleton] at hlen'
  omega

/-- the bytes of an id come back from both frames -/
structure OnWire (bytes : List UInt8) : Prop where
  ping : ∀ (proto : Int) (nonce : Int64) (out : List UInt8), out.length = wireReqSize →
    ∃ r, wireDecodeRequest (wireEncodeRequest proto bytes nonce out) = some r ∧ r.targetId = bytes
  callOp : ∀ (proto op : Int) (args : List CallOpArg) (argc : Int) (out : List UInt8),
    out.length = wireCallopReqSize →
    ∃ r, wireDecodeCallOp (wireEncodeCallOp proto bytes op args argc out) = some r ∧
      r.targetId = bytes

theorem onWire_of_length {bytes : List UInt8} (h : bytes.length = wireIdLen) : OnWire bytes where
  ping proto nonce out hout := by
    have hback := (requestCodec hout).decode_encode
      { proto := proto, msg := wireMsgPing, targetId := bytes, nonce := nonce }
    simp only [requestCodec, padId_eq h] at hback
    exact ⟨_, hback, rfl⟩
  callOp proto op args argc out hout := by
    have hback := (callOpCodec hout).decode_encode
      { proto := proto, msg := wireMsgCallOp, targetId := bytes, opCode := op, argc := argc,
        args := args }
    simp only [callOpCodec, padId_eq h] at hback
    exact ⟨_, hback, rfl⟩

/-- what validation and the wire owe a string -/
structure Survives (s : PyStr) : Prop where
  accepted : ∀ py, (∃ t, validateEndpointId py (.str s) = .ok t) ↔ IdShape s
  carried : ∀ py d m, validateMetadata py (.dict d) = .ok m → m.endpointId = s →
    ∃ bytes, utf8 s = some bytes ∧ OnWire bytes

theorem idAccepted_iff (py : PyText) (s : PyStr) :
    (∃ t, validateEndpointId py (.str s) = .ok t) ↔
      IdShape s ∨ ∃ id, IdShape id ∧ s = id ++ [newlineChar] := by
  have hread : (∃ t, validateEndpointId py (.str s) = .ok t) ↔ IdRead s := by
    constructor
    · rintro ⟨t, ht⟩
      obtain ⟨h, hr⟩ := validateEndpointId_ok_iff.mp ht
      cases h
      exact hr
    · intro hr
      exact ⟨s, validateEndpointId_ok_iff.mpr ⟨rfl, hr⟩⟩
  rw [hread]
  apply (reads_idRe s).trans
  constructor
  · rintro ⟨id, hid, rfl | hs⟩
    · exact Or.inl hid
    · exact Or.inr ⟨id, hid, hs⟩
  · rintro (hid | ⟨id, hid, hs⟩)
    · exact ⟨s, hid, Or.inl rfl⟩
    · exact ⟨id, hid, Or.inr hs⟩

/-- **Endpoint ids survive the wire** for every string that is not an id with a newline behind it,
and for no such string. -/
theorem id_survives_iff (s : PyStr) :
    Survives s ↔ ¬ ∃ id, IdShape id ∧ s = id ++ [newlineChar] := by
  constructor
  · rintro h ⟨id, hid, rfl⟩
    have hacc := (idAccepted_iff ⟨fun _ => "", 0⟩ (id ++ [newlineChar])).mpr (Or.inr ⟨id, hid, rfl⟩)
    exact hid.ne_append newlineChar ((h.accepted _).mp hacc)
  · intro hno
    have hiff : ∀ py, (∃ t, validateEndpointId py (.str s) = .ok t) ↔ IdShape s := fun py =>
      (idAccepted_iff py s).trans (or_iff_left hno)
    refine ⟨hiff, ?_⟩
    rintro py d m hm rfl
    have hread := (validateMetadata_ok_iff.mp hm).2
    have hid := (hiff py).mp ⟨_, validateEndpointId_ok_iff.mpr ⟨rfl, hread⟩⟩
    exact ⟨_, utf8_ascii hid.ascii, onWire_of_length (by rw [List.length_map, hid.length])⟩

def idNewline : PyStr := lit "rtb-ep-0123456789abcdef\n"

/-- the string is accepted, and the server gets another one -/
theorem idNewline_cut : (∀ py, validateEndpointId py (.str idNewline) = .ok idNewline) ∧
    (utf8 idNewline).bind (fun bytes => (wireDecodeRequest (wireEncodeRequest endpointProtoVersion
      bytes 0 (List.replicate wireReqSize 0))).map Request.targetId)
      = utf8 (lit "rtb-ep-0123456789abcdef") ∧ ¬ Survives idNewline := by
  have hread : IdRead idNewline := by
    show Pattern.reads _ _ _ _ = true
    decide
  refine ⟨fun py => validateEndpointId_ok_iff.mpr ⟨rfl, hread⟩, by decide, fun h => ?_⟩
  have hid := (h.accepted ⟨fun _ => "", 0⟩).mp ⟨_, validateEndpointId_ok_iff.mpr ⟨rfl, hread⟩⟩
  have hlen := hid.length
  revert hlen
  decide

end RayX
