import RayX.Lib.Collect
import RayX.Ops.Registry
import Mathlib.Algebra.Group.Int.Defs

/-!
# The Python boundary

The validators of `runtime/_validate.py` over a closed set of Python objects, and the native
marshalling of the validated arguments.

* `validateCall`    operation id and arguments against the typed signature table, then the domain
                    of each operation;
* `marshalArgs`     Python arguments into the typed value channel;
* `validateCall_parkMs`   what the boundary admits for `park_ms` passes the native guard.
-/

namespace RayX
open Sys

/-! ## Python objects and errors -/

inductive PyObj where
  | none
  | bool (b : Bool)
  | int (n : Int)
  | float (x : Float)
  | str (s : String)
  | other (typeName : String)

/-- `type(a).__name__` -/
def PyObj.typeName : PyObj → String
  | .none => "NoneType"
  | .bool _ => "bool"
  | .int _ => "int"
  | .float _ => "float"
  | .str _ => "str"
  | .other t => t

inductive PyClass where
  | typeError
  | valueError
  | runtimeError
  deriving DecidableEq, Repr

structure PyErr where
  cls : PyClass
  msg : String
  deriving DecidableEq, Repr

def typeError {α : Type} (msg : String) : Except PyErr α := .error ⟨.typeError, msg⟩
def valueError {α : Type} (msg : String) : Except PyErr α := .error ⟨.valueError, msg⟩
def runtimeError {α : Type} (msg : String) : Except PyErr α := .error ⟨.runtimeError, msg⟩

/-- `repr` of a `str`, for texts without control characters -/
def pyRepr (s : String) : String :=
  let q := if s.contains '\'' && !s.contains '"' then "\"" else "'"
  let esc (c : Char) : String :=
    if c = '\\' then "\\\\" else if q = "'" ∧ c = '\'' then "\\'" else c.toString
  q ++ String.join (s.toList.map esc) ++ q

/-- `repr(sorted(keys))` -/
def pySorted (keys : List String) : String :=
  "[" ++ ", ".intercalate ((keys.mergeSort fun a b => decide (a < b) || a == b).map pyRepr) ++ "]"

/-- `repr` of a float that is not finite -/
def nonFiniteRepr (x : Float) : String := if x.isNaN then "nan" else if x < 0 then "-inf" else "inf"

/-! ## typed validation -/

def int64Min : Int := -(2 ^ 63)
def int64Max : Int := 2 ^ 63 - 1

def validateInt64 (label : String) (i : Nat) (a : PyObj) : Except PyErr PyObj :=
  match a with
  | .int n =>
    if n < int64Min ∨ int64Max < n then
      valueError s!"{label} argument {i} (int64) is out of range [{int64Min}, {int64Max}], got {n}"
    else .ok (.int n)
  | a => typeError s!"{label} argument {i} must be int, got {a.typeName}"

def validateDouble (label : String) (i : Nat) (a : PyObj) : Except PyErr PyObj :=
  match a with
  | .float x =>
    if x.isFinite then .ok (.float x)
    else valueError s!"{label} argument {i} (double) must be finite, got {nonFiniteRepr x}"
  | a => typeError s!"{label} argument {i} must be float, got {a.typeName}"

/-- `_TYPE_VALIDATORS` -/
def typeValidator : OpType → String → Nat → PyObj → Except PyErr PyObj
  | .int64 => validateInt64
  | .double => validateDouble

def validateArgs (label : String) : Nat → List PyObj → List OpType → Except PyErr (List PyObj)
  | i, a :: args, t :: types => do
    let v ← typeValidator t label i a
    let vs ← validateArgs label (i + 1) args types
    .ok (v :: vs)
  | _, _, _ => .ok []

def validateTypedArgs (label : String) (args : List PyObj) (argTypes : List OpType) :
    Except PyErr (List PyObj) :=
  if args.length ≠ argTypes.length then
    valueError s!"{label} expects {argTypes.length} argument(s), got {args.length}"
  else validateArgs label 0 args argTypes

/-! ## per-operation domains -/

/-- the integer argument `i` of a validated list -/
def argInt (out : List PyObj) (i : Nat) : Int :=
  match out[i]? with
  | some (.int n) => n
  | _ => 0

def atLeast (label : String) (i : Nat) (name : String) (lo x : Int) : Except PyErr Unit :=
  if x < lo then valueError s!"{label} argument {i} ({name}) must be >= {lo}, got {x}" else .ok ()

def atMost (label : String) (i : Nat) (name : String) (hi x : Int) : Except PyErr Unit :=
  if hi < x then valueError s!"{label} argument {i} ({name}) must be <= {hi}, got {x}" else .ok ()

/-- `lo <= argument i <= hi`, the lower bound checked first -/
def inDomain (label : String) (i : Nat) (name : String) (lo hi : Int) (out : List PyObj) :
    Except PyErr Unit := do
  atLeast label i name lo (argInt out i)
  atMost label i name hi (argInt out i)

def pyPartsMax : Int := 1024
def pyParkMsMax : Int := 60000
def pyChainStepsMax : Int := 10000
def pyChainQuantumMax : Int := 100000
def pyChainFanoutKMax : Int := 256
def pyFaninLeavesMax : Int := 64

def chainDomain (label : String) (out : List PyObj) : Except PyErr Unit := do
  inDomain label 1 "steps" 0 pyChainStepsMax out
  inDomain label 2 "quantum" 0 pyChainQuantumMax out

/-- the per-operation part of `validate_call` -/
def opDomain (opId : String) (out : List PyObj) : Except PyErr Unit :=
  let label := s!"operation {pyRepr opId}"
  match opId with
  | "busy_sum" => atLeast label 0 "n" 0 (argInt out 0)
  | "fanout_sum" => do
    atLeast label 0 "n" 0 (argInt out 0)
    inDomain label 1 "parts" 1 pyPartsMax out
  | "park_ms" => inDomain label 0 "ms" 0 pyParkMsMax out
  | "chain_sum_loop" => chainDomain label out
  | "chain_sum_then" => chainDomain label out
  | "chain_fanout" => do
    inDomain label 1 "count" 1 pyChainFanoutKMax out
    inDomain label 2 "steps" 0 pyChainStepsMax out
    inDomain label 3 "quantum" 0 pyChainQuantumMax out
  | "barrier_fanin" => do
    inDomain label 1 "leaves" 1 pyFaninLeavesMax out
    inDomain label 2 "quantum" 0 pyChainQuantumMax out
  | "diamond_fanin" => inDomain label 1 "quantum" 0 pyChainQuantumMax out
  | "overlap_probe" => do
    inDomain label 1 "quantum" 0 pyChainQuantumMax out
    if argInt out 2 = 0 ∨ argInt out 2 = 1 then .ok ()
    else valueError s!"{label} argument 2 (mode) must be 0 or 1, got {argInt out 2}"
  | _ => .ok ()

def validateCall (opId : PyObj) (args : List PyObj) (table : List (String × OpSignature)) :
    Except PyErr (List PyObj) :=
  match opId with
  | .str op =>
    match table.lookup op with
    | none => valueError
        s!"unknown operation id {pyRepr op}; registered operations: {pySorted (table.map Prod.fst)}"
    | some sig => do
      let out ← validateTypedArgs s!"operation {pyRepr op}" args sig.argTypes
      opDomain op out
      .ok out
  | a => typeError s!"op_id must be str, got {a.typeName}"

/-! ## marshalling -/

/-- `h.cast<std::int64_t>()` fails outside the range of `int64` -/
def castInt64 (n : Int) : Except PyErr Int64 :=
  if int64Min ≤ n ∧ n ≤ int64Max then .ok (Int64.ofInt n)
  else runtimeError "Unable to cast Python instance to C++ type"

def marshalArg (what : String) (i : Nat) : PyObj → Except PyErr OpValue
  | .bool _ => valueError s!"{what} argument {i} must not be bool"
  | .int n => do
    let v ← castInt64 n
    .ok (.int64 v)
  | .float x => .ok (.double x)
  | _ => valueError s!"{what} argument {i} has an unsupported type (expected int or float)"

def marshalFrom (what : String) : Nat → List PyObj → Except PyErr OpArgs
  | _, [] => .ok []
  | i, a :: args => do
    let v ← marshalArg what i a
    let vs ← marshalFrom what (i + 1) args
    .ok (v :: vs)

def marshalArgs (what : String) (args : List PyObj) : Except PyErr OpArgs := marshalFrom what 0 args

/-! ## what the boundary admits -/

theorem atLeast_ok {label name : String} {i : Nat} {lo x : Int} {u : Unit}
    (h : atLeast label i name lo x = .ok u) : lo ≤ x := by
  unfold atLeast at h
  split at h
  · cases h
  · omega

theorem atMost_ok {label name : String} {i : Nat} {hi x : Int} {u : Unit}
    (h : atMost label i name hi x = .ok u) : x ≤ hi := by
  unfold atMost at h
  split at h
  · cases h
  · omega

theorem inDomain_ok {label name : String} {i : Nat} {lo hi : Int} {out : List PyObj} {u : Unit}
    (h : inDomain label i name lo hi out = .ok u) :
    lo ≤ argInt out i ∧ argInt out i ≤ hi := by
  obtain ⟨_, h1, h2⟩ := bind_ok_iff.mp h
  exact ⟨atLeast_ok h1, atMost_ok h2⟩

theorem validateCall_ok {opId : PyObj} {args out : List PyObj}
    {table : List (String × OpSignature)} (h : validateCall opId args table = .ok out) :
    ∃ op sig, opId = .str op ∧ table.lookup op = some sig ∧ opDomain op out = .ok () := by
  cases opId with
  | str op =>
    rw [validateCall] at h
    rcases hl : table.lookup op with _ | sig
    · rw [hl] at h
      cases h
    · rw [hl] at h
      obtain ⟨out', _, h⟩ := bind_ok_iff.mp h
      obtain ⟨u, hd, h⟩ := bind_ok_iff.mp h
      cases h
      exact ⟨op, sig, rfl, hl, hd⟩
  | _ => cases h

theorem castInt64_ok {n : Int} {v : Int64} (h : castInt64 n = .ok v) : v.toInt = n := by
  unfold castInt64 at h
  split at h
  · rename_i hn
    cases h
    unfold int64Min int64Max at hn
    exact Int64.toInt_ofInt_of_le (by omega) (by omega)
  · cases h

theorem marshalFrom_get {what : String} {args : List PyObj} {oa : OpArgs} {i k : Nat} {v : Int64}
    (h : marshalFrom what i args = .ok oa) (hv : oa[k]? = some (.int64 v)) :
    ∃ n, args[k]? = some (.int n) ∧ v.toInt = n := by
  induction args generalizing i k oa with
  | nil =>
    cases h
    cases hv
  | cons a args ih =>
    obtain ⟨w, hw, h⟩ := bind_ok_iff.mp h
    obtain ⟨ws, hws, h⟩ := bind_ok_iff.mp h
    cases h
    cases k with
    | zero =>
      cases hv
      cases a with
      | int n =>
        obtain ⟨v', hv', hw⟩ := bind_ok_iff.mp hw
        cases hw
        exact ⟨n, rfl, castInt64_ok hv'⟩
      | _ => cases hw
    | succ k => exact ih hws hv

/-- what the boundary admits for `park_ms` passes the native guard -/
theorem validateCall_parkMs {args out : List PyObj} {table : List (String × OpSignature)}
    {oa : OpArgs} {what : String} (h : validateCall (.str "park_ms") args table = .ok out)
    (hm : marshalArgs what out = .ok oa) (ms : Int64) (hms : oa[0]? = some (.int64 ms)) :
    badRange 0 parkMsMax ms = false := by
  obtain ⟨op, sig, hop, _, hd⟩ := validateCall_ok h
  cases hop
  obtain ⟨n, hn, hv⟩ := marshalFrom_get hm hms
  have hdom : 0 ≤ argInt out 0 ∧ argInt out 0 ≤ pyParkMsMax := inDomain_ok hd
  have harg : argInt out 0 = ms.toInt := by
    rw [argInt, hn, hv]
  rw [harg] at hdom
  exact badRange_of_mem 0 parkMsMax hdom.1 hdom.2

end RayX
