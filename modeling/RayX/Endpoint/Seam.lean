import RayX.Endpoint.Wire

/-!
# Endpoint seams

`EndpointSeam` and `EndpointRegistry` of `endpoint_seam.hpp`, and the Python side of the handshake.

* `EndpointId`            a minted identity: the prefix and 16 lowercase hex digits;
* `EndpointSeam`          identity, cached hash and the handshake `onPing`;
* `EndpointRegistry`      the process-local map with its tombstones, `resolve` and `lookup`;
* `pyEndpointIdHash`      the same hash with unbounded integers and a mask;
* `onPing_python`         **the handshake is the Python formula**.
-/

namespace RayX
open Sys

def endpointProtoVersion : Int := 2

/-- `"rtb-ep-"` -/
def endpointIdPrefix : List UInt8 := [0x72, 0x74, 0x62, 0x2d, 0x65, 0x70, 0x2d]

def isLowerHex (b : UInt8) : Bool :=
  (decide (0x30 ≤ b) && decide (b ≤ 0x39)) || (decide (0x61 ≤ b) && decide (b ≤ 0x66))

/-- what `make_endpoint_id` mints -/
structure EndpointId extends TargetId where
  prefixed : bytes.take 7 = endpointIdPrefix
  hex : (bytes.drop 7).all isLowerHex = true

/-! ## the seam -/

def endpointPingXor : Int64 := 0x52415958

/-- FNV-1a, the pattern read as signed -/
def endpointIdHash (id : List UInt8) : Int64 :=
  (id.foldl (fun h c => (h ^^^ c.toUInt64) * 0x100000001b3) (0xcbf29ce484222325 : UInt64)).toInt64

/-- a seam caches the hash of its own id -/
structure EndpointSeam where
  endpointId : List UInt8
  idHash : Int64
  hashed : idHash = endpointIdHash endpointId
  closed : Bool := false

def EndpointSeam.new (id : List UInt8) : EndpointSeam :=
  { endpointId := id, idHash := endpointIdHash id, hashed := rfl }

def EndpointSeam.onPing (s : EndpointSeam) (nonce : Int64) : Int64 :=
  nonce ^^^ endpointPingXor ^^^ s.idHash

/-! ## the registry -/

inductive LookupStatus where
  | absent
  | live (seam : EndpointSeam)
  | closed

/-- `map_` and `closed_`; a seam stands under its own id -/
structure EndpointRegistry where
  map : List UInt8 → Option EndpointSeam := fun _ => none
  tombstones : List UInt8 → Bool := fun _ => false
  keyed : ∀ id s, map id = some s → s.endpointId = id := by simp

namespace EndpointRegistry

def empty : EndpointRegistry := {}

def registerSeam (r : EndpointRegistry) (s : EndpointSeam) : EndpointRegistry where
  map := Function.update r.map s.endpointId (some s)
  tombstones := Function.update r.tombstones s.endpointId false
  keyed := by
    intro id s' h
    by_cases hid : id = s.endpointId
    · rw [hid, Function.update_self] at h
      cases h
      exact hid.symm
    · rw [Function.update_of_ne hid] at h
      exact r.keyed id s' h

def unregister (r : EndpointRegistry) (id : List UInt8) : EndpointRegistry where
  map := Function.update r.map id none
  tombstones := Function.update r.tombstones id true
  keyed := by
    intro id' s' h
    by_cases hid : id' = id
    · rw [hid, Function.update_self] at h
      cases h
    · rw [Function.update_of_ne hid] at h
      exact r.keyed id' s' h

def clearTombstones (r : EndpointRegistry) : EndpointRegistry :=
  { r with tombstones := fun _ => false }

/-- the same-process connect: closed and absent collapse -/
def resolve (r : EndpointRegistry) (id : List UInt8) : Option EndpointSeam :=
  match r.map id with
  | some s => if s.closed then none else some s
  | none => none

def lookup (r : EndpointRegistry) (id : List UInt8) : LookupStatus :=
  match r.map id with
  | some s => if s.closed then .closed else .live s
  | none => if r.tombstones id then .closed else .absent

variable {r : EndpointRegistry} {id : List UInt8} {s : EndpointSeam}

/-- a live lookup finds the open seam of that id -/
theorem lookup_live (h : r.lookup id = .live s) : s.endpointId = id ∧ s.closed = false := by
  unfold lookup at h
  split at h
  · rename_i s' hs
    split at h
    · cases h
    · rename_i hc
      cases h
      exact ⟨r.keyed id s hs, (Bool.not_eq_true _).mp hc⟩
  · split at h <;> cases h

theorem lookup_registerSeam (h : s.closed = false) :
    (r.registerSeam s).lookup s.endpointId = .live s := by
  have hmap : (r.registerSeam s).map s.endpointId = some s := by
    show Function.update r.map s.endpointId (some s) s.endpointId = some s
    rw [Function.update_self]
  rw [lookup, hmap]
  show (if s.closed then _ else _) = _
  rw [h]
  rfl

/-- **The two ways to find a seam agree on the live ones.** -/
theorem resolve_eq_some : r.resolve id = some s ↔ r.lookup id = .live s := by
  unfold resolve lookup
  split
  · split <;> simp
  · split <;> simp

end EndpointRegistry

/-! ## the Python formula -/

def pyPingXor : Int := 0x52415958
def fnvOffsetBasis : Int := 0xcbf29ce484222325
def fnvPrime : Int := 0x100000001b3
def u64Mask : Int := 2 ^ 64 - 1

/-- `h - (1 << 64) if h >= (1 << 63) else h` -/
def pySigned (h : Int) : Int := if 2 ^ 63 ≤ h then h - 2 ^ 64 else h

/-- `endpoint_id_hash` of `_validate.py` -/
def pyEndpointIdHash (endpointId : String) : Except WireError Int := do
  let bs ← encodeAscii endpointId
  .ok (pySigned
    (bs.foldl (fun h b => Int.land (Int.xor h b.toNat * fnvPrime) u64Mask) fnvOffsetBasis))

/-- `nonce ^ ENDPOINT_PING_XOR ^ endpoint_id_hash(id)` -/
def pyPing (endpointId : String) (nonce : Int) : Except WireError Int := do
  let h ← pyEndpointIdHash endpointId
  .ok (Int.xor (Int.xor nonce pyPingXor) h)

/-- one byte of the hash -/
theorem fnv_step (h : UInt64) (b : UInt8) :
    Int.land (Int.xor h.toNat b.toNat * fnvPrime) u64Mask
      = ((h ^^^ b.toUInt64) * 0x100000001b3 : UInt64).toNat := by
  have hxor : Int.xor h.toNat b.toNat = (h ^^^ b.toUInt64).toNat := rfl
  have hprime : fnvPrime = (0x100000001b3 : UInt64).toNat := rfl
  rw [hxor, hprime]
  exact land_mask64 _ _

theorem fnv_foldl (bs : List UInt8) (h : UInt64) :
    bs.foldl (fun h b => Int.land (Int.xor h b.toNat * fnvPrime) u64Mask) (h.toNat : Int)
      = (bs.foldl (fun h c => (h ^^^ c.toUInt64) * 0x100000001b3) h).toNat := by
  induction bs generalizing h with
  | nil => rfl
  | cons b bs ih => rw [List.foldl_cons, List.foldl_cons, fnv_step, ih]

theorem pySigned_natCast (n : Nat) : pySigned n = signed64 n := by
  unfold pySigned signed64
  split <;> split <;> omega

/-- **The two hashes agree on ASCII ids.** -/
theorem pyEndpointIdHash_eq (id : TargetId) :
    pyEndpointIdHash id.str = .ok (endpointIdHash id.bytes).toInt := by
  have hfold := fnv_foldl id.bytes 0xcbf29ce484222325
  rw [pyEndpointIdHash, id.encode, endpointIdHash, toInt_toInt64, ← pySigned_natCast, ← hfold]
  rfl

theorem onPing_python (id : TargetId) {s : EndpointSeam} (h : s.endpointId = id.bytes)
    (nonce : Int64) : pyPing id.str nonce.toInt = .ok (s.onPing nonce).toInt := by
  have hxor : ∀ a b : Int64, (a ^^^ b).toInt = Int.xor a.toInt b.toInt :=
    fun a b => toInt_xor a.toBitVec b.toBitVec
  rw [pyPing, pyEndpointIdHash_eq, EndpointSeam.onPing, hxor, hxor, s.hashed, h]
  rfl

/-- the handshake is one `xor` -/
theorem onPing_eq (s : EndpointSeam) (nonce : Int64) :
    s.onPing nonce = nonce ^^^ (endpointPingXor ^^^ s.idHash) :=
  Int64.xor_assoc _ _ _

theorem onPing_onPing (s : EndpointSeam) (nonce : Int64) : s.onPing (s.onPing nonce) = nonce := by
  rw [onPing_eq, onPing_eq, Int64.xor_assoc, Int64.xor_self, Int64.xor_zero]

end RayX
