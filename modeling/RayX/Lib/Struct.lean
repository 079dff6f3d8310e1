import RayX.Lib.Bytes

/-!
# Packed records

The big-endian part of the `struct` format language: a format is a list of items, `pack` takes one
value for each of them and `unpack` gives one value for each of them.

* `Fmt`, `calcsize`      `ns` a byte string of fixed width, `H` and `B` unsigned, `q` signed;
* `pack`, `unpack`       with their refusals;
* `pack_s` .. `pack_q`   what each item writes for a value in its range;
* `unpackAll_cons`       what each item reads.
-/

namespace Sys

inductive Fmt where
  | s (n : Nat)
  | H
  | B
  | q
  deriving DecidableEq, Repr

/-- a packed or unpacked value -/
inductive Field where
  | bytes (bs : List UInt8)
  | int (n : Int)
  deriving DecidableEq, Repr

inductive StructError where
  | argCount
  | argType
  | range
  | size
  deriving DecidableEq, Repr

def Fmt.size : Fmt → Nat
  | .s n => n
  | .H => 2
  | .B => 1
  | .q => 8

def calcsize (fmt : List Fmt) : Nat := (fmt.map Fmt.size).sum

/-- `s` truncates and pads with zeros, the integer items refuse a value out of their range -/
def Fmt.pack : Fmt → Field → Except StructError (List UInt8)
  | .s n, .bytes bs => .ok (bs.take n ++ List.replicate (n - bs.length) 0)
  | .H, .int v => if 0 ≤ v ∧ v ≤ 65535 then .ok (beBytes 2 v.toNat) else .error .range
  | .B, .int v => if 0 ≤ v ∧ v ≤ 255 then .ok (beBytes 1 v.toNat) else .error .range
  | .q, .int v =>
    if -2 ^ 63 ≤ v ∧ v < 2 ^ 63 then .ok (beBytes 8 (v % 2 ^ 64).toNat) else .error .range
  | _, _ => .error .argType

def Fmt.unpack : Fmt → List UInt8 → Field
  | .s _, bs => .bytes bs
  | .q, bs => .int (signed64 (beValue bs))
  | _, bs => .int (beValue bs)

def packAll : List Fmt → List Field → Except StructError (List UInt8)
  | f :: fmt, v :: vs => do
    let b ← f.pack v
    let bs ← packAll fmt vs
    .ok (b ++ bs)
  | _, _ => .ok []

def pack (fmt : List Fmt) (vs : List Field) : Except StructError (List UInt8) :=
  if fmt.length ≠ vs.length then .error .argCount else packAll fmt vs

def unpackAll : List Fmt → List UInt8 → List Field
  | [], _ => []
  | f :: fmt, bs => f.unpack (bs.take f.size) :: unpackAll fmt (bs.drop f.size)

def unpack (fmt : List Fmt) (bs : List UInt8) : Except StructError (List Field) :=
  if bs.length ≠ calcsize fmt then .error .size else .ok (unpackAll fmt bs)

/-! ## items -/

theorem pack_s {n : Nat} {bs : List UInt8} (h : bs.length = n) :
    (Fmt.s n).pack (.bytes bs) = .ok bs := by
  subst h
  simp [Fmt.pack]

theorem pack_H (v : UInt16) : Fmt.H.pack (.int v.toNat) = .ok (beBytes 2 v.toNat) := by
  have h := v.toNat_lt
  rw [Fmt.pack, if_pos (by omega)]
  rfl

theorem pack_B (v : UInt8) : Fmt.B.pack (.int v.toNat) = .ok [v] := by
  have h := v.toNat_lt
  rw [Fmt.pack, if_pos (by omega)]
  simp [beBytes]

theorem pack_q (v : Int64) : Fmt.q.pack (.int v.toInt) = .ok (beBytes 8 v.toUInt64.toNat) := by
  have h1 := v.le_toInt
  have h2 := v.toInt_lt
  rw [Fmt.pack, if_pos ⟨h1, h2⟩, toInt_emod]

theorem packAll_cons {f : Fmt} {v : Field} {b bs : List UInt8} {fmt : List Fmt} {vs : List Field}
    (h : f.pack v = .ok b) (hs : packAll fmt vs = .ok bs) :
    packAll (f :: fmt) (v :: vs) = .ok (b ++ bs) := by
  rw [packAll, h, hs]
  rfl

theorem packAll_nil : packAll [] [] = .ok [] := rfl

/-- the items are read one after the other, each from its offset -/
theorem unpackAll_cons (f : Fmt) (fmt : List Fmt) (bs : List UInt8) (p : Nat) :
    unpackAll (f :: fmt) (bs.drop p)
      = f.unpack (slice bs p f.size) :: unpackAll fmt (bs.drop (p + f.size)) := by
  rw [unpackAll, slice, List.drop_drop]

end Sys
