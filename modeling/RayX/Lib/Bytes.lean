import Mathlib.Data.Int.Bitwise
import Mathlib.Data.List.Basic
import Mathlib.Tactic.NormNum

/-!
# Byte buffers

A fixed buffer written at offsets, as C code does it, and big-endian numbers.

* `writeAt`, `slice`, `byteAt`   copy into a buffer, copy out of it, read one byte;
* `writeAt_append`, `set_append` a write right after a finished prefix extends the prefix;
* `beBytes`, `beValue`           the `k` big-endian bytes of a number and the number of a byte string;
* `beValue_beBytes`              **reading what was written gives the number modulo `256 ^ k`**;
* `beBytes_beValue`              writing what was read gives the bytes;
* `toNat_foldl_shiftStep`        the shift loop of a C reader computes `beValue`;
* `signed64`, `toInt_xor`        two's complement, read as unbounded integers.
-/

namespace Sys

/-! ## buffers -/

def writeAt (p : Nat) (bs buf : List UInt8) : List UInt8 :=
  buf.take p ++ bs ++ buf.drop (p + bs.length)

def slice (buf : List UInt8) (p n : Nat) : List UInt8 := (buf.drop p).take n

/-- a read past the end, which no caller makes, is `0` -/
def byteAt (buf : List UInt8) (p : Nat) : UInt8 := buf.getD p 0

theorem writeAt_append {pre bs rest : List UInt8} {p : Nat} (hp : pre.length = p) :
    writeAt p bs (pre ++ rest) = (pre ++ bs) ++ rest.drop bs.length := by
  subst hp
  simp [writeAt]

theorem set_append {pre rest : List UInt8} {p : Nat} {c : UInt8} (hp : pre.length = p)
    (hr : rest ≠ []) : (pre ++ rest).set p c = (pre ++ [c]) ++ rest.drop 1 := by
  subst hp
  cases rest with
  | nil => exact absurd rfl hr
  | cons b rest => simp

/-- a loop that writes `n` bytes from offset `p` on -/
theorem foldl_set {pre rest : List UInt8} {p : Nat} (f : Nat → UInt8) (n : Nat)
    (hp : pre.length = p) (hn : n ≤ rest.length) :
    (List.range n).foldl (fun out i => out.set (p + i) (f i)) (pre ++ rest)
      = (pre ++ (List.range n).map f) ++ rest.drop n := by
  induction n with
  | zero => simp
  | succ n ih =>
    have hne : rest.drop n ≠ [] := by
      intro h
      have := List.drop_eq_nil_iff.mp h
      omega
    have hlen : (pre ++ (List.range n).map f).length = p + n := by simp [hp]
    rw [List.range_succ, List.foldl_append, ih (by omega), List.foldl_cons, List.foldl_nil,
      set_append hlen hne, List.drop_drop, List.map_append, List.append_assoc pre]
    rfl

@[simp] theorem length_slice (buf : List UInt8) (p n : Nat) :
    (slice buf p n).length = min n (buf.length - p) := by simp [slice]

theorem slice_append {pre bs rest : List UInt8} {p n : Nat} (hp : pre.length = p)
    (hn : bs.length = n) : slice (pre ++ (bs ++ rest)) p n = bs := by
  subst hp hn
  simp [slice]

theorem byteAt_append {pre rest : List UInt8} {p : Nat} {b : UInt8} (hp : pre.length = p) :
    byteAt (pre ++ b :: rest) p = b := by
  subst hp
  simp [byteAt]

/-- the bytes that a reading loop visits -/
theorem map_byteAt {buf : List UInt8} {p n : Nat} (h : p + n ≤ buf.length) :
    (List.range n).map (fun i => byteAt buf (p + i)) = slice buf p n := by
  apply List.ext_getElem
  · simp
    omega
  · intro i h1 h2
    have hi : p + i < buf.length := by
      simp only [List.length_map, List.length_range] at h1
      omega
    simp [byteAt, slice, List.getElem?_eq_getElem hi]

/-! ## big-endian numbers -/

def beBytes : Nat → Nat → List UInt8
  | 0, _ => []
  | k + 1, v => UInt8.ofNat (v / 256 ^ k) :: beBytes k v

/-- one more byte on the right -/
def beStep (acc : Nat) (b : UInt8) : Nat := acc * 256 + b.toNat

def beValue (bs : List UInt8) : Nat := bs.foldl beStep 0

@[simp] theorem length_beBytes (k v : Nat) : (beBytes k v).length = k := by
  induction k with
  | zero => rfl
  | succ k ih => simp [beBytes, ih]

theorem foldl_beStep (bs : List UInt8) (acc : Nat) :
    bs.foldl beStep acc = acc * 256 ^ bs.length + beValue bs := by
  induction bs generalizing acc with
  | nil => simp [beValue]
  | cons b bs ih =>
    have h0 : beValue (b :: bs) = b.toNat * 256 ^ bs.length + beValue bs := by
      rw [beValue, List.foldl_cons, ih]
      simp [beStep]
    rw [List.foldl_cons, ih, h0, List.length_cons, beStep, Nat.add_mul, Nat.pow_succ',
      Nat.mul_assoc, Nat.add_assoc]

theorem beValue_cons (b : UInt8) (bs : List UInt8) :
    beValue (b :: bs) = b.toNat * 256 ^ bs.length + beValue bs := by
  rw [beValue, List.foldl_cons, foldl_beStep]
  simp [beStep]

theorem beValue_lt (bs : List UInt8) : beValue bs < 256 ^ bs.length := by
  induction bs with
  | nil => simp [beValue]
  | cons b bs ih =>
    have hb : b.toNat ≤ 255 := by
      have := b.toNat_lt
      omega
    have hm : b.toNat * 256 ^ bs.length ≤ 255 * 256 ^ bs.length := Nat.mul_le_mul_right _ hb
    rw [beValue_cons, List.length_cons, Nat.pow_succ]
    omega

/-- **Writing, then reading.** -/
theorem beValue_beBytes (k v : Nat) : beValue (beBytes k v) = v % 256 ^ k := by
  induction k with
  | zero => simp [beBytes, beValue, Nat.mod_one]
  | succ k ih =>
    have hb : (UInt8.ofNat (v / 256 ^ k)).toNat = v / 256 ^ k % 256 := by simp
    rw [beBytes, beValue_cons, length_beBytes, ih, hb, Nat.pow_succ, Nat.mod_mul]
    rw [Nat.mul_comm, Nat.add_comm]

/-- the bytes depend on the number modulo `256 ^ k` only -/
theorem beBytes_congr {k v w : Nat} (h : v % 256 ^ k = w % 256 ^ k) :
    beBytes k v = beBytes k w := by
  induction k with
  | zero => rfl
  | succ k ih =>
    have hlow : v % 256 ^ k = w % 256 ^ k := by
      rw [← Nat.mod_mod_of_dvd v (Nat.pow_dvd_pow 256 (Nat.le_succ k)), h,
        Nat.mod_mod_of_dvd w (Nat.pow_dvd_pow 256 (Nat.le_succ k))]
    have hhigh : v / 256 ^ k % 256 = w / 256 ^ k % 256 := by
      rw [← Nat.mod_mul_right_div_self, ← Nat.mod_mul_right_div_self, ← Nat.pow_succ, h]
    have hbyte : UInt8.ofNat (v / 256 ^ k) = UInt8.ofNat (w / 256 ^ k) := by
      apply UInt8.toNat_inj.mp
      rw [UInt8.toNat_ofNat', UInt8.toNat_ofNat']
      exact hhigh
    rw [beBytes, beBytes, hbyte, ih hlow]

/-- **Reading, then writing.** -/
theorem beBytes_beValue (bs : List UInt8) : beBytes bs.length (beValue bs) = bs := by
  induction bs with
  | nil => rfl
  | cons b bs ih =>
    have hbyte : UInt8.ofNat (beValue (b :: bs) / 256 ^ bs.length) = b := by
      rw [beValue_cons, Nat.mul_comm, Nat.mul_add_div (Nat.pow_pos (by omega)),
        Nat.div_eq_of_lt (beValue_lt bs), Nat.add_zero, UInt8.ofNat_toNat]
    have hrest : beBytes bs.length (beValue (b :: bs)) = beBytes bs.length (beValue bs) :=
      beBytes_congr (by rw [beValue_cons, Nat.mul_add_mod_self_right])
    rw [List.length_cons, beBytes, hbyte, hrest, ih]

theorem beBytes_eq_map (k v : Nat) :
    beBytes k v = (List.range k).map (fun i => UInt8.ofNat (v / 256 ^ (k - 1 - i))) := by
  induction k with
  | zero => rfl
  | succ k ih =>
    rw [beBytes, ih, List.range_succ_eq_map, List.map_cons, List.map_map]
    congr 1
    apply List.map_congr_left
    intro i _
    show UInt8.ofNat (v / 256 ^ (k - 1 - i)) = UInt8.ofNat (v / 256 ^ (k - (i + 1)))
    rw [Nat.sub_sub, Nat.add_comm 1 i]

/-! ## shifts -/

theorem toUInt8_shift16 (v : UInt16) :
    ((v >>> 8) &&& 0xff).toUInt8 = UInt8.ofNat (v.toNat / 256) := by
  have hff : (0xff : UInt16).toNat = 2 ^ 8 - 1 := rfl
  have h8 : (8 : UInt16).toNat % 16 = 8 := rfl
  apply UInt8.toNat_inj.mp
  rw [UInt16.toNat_toUInt8, UInt16.toNat_and, UInt16.toNat_shiftRight, h8, hff,
    Nat.and_two_pow_sub_one_eq_mod, Nat.shiftRight_eq_div_pow, UInt8.toNat_ofNat', Nat.mod_mod]

theorem toUInt8_low16 (v : UInt16) : (v &&& 0xff).toUInt8 = UInt8.ofNat v.toNat := by
  have hff : (0xff : UInt16).toNat = 2 ^ 8 - 1 := rfl
  apply UInt8.toNat_inj.mp
  rw [UInt16.toNat_toUInt8, UInt16.toNat_and, hff, Nat.and_two_pow_sub_one_eq_mod,
    UInt8.toNat_ofNat', Nat.mod_mod]

/-- byte `m` of a 64-bit number -/
theorem toUInt8_shift64 (u : UInt64) {m : Nat} (hm : m < 8) :
    ((u >>> UInt64.ofNat (8 * m)) &&& 0xff).toUInt8 = UInt8.ofNat (u.toNat / 256 ^ m) := by
  have hs : (UInt64.ofNat (8 * m)).toNat % 64 = 8 * m := by
    rw [UInt64.toNat_ofNat']
    omega
  have hff : (0xff : UInt64).toNat = 2 ^ 8 - 1 := rfl
  apply UInt8.toNat_inj.mp
  rw [UInt64.toNat_toUInt8, UInt64.toNat_and, UInt64.toNat_shiftRight, hs, hff,
    Nat.and_two_pow_sub_one_eq_mod, Nat.shiftRight_eq_div_pow, Nat.pow_mul, UInt8.toNat_ofNat',
    Nat.mod_mod]

/-- two bytes joined by a shift -/
theorem toNat_shift_or16 (a b : UInt8) :
    ((a.toUInt16 <<< 8) ||| b.toUInt16).toNat = beValue [a, b] := by
  have ha := a.toNat_lt
  have hb := b.toNat_lt
  have h8 : (8 : UInt16).toNat % 16 = 8 := rfl
  have hm : a.toNat <<< 8 % 2 ^ 16 = a.toNat <<< 8 := by
    rw [Nat.shiftLeft_eq]
    omega
  rw [UInt16.toNat_or, UInt16.toNat_shiftLeft, UInt8.toNat_toUInt16, UInt8.toNat_toUInt16, h8, hm,
    ← Nat.shiftLeft_add_eq_or_of_lt hb, Nat.shiftLeft_eq]
  simp [beValue, beStep]

/-- one round of a reader on 64 bits: `u = (u << 8) | byte` -/
def shiftStep (u : UInt64) (b : UInt8) : UInt64 := (u <<< 8) ||| b.toUInt64

theorem toNat_shiftStep (u : UInt64) (b : UInt8) :
    (shiftStep u b).toNat = beStep u.toNat b % 2 ^ 64 := by
  have hb := b.toNat_lt
  have hlow : u.toNat <<< 8 % 2 ^ 64 = (u.toNat % 2 ^ 56) <<< 8 := by
    rw [Nat.shiftLeft_eq, Nat.shiftLeft_eq]
    omega
  have h8 : (8 : UInt64).toNat % 64 = 8 := rfl
  rw [shiftStep, UInt64.toNat_or, UInt64.toNat_shiftLeft, UInt8.toNat_toUInt64, h8, hlow,
    ← Nat.shiftLeft_add_eq_or_of_lt hb, Nat.shiftLeft_eq, beStep]
  omega

theorem toNat_foldl_shiftStep (bs : List UInt8) (u : UInt64) :
    (bs.foldl shiftStep u).toNat = bs.foldl beStep u.toNat % 2 ^ 64 := by
  induction bs generalizing u with
  | nil => exact (Nat.mod_eq_of_lt u.toNat_lt).symm
  | cons b bs ih =>
    rw [List.foldl_cons, List.foldl_cons, ih, toNat_shiftStep, foldl_beStep, foldl_beStep]
    simp [Nat.add_mod, Nat.mul_mod]

/-! ## casts and two's complement -/

theorem u8_ofInt_natCast (n : Nat) : UInt8.ofInt n = UInt8.ofNat n := by
  apply UInt8.toNat_inj.mp
  have h : ((n : Int) % 2 ^ 8).toNat = n % 2 ^ 8 := by omega
  rw [UInt8.ofInt, h]
  simp

theorem u16_ofInt_natCast (n : Nat) : UInt16.ofInt n = UInt16.ofNat n := by
  apply UInt16.toNat_inj.mp
  have h : ((n : Int) % 2 ^ 16).toNat = n % 2 ^ 16 := by omega
  rw [UInt16.ofInt, h]
  simp

theorem toNat_u8_ofInt (v : Int) : ((UInt8.ofInt v).toNat : Int) = v % 2 ^ 8 := by
  have h : (v % 2 ^ 8).toNat < 2 ^ 8 := by omega
  rw [UInt8.ofInt, UInt8.toNat_ofNat_of_lt' h]
  omega

theorem toNat_u16_ofInt (v : Int) : ((UInt16.ofInt v).toNat : Int) = v % 2 ^ 16 := by
  have h : (v % 2 ^ 16).toNat < 2 ^ 16 := by omega
  rw [UInt16.ofInt, UInt16.toNat_ofNat_of_lt' h]
  omega

@[simp] theorem u8_ofInt_toNat (v : UInt8) : UInt8.ofInt v.toNat = v := by
  rw [u8_ofInt_natCast, UInt8.ofNat_toNat]

@[simp] theorem u16_ofInt_toNat (v : UInt16) : UInt16.ofInt v.toNat = v := by
  rw [u16_ofInt_natCast, UInt16.ofNat_toNat]

/-- the signed reading of a 64-bit pattern -/
def signed64 (v : Nat) : Int := if 2 ^ 63 ≤ v then (v : Int) - 2 ^ 64 else v

theorem toInt_toInt64 (u : UInt64) : u.toInt64.toInt = signed64 u.toNat := by
  have h : u.toInt64.toInt = if 2 * u.toNat < 2 ^ 64 then (u.toNat : Int)
      else (u.toNat : Int) - (2 ^ 64 : Nat) := BitVec.toInt_eq_toNat_cond u.toBitVec
  rw [h, signed64]
  split <;> split <;> omega

theorem toInt_emod (x : Int64) : (x.toInt % 2 ^ 64).toNat = x.toUInt64.toNat := by
  have h : x.toInt = signed64 x.toUInt64.toNat := toInt_toInt64 x.toUInt64
  have hlt := x.toUInt64.toNat_lt
  rw [h, signed64]
  split <;> omega

/-! ## bitwise operations of unbounded integers -/

theorem toInt_of_msb {w : Nat} {x : BitVec w} (h : x.msb = true) :
    x.toInt = Int.negSucc (~~~x).toNat := by
  have hlt := x.isLt
  rw [BitVec.toInt_eq_msb_cond, if_pos h, BitVec.toNat_not, Int.negSucc_eq]
  omega

theorem toInt_of_not_msb {w : Nat} {x : BitVec w} (h : x.msb = false) : x.toInt = x.toNat := by
  rw [BitVec.toInt_eq_msb_cond, h]
  rfl

/-- the `xor` of a fixed width is the `xor` of the integers it stands for -/
theorem toInt_xor {w : Nat} (x y : BitVec w) : (x ^^^ y).toInt = Int.xor x.toInt y.toInt := by
  have hmsb : (x ^^^ y).msb = (x.msb ^^ y.msb) := BitVec.msb_xor
  cases hx : x.msb <;> cases hy : y.msb <;> rw [hx, hy] at hmsb
  · rw [toInt_of_not_msb hmsb, toInt_of_not_msb hx, toInt_of_not_msb hy]
    rfl
  · rw [toInt_of_msb hmsb, toInt_of_not_msb hx, toInt_of_msb hy, BitVec.not_xor_right]
    rfl
  · rw [toInt_of_msb hmsb, toInt_of_msb hx, toInt_of_not_msb hy, BitVec.not_xor_left]
    rfl
  · have hboth : x ^^^ y = ~~~x ^^^ ~~~y := by
      rw [← BitVec.not_xor_left, ← BitVec.not_xor_right, BitVec.not_not]
    rw [toInt_of_not_msb hmsb, toInt_of_msb hx, toInt_of_msb hy, hboth]
    rfl

/-- a product cut to 64 bits by a mask -/
theorem land_mask64 (a b : UInt64) :
    Int.land ((a.toNat : Int) * b.toNat) (2 ^ 64 - 1) = (a * b).toNat := by
  show ((a.toNat * b.toNat &&& 2 ^ 64 - 1 : Nat) : Int) = _
  rw [Nat.and_two_pow_sub_one_eq_mod, UInt64.toNat_mul]

end Sys
