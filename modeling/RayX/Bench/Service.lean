import Mathlib.Algebra.Group.Int.Defs
import Mathlib.Algebra.Group.Nat.Defs
import Mathlib.Data.List.TakeWhile

/-!
# Request ids and service times

The id of a request and the index it gives back, and the service time of an index, in C++ and in
Python.

* `requestId`, `idxFromRequestId`   `"req-%06d"` and its parser;
* `idx_requestId`                   the parser gives every `int` index back;
* `Native.mix`, `Python.mix`        the draw in `uint64_t` and in masked unbounded integers;
* `mix_eq`                          **the two draws are equal** for every seed and index;
* `Native.serviceFor`, `Python.serviceFor`   the service time of an index.
-/

namespace RayX
namespace Bench

/-! ## request ids -/

/-- `%06d` of an index -/
def pad6 (digits : List Char) : List Char := List.replicate (6 - digits.length) '0' ++ digits

/-- `"req-%06d"` -/
def requestId (idx : Nat) : String :=
  String.ofList ('r' :: 'e' :: 'q' :: '-' :: pad6 (Nat.toDigits 10 idx))

/-- what follows the last `-` -/
def afterLastDash : List Char → Option (List Char)
  | [] => none
  | c :: cs =>
    match afterLastDash cs with
    | some tail => some tail
    | none => if c = '-' then some cs else none

/-- `std::isspace` -/
def isSpace (c : Char) : Bool := c = ' ' ∨ (9 ≤ c.toNat ∧ c.toNat ≤ 13)

def readSign : List Char → Bool × List Char
  | '-' :: cs => (true, cs)
  | '+' :: cs => (false, cs)
  | cs => (false, cs)

/-- `std::stoi`; `none` when it throws -/
def stoi (cs : List Char) : Option Int :=
  let (negative, rest) := readSign (cs.dropWhile isSpace)
  let digits := rest.takeWhile Char.isDigit
  if digits = [] then none
  else
    let n : Int := Nat.ofDigitChars 10 digits 0
    let v := if negative then -n else n
    if -2 ^ 31 ≤ v ∧ v < 2 ^ 31 then some v else none

def idxFromRequestId (requestId : String) : Int :=
  match afterLastDash requestId.toList with
  | none => -1
  | some tail => (stoi tail).getD (-1)

section
variable {cs : List Char}

theorem digit_range {c : Char} (h : c.isDigit = true) : 48 ≤ c.toNat ∧ c.toNat ≤ 57 := by
  have := Char.isDigit_iff_toNat.mp h
  exact this

theorem digit_ne {c : Char} (h : c.isDigit = true) : c ≠ '-' ∧ c ≠ '+' ∧ isSpace c = false := by
  obtain ⟨hlo, hhi⟩ := digit_range h
  refine ⟨fun hc => ?_, fun hc => ?_, decide_eq_false ?_⟩
  · rw [hc] at hlo
    exact absurd hlo (by decide)
  · rw [hc] at hlo
    exact absurd hlo (by decide)
  · rintro (hc | ⟨_, hle⟩)
    · rw [hc] at hlo
      exact absurd hlo (by decide)
    · omega

theorem readSign_digit {c : Char} (h : c.isDigit = true) : readSign (c :: cs) = (false, c :: cs) := by
  obtain ⟨hminus, hplus, _⟩ := digit_ne h
  unfold readSign
  split
  · rename_i heq
    exact absurd (List.cons.inj heq).1 hminus
  · rename_i heq
    exact absurd (List.cons.inj heq).1 hplus
  · rfl

theorem afterLastDash_none (h : ∀ c ∈ cs, c ≠ '-') : afterLastDash cs = none := by
  induction cs with
  | nil => rfl
  | cons c cs ih =>
    unfold afterLastDash
    rw [ih fun b hb => h b (List.mem_cons_of_mem _ hb)]
    exact if_neg (h c List.mem_cons_self)

theorem afterLastDash_cons {c : Char} {tail : List Char} (h : afterLastDash cs = some tail) :
    afterLastDash (c :: cs) = some tail := by
  unfold afterLastDash
  rw [h]

theorem afterLastDash_dash (h : afterLastDash cs = none) : afterLastDash ('-' :: cs) = some cs := by
  unfold afterLastDash
  rw [h]
  rfl

theorem stoi_digits (hne : cs ≠ []) (h : ∀ c ∈ cs, c.isDigit = true)
    (hlt : Nat.ofDigitChars 10 cs 0 < 2 ^ 31) : stoi cs = some ↑(Nat.ofDigitChars 10 cs 0) := by
  obtain ⟨c, ds, rfl⟩ := List.exists_cons_of_ne_nil hne
  have hc := h c List.mem_cons_self
  have hspace : (c :: ds).dropWhile isSpace = c :: ds := by
    rw [List.dropWhile_cons, (digit_ne hc).2.2]
    rfl
  have hdigits : (c :: ds).takeWhile Char.isDigit = c :: ds := List.takeWhile_eq_self_iff.mpr h
  unfold stoi
  rw [hspace, readSign_digit hc]
  dsimp only
  rw [hdigits, if_neg hne, if_neg Bool.false_ne_true, if_pos (by omega)]

theorem pad6_digits (idx : Nat) : ∀ c ∈ pad6 (Nat.toDigits 10 idx), c.isDigit = true := by
  intro c hc
  rcases List.mem_append.mp hc with hc | hc
  · rw [List.eq_of_mem_replicate hc]
    rfl
  · exact Nat.isDigit_of_mem_toDigits (by decide) (by decide) hc

theorem pad6_value (idx : Nat) : Nat.ofDigitChars 10 (pad6 (Nat.toDigits 10 idx)) 0 = idx := by
  rw [pad6, Nat.ofDigitChars_append, Nat.ofDigitChars_replicate_zero, Nat.mul_zero,
    Nat.ofDigitChars_ten_toDigits]

/-- **The parser gives every `int` index back.** -/
theorem idx_requestId {idx : Nat} (h : idx < 2 ^ 31) : idxFromRequestId (requestId idx) = idx := by
  have hdigits := pad6_digits idx
  have hnone : afterLastDash (pad6 (Nat.toDigits 10 idx)) = none :=
    afterLastDash_none fun c hc => (digit_ne (hdigits c hc)).1
  have htail : afterLastDash (requestId idx).toList = some (pad6 (Nat.toDigits 10 idx)) := by
    rw [requestId, String.toList_ofList]
    exact afterLastDash_cons (afterLastDash_cons (afterLastDash_cons (afterLastDash_dash hnone)))
  have hne : pad6 (Nat.toDigits 10 idx) ≠ [] :=
    List.append_ne_nil_of_right_ne_nil _ Nat.toDigits_ne_nil
  have hvalue := pad6_value idx
  rw [idxFromRequestId, htail]
  dsimp only
  rw [stoi_digits hne hdigits (by rw [hvalue]; exact h), hvalue]
  rfl

end

/-! ## service times -/

inductive ServicePattern where
  | fixed
  | bimodal
  deriving DecidableEq

/-- the service options, in milliseconds -/
structure ServiceOptions where
  pattern : ServicePattern := .fixed
  serviceMs : Float
  serviceLow : Float := 1
  serviceHigh : Float := 20
  servicePHigh : Float := 0.1

/-- the bucket of a draw in `[0, 1)`; the division by a power of two is exact in both languages -/
def ServiceOptions.bucket (o : ServiceOptions) (z : Nat) : Float :=
  if Float.ofNat z / 18446744073709551616 < o.servicePHigh then o.serviceHigh else o.serviceLow

namespace Native

/-- `uint64_t` wraps around -/
def mix (seed : Int64) (idx : Nat) : UInt64 :=
  let z := seed.toUInt64 + UInt64.ofNat idx * 0x9E3779B97F4A7C15
  let z := (z ^^^ (z >>> 30)) * 0xBF58476D1CE4E5B9
  let z := (z ^^^ (z >>> 27)) * 0x94D049BB133111EB
  z ^^^ (z >>> 31)

def serviceFor (o : ServiceOptions) (seed : Int64) (idx : Nat) : Float :=
  match o.pattern with
  | .fixed => o.serviceMs
  | .bimodal => o.bucket (mix seed idx).toNat

end Native

namespace Python

/-- `& _MASK64` of an unbounded integer -/
def mask64 (x : Int) : Nat := (x % 2 ^ 64).toNat

def mix (seed : Int) (idx : Nat) : Nat :=
  let z := mask64 (seed + idx * 0x9E3779B97F4A7C15)
  let z := mask64 ((z ^^^ (z >>> 30)) * 0xBF58476D1CE4E5B9 : Nat)
  let z := mask64 ((z ^^^ (z >>> 27)) * 0x94D049BB133111EB : Nat)
  z ^^^ (z >>> 31)

def serviceFor (o : ServiceOptions) (seed : Int) (idx : Nat) : Float :=
  match o.pattern with
  | .fixed => o.serviceMs
  | .bimodal => o.bucket (mix seed idx)

end Python

/-- the seed as `uint64_t` -/
theorem toNat_seed (seed : Int64) : seed.toUInt64.toNat = Python.mask64 seed.toInt := by
  have hbits : seed.toUInt64.toNat = seed.toBitVec.toNat := rfl
  have hof := congrArg BitVec.toNat (BitVec.ofInt_toInt (x := seed.toBitVec))
  rw [BitVec.toNat_ofInt] at hof
  rw [hbits, ← hof]
  rfl

theorem mask64_nat (n : Nat) : Python.mask64 n = n % 2 ^ 64 := by
  unfold Python.mask64
  omega

theorem mask64_cast (x : Int) : ((Python.mask64 x : Nat) : Int) = x % 2 ^ 64 :=
  Int.toNat_of_nonneg (Int.emod_nonneg x (by decide))

theorem mask64_add (x : Int) (n : Nat) : (Python.mask64 x + n) % 2 ^ 64 = Python.mask64 (x + n) := by
  apply Int.ofNat.inj
  show (((Python.mask64 x + n) % 2 ^ 64 : Nat) : Int) = ((Python.mask64 (x + n) : Nat) : Int)
  rw [mask64_cast, Int.natCast_emod, Int.natCast_add, mask64_cast]
  exact Int.emod_add_emod x (2 ^ 64) n

/-- the first sum, modulo `2 ^ 64` -/
theorem start_eq (seed : Int64) (idx : Nat) :
    (seed.toUInt64 + UInt64.ofNat idx * 0x9E3779B97F4A7C15).toNat
      = Python.mask64 (seed.toInt + idx * 0x9E3779B97F4A7C15) := by
  have hgolden : (0x9E3779B97F4A7C15 : UInt64).toNat = 0x9E3779B97F4A7C15 := by simp
  have hprod : (idx % 2 ^ 64 * 0x9E3779B97F4A7C15) % 2 ^ 64 = idx * 0x9E3779B97F4A7C15 % 2 ^ 64 :=
    Nat.mod_mul_mod idx _ _
  rw [UInt64.toNat_add, UInt64.toNat_mul, toNat_seed, UInt64.toNat_ofNat', hgolden, hprod,
    Nat.add_mod_mod]
  exact mask64_add _ _

/-- one round: a shift, a xor and a product -/
theorem round_eq (z : UInt64) (shift : UInt64) (hs : shift.toNat < 64) (m : UInt64) :
    ((z ^^^ (z >>> shift)) * m).toNat
      = Python.mask64 ((z.toNat ^^^ (z.toNat >>> shift.toNat)) * m.toNat : Nat) := by
  rw [mask64_nat, UInt64.toNat_mul, UInt64.toNat_xor, UInt64.toNat_shiftRight, Nat.mod_eq_of_lt hs]

/-- **The draws of the two languages are equal.** -/
theorem mix_eq (seed : Int64) (idx : Nat) :
    (Native.mix seed idx).toNat = Python.mix seed.toInt idx := by
  have h0 := start_eq seed idx
  unfold Native.mix Python.mix
  dsimp only
  rw [UInt64.toNat_xor, UInt64.toNat_shiftRight, round_eq _ 27 (by decide), round_eq _ 30 (by decide),
    h0]
  rfl

theorem serviceFor_eq (o : ServiceOptions) (seed : Int64) (idx : Nat) :
    Native.serviceFor o seed idx = Python.serviceFor o seed.toInt idx := by
  unfold Native.serviceFor Python.serviceFor
  rw [mix_eq]

end Bench
end RayX
