import Mathlib.Data.List.TakeWhile

/-!
# JSON texts

A decoder of JSON texts that is strict about control characters in strings and keeps the text of a number,
and the text of an object with members on one line.

* `JsonVal`                      values; a string is a list of code points, a key may come twice;
* `Json.scanString`, `Json.scanNumber`, `Json.value`   the scanners of strings, numbers and values;
* `Json.loads`                   the decoder of a whole text; `JsonStop.depth` is a text nested deeper than
                                 the fuel, which is more than its length;
* `Json.objText`                 `{"key": text, …}`;
* `Json.Reads`, `Json.Rejects`   a text that is one value wherever a member ends, and one that is none;
* `loads_objText`                **an object is read member by member**, and rejected when one member is.
-/

namespace Sys

inductive JsonVal where
  | null
  | bool (b : Bool)
  | num (text : List Char)
  | str (s : List Nat)
  | arr (vs : List JsonVal)
  | obj (ms : List (List Nat × JsonVal))

inductive JsonStop where
  | decode
  | depth
  deriving DecidableEq, Repr

namespace Json

def isWs (c : Char) : Bool := c = ' ' ∨ c = '\t' ∨ c = '\n' ∨ c = '\r'

def skipWs (t : List Char) : List Char := t.dropWhile isWs

/-! ## strings -/

def hexDigit (c : Char) : Option Nat :=
  if c.isDigit then some (c.toNat - 48)
  else if 'a' ≤ c ∧ c ≤ 'f' then some (c.toNat - 87)
  else if 'A' ≤ c ∧ c ≤ 'F' then some (c.toNat - 55)
  else none

def hex4 (a b c d : Char) : Option Nat := do
  let a ← hexDigit a
  let b ← hexDigit b
  let c ← hexDigit c
  let d ← hexDigit d
  return ((a * 16 + b) * 16 + c) * 16 + d

/-- the character of a short escape -/
def unescape (c : Char) : Option Nat :=
  if c = '"' ∨ c = '\\' ∨ c = '/' then some c.toNat
  else if c = 'b' then some 8
  else if c = 'f' then some 12
  else if c = 'n' then some 10
  else if c = 'r' then some 13
  else if c = 't' then some 9
  else none

/-- the rest of a string after its opening quote, a long escape as a code unit of UTF-16 -/
def scanUnits : List Char → Except JsonStop (List Nat × List Char)
  | [] => .error .decode
  | c :: t =>
    if c = '"' then .ok ([], t)
    else if c = '\\' then
      match t with
      | [] => .error .decode
      | e :: t =>
        if e = 'u' then
          match t with
          | a :: b :: c :: d :: t =>
            match hex4 a b c d with
            | none => .error .decode
            | some u => (scanUnits t).map fun p => (u :: p.1, p.2)
          | _ => .error .decode
        else
          match unescape e with
          | none => .error .decode
          | some u => (scanUnits t).map fun p => (u :: p.1, p.2)
    else if c.toNat < 32 then .error .decode
    else (scanUnits t).map fun p => (c.toNat :: p.1, p.2)

/-- pairs of surrogates as one code point -/
def joinSurrogates : List Nat → List Nat
  | h :: l :: us =>
    if 0xD800 ≤ h ∧ h < 0xDC00 ∧ 0xDC00 ≤ l ∧ l < 0xE000 then
      (0x10000 + (h - 0xD800) * 1024 + (l - 0xDC00)) :: joinSurrogates us
    else h :: joinSurrogates (l :: us)
  | us => us

def scanString (t : List Char) : Except JsonStop (List Nat × List Char) :=
  (scanUnits t).map fun p => (joinSurrogates p.1, p.2)

/-! ## numbers -/

def scanSign : List Char → List Char
  | c :: _ => if c = '-' then ['-'] else []
  | [] => []

/-- `0` or digits that do not start with one -/
def scanWhole : List Char → List Char
  | c :: t => if c = '0' then ['0'] else (c :: t).takeWhile Char.isDigit
  | [] => []

/-- a point and digits, if there are any -/
def scanFrac : List Char → List Char
  | c :: t => if c = '.' ∧ t.takeWhile Char.isDigit ≠ [] then c :: t.takeWhile Char.isDigit else []
  | [] => []

def scanExpSign : List Char → List Char
  | c :: _ => if c = '+' ∨ c = '-' then [c] else []
  | [] => []

/-- an `e` and digits with or without a sign, if there are any -/
def scanExp : List Char → List Char
  | c :: t =>
    let digits := (t.drop (scanExpSign t).length).takeWhile Char.isDigit
    if (c = 'e' ∨ c = 'E') ∧ digits ≠ [] then c :: (scanExpSign t ++ digits) else []
  | [] => []

/-- the text of a number and what follows it -/
def scanNumber (t : List Char) : Except JsonStop (JsonVal × List Char) :=
  let sign := scanSign t
  let t := t.drop sign.length
  let whole := scanWhole t
  let t := t.drop whole.length
  if whole = [] then .error .decode
  else
    let frac := scanFrac t
    let t := t.drop frac.length
    let exp := scanExp t
    .ok (.num (sign ++ whole ++ frac ++ exp), t.drop exp.length)

/-! ## values -/

/-- the words that are values, and what follows -/
def scanWord (t : List Char) : Option (JsonVal × List Char) :=
  let word (w : String) (v : JsonVal) (otherwise : Option (JsonVal × List Char)) :=
    if w.toList.isPrefixOf t then some (v, t.drop w.length) else otherwise
  word "null" .null (word "true" (.bool true) (word "false" (.bool false)
    (word "NaN" (.num "NaN".toList) (word "Infinity" (.num "Infinity".toList)
      (word "-Infinity" (.num "-Infinity".toList) none)))))

mutual

/-- the value at the start of a text, and what follows -/
def value : Nat → List Char → Except JsonStop (JsonVal × List Char)
  | 0, _ => .error .depth
  | _ + 1, [] => .error .decode
  | k + 1, c :: t =>
    if c = '"' then (scanString t).map fun p => (.str p.1, p.2)
    else if c = '{' then
      match skipWs t with
      | [] => .error .decode
      | d :: t => if d = '}' then .ok (.obj [], t) else (members k (d :: t)).map fun p => (.obj p.1, p.2)
    else if c = '[' then
      match skipWs t with
      | [] => .error .decode
      | d :: t => if d = ']' then .ok (.arr [], t) else (elements k (d :: t)).map fun p => (.arr p.1, p.2)
    else
      match scanWord (c :: t) with
      | some p => .ok p
      | none => scanNumber (c :: t)

/-- the members of an object from a key on -/
def members : Nat → List Char → Except JsonStop (List (List Nat × JsonVal) × List Char)
  | 0, _ => .error .depth
  | _ + 1, [] => .error .decode
  | k + 1, c :: t =>
    if c = '"' then do
      let (key, t) ← scanString t
      match skipWs t with
      | [] => .error .decode
      | c :: t =>
        if c = ':' then do
          let (v, t) ← value k (skipWs t)
          match skipWs t with
          | [] => .error .decode
          | c :: t =>
            if c = '}' then .ok ([(key, v)], t)
            else if c = ',' then (members k (skipWs t)).map fun p => ((key, v) :: p.1, p.2)
            else .error .decode
        else .error .decode
    else .error .decode

/-- the elements of an array from one on -/
def elements : Nat → List Char → Except JsonStop (List JsonVal × List Char)
  | 0, _ => .error .depth
  | k + 1, t => do
    let (v, t) ← value k t
    match skipWs t with
    | [] => .error .decode
    | c :: t =>
      if c = ']' then .ok ([v], t)
      else if c = ',' then (elements k (skipWs t)).map fun p => (v :: p.1, p.2)
      else .error .decode

end

/-- a byte order mark is refused, and so is text after the value -/
def loads (t : List Char) : Except JsonStop JsonVal :=
  if t.head? = some '\uFEFF' then .error .decode
  else do
    let (v, rest) ← value (t.length + 1) (skipWs t)
    if skipWs rest = [] then .ok v else .error .decode

/-! ## objects on one line -/

def memberText (m : List Char × List Char) : List Char := '"' :: (m.1 ++ '"' :: ':' :: ' ' :: m.2)

def membersText : List (List Char × List Char) → List Char
  | [] => []
  | [m] => memberText m
  | m :: ms => memberText m ++ ',' :: ' ' :: membersText ms

/-- `{"key": text, …}` -/
def objText (ms : List (List Char × List Char)) : List Char := '{' :: (membersText ms ++ ['}'])

section
variable {c : Char} {t rest : List Char} {k : Nat}

/-! ## printed numbers -/

def digit (d : Fin 10) : Char := d.val.digitChar

/-- a number as it is printed: an exponent is negative or not and has a digit -/
structure NumText where
  neg : Bool
  whole : Nat
  frac : List (Fin 10)
  exp : Option (Bool × Fin 10 × List (Fin 10))

namespace NumText

def signText (n : NumText) : List Char := if n.neg then ['-'] else []

def fracText (n : NumText) : List Char := if n.frac = [] then [] else '.' :: n.frac.map digit

def expText (n : NumText) : List Char :=
  match n.exp with
  | none => []
  | some (neg, d, ds) => 'e' :: (if neg then '-' else '+') :: (d :: ds).map digit

def text (n : NumText) : List Char :=
  n.signText ++ (Nat.toDigits 10 n.whole ++ (n.fracText ++ n.expText))

/-- an integer -/
def ofInt (z : Int) : NumText := ⟨decide (z < 0), z.natAbs, [], none⟩

end NumText

/-! ## reading strings -/

/-- a character that stands for itself in a string -/
def isPlain (c : Char) : Bool := c ≠ '"' ∧ c ≠ '\\' ∧ 32 ≤ c.toNat

theorem scanUnits_plain (h : isPlain c = true) :
    scanUnits (c :: t) = (scanUnits t).map fun p => (c.toNat :: p.1, p.2) := by
  obtain ⟨h1, h2, h3⟩ := of_decide_eq_true h
  rw [scanUnits.eq_def]
  dsimp only
  rw [if_neg h1, if_neg h2, if_neg (by omega)]

theorem scanUnits_quote : scanUnits ('"' :: t) = .ok ([], t) := by
  rw [scanUnits.eq_def]
  rfl

theorem scanUnits_control (h : c.toNat < 32) : scanUnits (c :: t) = .error .decode := by
  have hq : c ≠ '"' := by
    rintro rfl
    exact absurd h (by decide)
  have hb : c ≠ '\\' := by
    rintro rfl
    exact absurd h (by decide)
  rw [scanUnits.eq_def]
  dsimp only
  rw [if_neg hq, if_neg hb, if_pos h]

theorem scanUnits_escape {u : Nat} (h : unescape c = some u) :
    scanUnits ('\\' :: c :: t) = (scanUnits t).map fun p => (u :: p.1, p.2) := by
  have hu : c ≠ 'u' := by
    rintro rfl
    exact Option.some_ne_none u h.symm
  rw [scanUnits.eq_def]
  dsimp only
  rw [if_neg (by decide), if_pos rfl, if_neg hu, h]

/-- no character is a surrogate -/
theorem joinSurrogates_chars (s : List Char) : joinSurrogates (s.map Char.toNat) = s.map Char.toNat := by
  induction s with
  | nil => rfl
  | cons c s ih =>
    cases s with
    | nil => rfl
    | cons d s =>
      have hc : c.toNat < 0xD800 ∨ 0xDFFF < c.toNat := c.valid.imp id And.left
      show joinSurrogates (c.toNat :: d.toNat :: s.map Char.toNat) = _
      rw [joinSurrogates, if_neg (by omega)]
      exact congrArg (c.toNat :: ·) ih

theorem scanString_of_units {s : List Char} (h : scanUnits t = .ok (s.map Char.toNat, rest)) :
    scanString t = .ok (s.map Char.toNat, rest) := by
  rw [scanString, h]
  show Except.ok (joinSurrogates (s.map Char.toNat), rest) = _
  rw [joinSurrogates_chars]

theorem scanString_plain {s : List Char} (h : ∀ c ∈ s, isPlain c = true) :
    scanString (s ++ '"' :: rest) = .ok (s.map Char.toNat, rest) := by
  refine scanString_of_units ?_
  induction s with
  | nil => exact scanUnits_quote
  | cons c s ih =>
    rw [List.cons_append, scanUnits_plain (h c List.mem_cons_self),
      ih fun d hd => h d (List.mem_cons_of_mem c hd)]
    rfl

/-! ## reading objects -/

/-- what follows the value of a member -/
def Follow (rest : List Char) : Prop := ∃ c t, rest = c :: t ∧ (c = ',' ∨ c = '}')

/-- a text that starts without white space -/
def Starts (text : List Char) : Prop := ∃ c t, text = c :: t ∧ isWs c = false

/-- wherever a member ends, `text` is the value `v` -/
structure Reads (text : List Char) (v : JsonVal) : Prop where
  start : Starts text
  reads : ∀ k rest, Follow rest → value (k + 1) (text ++ rest) = .ok (v, rest)

/-- wherever a member ends, `text` is no value -/
structure Rejects (text : List Char) : Prop where
  start : Starts text
  rejects : ∀ k rest, Follow rest → value (k + 1) (text ++ rest) = .error .decode

theorem reads_string {body : List Char} {s : List Nat}
    (h : ∀ rest, scanString (body ++ '"' :: rest) = .ok (s, rest)) :
    Reads ('"' :: (body ++ ['"'])) (.str s) where
  start := ⟨'"', _, rfl, by decide⟩
  reads k rest _ := by
    rw [List.cons_append, List.append_assoc, value, if_pos rfl]
    show (scanString (body ++ '"' :: rest)).map _ = _
    rw [h]
    rfl

theorem rejects_string {body : List Char}
    (h : ∀ rest, scanString (body ++ '"' :: rest) = .error .decode) :
    Rejects ('"' :: (body ++ ['"'])) where
  start := ⟨'"', _, rfl, by decide⟩
  rejects k rest _ := by
    rw [List.cons_append, List.append_assoc, value, if_pos rfl]
    show (scanString (body ++ '"' :: rest)).map _ = _
    rw [h]
    rfl

theorem reads_null : Reads "null".toList .null := ⟨⟨'n', _, rfl, by decide⟩, fun _ _ _ => rfl⟩

/-! ## reading numbers -/

/-- what follows digits -/
def Stops (t : List Char) : Prop := ∀ c t', t = c :: t' → c.isDigit = false

theorem takeWhile_digits {ds : List Char} (h : ∀ c ∈ ds, c.isDigit = true) (hs : Stops t) :
    (ds ++ t).takeWhile Char.isDigit = ds := by
  have ht : t.takeWhile Char.isDigit = [] := by
    cases t with
    | nil => rfl
    | cons c t => rw [List.takeWhile_cons, hs c t rfl, if_neg Bool.false_ne_true]
  rw [List.takeWhile_append_of_pos h, ht, List.append_nil]

theorem digit_isDigit (d : Fin 10) : (digit d).isDigit = true := by
  revert d
  decide

theorem map_digit {ds : List (Fin 10)} : ∀ c ∈ ds.map digit, c.isDigit = true := by
  intro c hc
  obtain ⟨d, _, rfl⟩ := List.mem_map.mp hc
  exact digit_isDigit d

theorem toDigits_isDigit (n : Nat) : ∀ c ∈ Nat.toDigits 10 n, c.isDigit = true :=
  fun _ hc => Nat.isDigit_of_mem_toDigits (by decide) (by decide) hc

/-- a positive number does not start with `0` -/
theorem toDigits_head {n : Nat} (hn : 0 < n) : ∃ c t, Nat.toDigits 10 n = c :: t ∧ c ≠ '0' := by
  induction n using Nat.strongRecOn with
  | ind n ih =>
    by_cases h : n < 10
    · refine ⟨n.digitChar, [], Nat.toDigits_of_lt_base h, ?_⟩
      have hchars : ∀ m : Fin 10, 0 < m.val → m.val.digitChar ≠ '0' := by decide
      exact hchars ⟨n, h⟩ hn
    · obtain ⟨c, t, ht, hc⟩ := ih (n / 10) (by omega) (by omega)
      refine ⟨c, t ++ Nat.toDigits 10 (n % 10), ?_, hc⟩
      rw [Nat.toDigits_eq_if (by decide), if_neg h, ht, List.cons_append,
        Nat.toDigits_of_lt_base (Nat.mod_lt n (by decide))]

theorem scanWhole_toDigits (n : Nat) (hs : Stops t) :
    scanWhole (Nat.toDigits 10 n ++ t) = Nat.toDigits 10 n := by
  rcases Nat.eq_zero_or_pos n with rfl | hn
  · rw [Nat.toDigits_zero]
    rfl
  · obtain ⟨c, ds, hds, hc⟩ := toDigits_head hn
    have htake := takeWhile_digits (toDigits_isDigit n) hs
    rw [hds, List.cons_append] at htake ⊢
    rw [scanWhole, if_neg hc, htake]

theorem Follow.stops (h : Follow rest) : Stops rest := by
  rintro c t rfl
  obtain ⟨c', t', heq, hc⟩ := h
  rw [(List.cons.inj heq).1]
  rcases hc with rfl | rfl <;> decide

theorem scanFrac_follow (h : Follow rest) : scanFrac rest = [] := by
  obtain ⟨c, t, rfl, hc⟩ := h
  refine if_neg fun h => ?_
  rcases hc with rfl | rfl
  · exact absurd h.1 (by decide)
  · exact absurd h.1 (by decide)

theorem scanExp_follow (h : Follow rest) : scanExp rest = [] := by
  obtain ⟨c, t, rfl, hc⟩ := h
  refine if_neg fun h => ?_
  rcases hc with rfl | rfl
  · exact absurd h.1 (by decide)
  · exact absurd h.1 (by decide)

theorem scanExp_digits {ds : List Char} (hc : c = '+' ∨ c = '-') (hd : ∀ d ∈ ds, d.isDigit = true)
    (hne : ds ≠ []) (hs : Stops t) : scanExp ('e' :: c :: (ds ++ t)) = 'e' :: c :: ds := by
  have hsign : scanExpSign (c :: (ds ++ t)) = [c] := if_pos hc
  have hdigits := takeWhile_digits hd hs
  rw [scanExp, hsign]
  show (if ('e' = 'e' ∨ 'e' = 'E') ∧ (ds ++ t).takeWhile Char.isDigit ≠ [] then
    'e' :: c :: (ds ++ t).takeWhile Char.isDigit else []) = _
  rw [hdigits, if_pos ⟨Or.inl rfl, hne⟩]

namespace NumText
variable {n : NumText}

theorem scanExp_text (h : Follow rest) : scanExp (n.expText ++ rest) = n.expText := by
  unfold expText
  cases n.exp with
  | none => exact scanExp_follow h
  | some e =>
    obtain ⟨neg, d, ds⟩ := e
    refine scanExp_digits ?_ map_digit (List.cons_ne_nil _ _) h.stops
    cases neg with
    | true => exact Or.inr rfl
    | false => exact Or.inl rfl

theorem expText_stops (h : Follow rest) : Stops (n.expText ++ rest) := by
  unfold expText
  cases n.exp with
  | none => exact h.stops
  | some e =>
    intro c t hc
    rw [← (List.cons.inj hc).1]
    decide

theorem scanFrac_text (h : Follow rest) :
    scanFrac (n.fracText ++ (n.expText ++ rest)) = n.fracText := by
  unfold fracText
  by_cases hf : n.frac = []
  · rw [if_pos hf, List.nil_append]
    unfold expText
    cases n.exp with
    | none => exact scanFrac_follow h
    | some e =>
      rw [List.cons_append, scanFrac]
      exact if_neg fun h => absurd h.1 (by decide)
  · have hdigits : (n.frac.map digit ++ (n.expText ++ rest)).takeWhile Char.isDigit = n.frac.map digit :=
      takeWhile_digits map_digit (expText_stops h)
    have hne : n.frac.map digit ≠ [] := fun h => hf (List.map_eq_nil_iff.mp h)
    rw [if_neg hf, List.cons_append, scanFrac, hdigits, if_pos ⟨rfl, hne⟩]

theorem fracText_stops (h : Follow rest) : Stops (n.fracText ++ (n.expText ++ rest)) := by
  unfold fracText
  by_cases hf : n.frac = []
  · rw [if_pos hf]
    exact expText_stops h
  · rw [if_neg hf]
    intro c t hc
    rw [← (List.cons.inj hc).1]
    decide

/-- the digits before the point, and the first of them -/
theorem whole_cons (n : NumText) : ∃ c t, Nat.toDigits 10 n.whole = c :: t ∧ c.isDigit = true := by
  obtain ⟨c, t, ht⟩ := List.exists_cons_of_ne_nil (Nat.toDigits_ne_nil (n := n.whole) (b := 10))
  exact ⟨c, t, ht, toDigits_isDigit n.whole c (ht ▸ List.mem_cons_self)⟩

theorem text_chars {c : Char} (hc : c ∈ n.text) :
    c.isDigit = true ∨ c ∈ ['-', '+', '.', 'e'] := by
  unfold text at hc
  rcases List.mem_append.mp hc with hc | hc
  · unfold signText at hc
    cases hn : n.neg with
    | true =>
      rw [hn] at hc
      rw [List.mem_singleton.mp hc]
      exact Or.inr (by decide)
    | false =>
      rw [hn] at hc
      cases hc
  rcases List.mem_append.mp hc with hc | hc
  · exact Or.inl (toDigits_isDigit n.whole c hc)
  rcases List.mem_append.mp hc with hc | hc
  · unfold fracText at hc
    by_cases hf : n.frac = []
    · rw [if_pos hf] at hc
      cases hc
    · rw [if_neg hf] at hc
      rcases List.mem_cons.mp hc with rfl | hc
      · exact Or.inr (by decide)
      · exact Or.inl (map_digit c hc)
  · unfold expText at hc
    cases he : n.exp with
    | none =>
      rw [he] at hc
      cases hc
    | some e =>
      obtain ⟨neg, d, ds⟩ := e
      rw [he] at hc
      rcases List.mem_cons.mp hc with rfl | hc
      · exact Or.inr (by decide)
      rcases List.mem_cons.mp hc with rfl | hc
      · cases neg <;> exact Or.inr (by decide)
      · exact Or.inl (map_digit c hc)

/-- **A printed number is scanned as a whole.** -/
theorem scanNumber_text (h : Follow rest) : scanNumber (n.text ++ rest) = .ok (.num n.text, rest) := by
  obtain ⟨c, t, ht, hc⟩ := n.whole_cons
  have hminus : c ≠ '-' := by
    rintro rfl
    exact absurd hc (by decide)
  have htext : n.text ++ rest
      = n.signText ++ (Nat.toDigits 10 n.whole ++ (n.fracText ++ (n.expText ++ rest))) := by
    simp only [text, List.append_assoc]
  have hsign : scanSign (n.signText ++ (Nat.toDigits 10 n.whole ++ (n.fracText ++ (n.expText ++ rest))))
      = n.signText := by
    unfold signText
    cases n.neg with
    | true => rfl
    | false =>
      rw [ht]
      exact if_neg hminus
  have hne : ¬ Nat.toDigits 10 n.whole = [] := Nat.toDigits_ne_nil
  unfold scanNumber
  dsimp only
  rw [htext, hsign, List.drop_left, scanWhole_toDigits n.whole (fracText_stops h), List.drop_left,
    if_neg hne, scanFrac_text h, List.drop_left, scanExp_text h, List.drop_left, text]
  simp only [List.append_assoc]

/-- the first character of a number, and that no word starts with it -/
theorem text_cons (n : NumText) : ∃ c t, n.text = c :: t ∧ (c.isDigit = true ∨
    c = '-' ∧ ∃ d t', t = d :: t' ∧ d.isDigit = true) := by
  obtain ⟨c, t, ht, hc⟩ := n.whole_cons
  unfold text signText
  rw [ht]
  cases n.neg with
  | true => exact ⟨'-', _, rfl, Or.inr ⟨rfl, c, _, rfl, hc⟩⟩
  | false => exact ⟨c, _, rfl, Or.inl hc⟩

/-- a number starts with a digit or a sign -/
theorem start_ne {c d : Char} {t : List Char}
    (hc : c.isDigit = true ∨ c = '-' ∧ ∃ e t', t = e :: t' ∧ e.isDigit = true)
    (hd : d.isDigit = false) (hminus : d ≠ '-') : c ≠ d := by
  rintro rfl
  rcases hc with hc | ⟨hc, _⟩
  · rw [hd] at hc
    exact Bool.false_ne_true hc
  · exact hminus hc

/-- a number is none of the words, `-Infinity` included -/
theorem scanWord_text (n : NumText) (rest : List Char) : scanWord (n.text ++ rest) = none := by
  obtain ⟨c, t, ht, hc⟩ := n.text_cons
  have hfails : ∀ (w : List Char) (d : Char) (ws : List Char), w = d :: ws →
      d.isDigit = false → d ≠ '-' → ¬ w.isPrefixOf (n.text ++ rest) = true := by
    rintro w d ws rfl hd hminus h
    rw [ht, List.cons_append, List.isPrefixOf_cons_cons, Bool.and_eq_true, beq_iff_eq] at h
    exact start_ne hc hd hminus h.1.symm
  have hinf : ¬ "-Infinity".toList.isPrefixOf (n.text ++ rest) = true := by
    intro h
    have hlit : "-Infinity".toList = '-' :: 'I' :: "nfinity".toList := rfl
    rw [hlit, ht, List.cons_append, List.isPrefixOf_cons_cons, Bool.and_eq_true, beq_iff_eq] at h
    rcases hc with hc | ⟨_, d, t', rfl, hd⟩
    · rw [← h.1] at hc
      exact absurd hc (by decide)
    · have h := h.2
      rw [List.cons_append, List.isPrefixOf_cons_cons, Bool.and_eq_true, beq_iff_eq] at h
      rw [← h.1] at hd
      exact absurd hd (by decide)
  unfold scanWord
  dsimp only
  rw [if_neg (hfails "null".toList 'n' "ull".toList rfl (by decide) (by decide)),
    if_neg (hfails "true".toList 't' "rue".toList rfl (by decide) (by decide)),
    if_neg (hfails "false".toList 'f' "alse".toList rfl (by decide) (by decide)),
    if_neg (hfails "NaN".toList 'N' "aN".toList rfl (by decide) (by decide)),
    if_neg (hfails "Infinity".toList 'I' "nfinity".toList rfl (by decide) (by decide)), if_neg hinf]

end NumText

/-- **A printed number is read as its text.** -/
theorem reads_number (n : NumText) : Reads n.text (.num n.text) := by
  obtain ⟨c, t, ht, hc⟩ := n.text_cons
  refine ⟨⟨c, t, ht, decide_eq_false ?_⟩, fun k rest hrest => ?_⟩
  · rintro (h | h | h | h)
    · exact NumText.start_ne (d := ' ') hc (by decide) (by decide) h
    · exact NumText.start_ne (d := '\t') hc (by decide) (by decide) h
    · exact NumText.start_ne (d := '\n') hc (by decide) (by decide) h
    · exact NumText.start_ne (d := '\r') hc (by decide) (by decide) h
  · have hword := n.scanWord_text rest
    have hnum := n.scanNumber_text hrest
    rw [ht, List.cons_append] at hword hnum ⊢
    rw [value, if_neg (NumText.start_ne (d := '"') hc (by decide) (by decide)),
      if_neg (NumText.start_ne (d := '{') hc (by decide) (by decide)),
      if_neg (NumText.start_ne (d := '[') hc (by decide) (by decide)), hword]
    exact hnum

/-- a member whose text is `value`, or no value -/
structure Field where
  key : List Char
  text : List Char
  value : JsonVal
  ok : Bool

structure Field.Right (f : Field) : Prop where
  key : ∀ c ∈ f.key, isPlain c = true
  reads : f.ok = true → Reads f.text f.value
  rejects : f.ok = false → Rejects f.text

def Field.member (f : Field) : List Nat × JsonVal := (f.key.map Char.toNat, f.value)

/-- the values of the members, unless one has none -/
def readings : List Field → Except JsonStop (List (List Nat × JsonVal))
  | [] => .ok []
  | f :: fs => if f.ok then (readings fs).map fun ms => f.member :: ms else .error .decode

theorem readings_cons (f : Field) (fs : List Field) : readings (f :: fs) =
    if f.ok then (readings fs).map fun ms => f.member :: ms else .error .decode := rfl

theorem readings_ok {fs : List Field} (h : ∀ f ∈ fs, f.ok = true) :
    readings fs = .ok (fs.map Field.member) := by
  induction fs with
  | nil => rfl
  | cons f fs ih =>
    rw [readings_cons, if_pos (h f List.mem_cons_self), ih fun g hg => h g (List.mem_cons_of_mem f hg)]
    rfl

theorem readings_error {f : Field} {fs : List Field} (hf : f ∈ fs) (h : f.ok = false) :
    readings fs = .error .decode := by
  induction fs with
  | nil => cases hf
  | cons g fs ih =>
    rw [readings_cons]
    cases hg : g.ok with
    | false => rfl
    | true =>
      have hne : f ≠ g := by
        rintro rfl
        rw [hg] at h
        cases h
      rw [if_pos rfl, ih (List.mem_of_ne_of_mem hne hf)]
      rfl

def fieldTexts (fs : List Field) : List (List Char × List Char) := fs.map fun f => (f.key, f.text)

theorem skipWs_start (h : Starts t) : skipWs (t ++ rest) = t ++ rest := by
  obtain ⟨c, t, rfl, hc⟩ := h
  rw [skipWs, List.cons_append, List.dropWhile_cons, hc]
  rfl

theorem skipWs_cons (h : isWs c = false) : skipWs (c :: t) = c :: t := by
  rw [skipWs, List.dropWhile_cons, h]
  rfl

theorem skipWs_space : skipWs (' ' :: t) = skipWs t := rfl

theorem ok_bind {ε α β : Type} (a : α) (f : α → Except ε β) :
    ((.ok a : Except ε α) >>= f) = f a := rfl

/-- one member, up to what follows it -/
theorem members_one {f : Field} (hf : f.Right) (hc : c = ',' ∨ c = '}') :
    members (k + 2) (memberText (f.key, f.text) ++ c :: t) =
      if f.ok then
        if c = '}' then .ok ([f.member], t)
        else (members (k + 1) (skipWs t)).map fun p => (f.member :: p.1, p.2)
      else .error .decode := by
  have hstart : Starts f.text := by
    cases hr : f.ok with
    | false => exact (hf.rejects hr).start
    | true => exact (hf.reads hr).start
  have hws : isWs c = false := by
    rcases hc with rfl | rfl <;> decide
  have htext : memberText (f.key, f.text) ++ c :: t
      = '"' :: (f.key ++ '"' :: ':' :: ' ' :: (f.text ++ c :: t)) := by
    simp only [memberText, List.cons_append, List.append_assoc]
  have hfollow : Follow (c :: t) := ⟨c, t, rfl, hc⟩
  rw [htext, members, if_pos rfl, scanString_plain hf.key, ok_bind]
  dsimp only
  rw [skipWs_cons (by decide)]
  dsimp only
  rw [if_pos rfl, skipWs_space, skipWs_start hstart]
  cases hr : f.ok with
  | false =>
    rw [(hf.rejects hr).rejects k _ hfollow]
    rfl
  | true =>
    rw [(hf.reads hr).reads k _ hfollow, ok_bind]
    dsimp only
    rw [skipWs_cons hws]
    dsimp only
    rcases hc with rfl | rfl
    · rfl
    · rfl

/-- **The members of an object** are read one by one up to the first that is rejected. -/
theorem members_fields {f : Field} {fs : List Field} (h : ∀ g ∈ f :: fs, g.Right) (k : Nat) :
    members (fs.length + 2 + k) (membersText (fieldTexts (f :: fs)) ++ '}' :: rest)
      = (readings (f :: fs)).map fun ms => (ms, rest) := by
  induction fs generalizing f with
  | nil =>
    have hf := h f List.mem_cons_self
    have hk : ([] : List Field).length + 2 + k = k + 2 := by
      rw [List.length_nil]
      omega
    rw [hk]
    show members (k + 2) (memberText (f.key, f.text) ++ '}' :: rest) = _
    rw [members_one hf (Or.inr rfl), readings_cons]
    cases f.ok <;> rfl
  | cons g fs ih =>
    have hf := h f List.mem_cons_self
    have hk : (g :: fs).length + 2 + k = fs.length + 1 + k + 2 := by
      rw [List.length_cons]
      omega
    have htext : membersText (fieldTexts (f :: g :: fs)) ++ '}' :: rest = memberText (f.key, f.text)
        ++ ',' :: ' ' :: (membersText (fieldTexts (g :: fs)) ++ '}' :: rest) := by
      show (memberText (f.key, f.text) ++ ',' :: ' ' :: membersText (fieldTexts (g :: fs))) ++ '}' :: rest = _
      rw [List.append_assoc, List.cons_append, List.cons_append]
    have hquote : Starts (membersText (fieldTexts (g :: fs))) := by
      cases fs with
      | nil => exact ⟨'"', _, rfl, by decide⟩
      | cons g' fs => exact ⟨'"', _, rfl, by decide⟩
    have hrest := ih (fun g' hg => h g' (List.mem_cons_of_mem f hg))
    have hk' : fs.length + 1 + k + 1 = fs.length + 2 + k := by omega
    rw [hk, htext, members_one hf (Or.inl rfl), readings_cons]
    cases f.ok with
    | false => rfl
    | true =>
      rw [if_pos rfl, if_pos rfl, if_neg (by decide), skipWs_space, skipWs_start hquote, hk', hrest]
      cases readings (g :: fs) <;> rfl

theorem membersText_length (ms : List (List Char × List Char)) :
    ms.length ≤ (membersText ms).length := by
  induction ms with
  | nil => exact Nat.zero_le _
  | cons m ms ih =>
    cases ms with
    | nil => exact Nat.succ_le_succ (Nat.zero_le _)
    | cons m' ms =>
      show _ ≤ (memberText m ++ ',' :: ' ' :: membersText (m' :: ms)).length
      rw [List.length_append, List.length_cons (a := m), List.length_cons (a := ','),
        List.length_cons (a := ' ')]
      omega

/-- **An object on one line** is read member by member, and rejected when one member is. -/
theorem loads_objText {f : Field} {fs : List Field} (h : ∀ g ∈ f :: fs, g.Right) :
    loads (objText (fieldTexts (f :: fs))) = (readings (f :: fs)).map JsonVal.obj := by
  have hbom : ¬ (objText (fieldTexts (f :: fs))).head? = some '\uFEFF' := by
    intro h
    exact absurd (Option.some.inj h) (by decide)
  have hlen : (objText (fieldTexts (f :: fs))).length + 1
      = (fs.length + 2 + ((membersText (fieldTexts (f :: fs))).length - fs.length)) + 1 := by
    have := membersText_length (fieldTexts (f :: fs))
    rw [fieldTexts, List.length_map, List.length_cons] at this
    rw [objText, List.length_cons, List.length_append, List.length_singleton, fieldTexts]
    omega
  have hws : skipWs (objText (fieldTexts (f :: fs))) = objText (fieldTexts (f :: fs)) :=
    skipWs_cons (by decide)
  have hstart : ∃ t, membersText (fieldTexts (f :: fs)) ++ ['}'] = '"' :: t := by
    cases fs with
    | nil => exact ⟨_, rfl⟩
    | cons g fs => exact ⟨_, rfl⟩
  have hvalue : ∀ k, value (fs.length + 2 + k + 1) (objText (fieldTexts (f :: fs)))
      = (readings (f :: fs)).map fun ms => (.obj ms, []) := by
    intro k
    have hmembers : members (fs.length + 2 + k) (membersText (fieldTexts (f :: fs)) ++ ['}']) =
        (readings (f :: fs)).map fun ms => (ms, []) := members_fields h k
    obtain ⟨t, ht⟩ := hstart
    have hquote : skipWs ('"' :: t) = '"' :: t := skipWs_cons (by decide)
    rw [ht] at hmembers
    rw [objText, value, if_neg (by decide), if_pos rfl, ht, hquote]
    dsimp only
    rw [if_neg (by decide), hmembers]
    cases readings (f :: fs) <;> rfl
  rw [loads, if_neg hbom, hlen, hws, hvalue]
  cases readings (f :: fs) <;> rfl

end

end Json

end Sys
