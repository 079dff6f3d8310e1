import RayX.Lib.Json
import RayX.Lib.Table
import Mathlib.Algebra.Group.Nat.Defs
import Mathlib.Data.List.Induction

/-!
# The roles file

The controller writes the locality of each role with `json.dump`; the root reads the file with a scan of
its own.  The bytes of a file are characters.

* `writeRoles`                the text of a map;
* `nextNumber`, `scan`, `readRoles`   the scan, with a bound on its turns; an error is never caught;
* `EntryText`, `Reaches`      the entries that the scan takes, and the numbers that it comes to;
* `scan_total`                the scan ends, and with an error exactly if it comes to a number of 65 bits;
* `read_roles_iff`            **the reader gives the map back**, and survives a file without such numbers.
-/

namespace RayX
open Sys

namespace Supervision

/-! ## the writer -/

/-- ASCII letters, digits and the underscore -/
def isNameChar (c : Char) : Bool := c.isAlphanum || c == '_'

structure RoleMap where
  entries : List (List Char × UInt32)
  distinct : (entries.map Prod.fst).Nodup
  named : ∀ e ∈ entries, ∀ c ∈ e.1, isNameChar c = true
  nonempty : entries ≠ []

/-- `json.dump(roles, f)` -/
def rolesText (entries : List (List Char × UInt32)) : List Char :=
  Json.objText (entries.map fun e => (e.1, Nat.toDigits 10 e.2.toNat))

def writeRoles (roles : RoleMap) : List Char := rolesText roles.entries

/-! ## the reader -/

abbrev RoleTable := List (List Char × UInt32)

/-- `out[key] = v` -/
def assign (out : RoleTable) (key : List Char) (v : UInt32) : RoleTable :=
  (key, v) :: out.filter fun e => e.1 ≠ key

/-- `find`, as what is passed over and what follows -/
def find (c : Char) : List Char → Option (List Char × List Char)
  | [] => none
  | d :: t => if d = c then some ([], t) else (find c t).map fun p => (d :: p.1, p.2)

/-- the key, the digits and the rest; `none` where the loop breaks -/
def nextNumber (t : List Char) : Option (List Char × List Char × List Char) :=
  match find '"' t with
  | none => none
  | some (_, t) =>
    match find '"' t with
    | none => none
    | some (key, t) =>
      match find ':' t with
      | none => none
      | some (_, t) =>
        let t := t.dropWhile (· = ' ')
        let digits := t.takeWhile Char.isDigit
        if digits = [] then none else some (key, digits, t.dropWhile Char.isDigit)

inductive StdError where
  | outOfRange
  deriving DecidableEq

/-- `std::stoul` of digits, for an `unsigned long` of 64 bits -/
def stoul (digits : List Char) : Except StdError Nat :=
  if Nat.ofDigitChars 10 digits 0 < 2 ^ 64 then .ok (Nat.ofDigitChars 10 digits 0)
  else .error .outOfRange

/-- the loop, `none` where it is still running after `fuel` turns -/
def scan : Nat → List Char → RoleTable → Option (Except StdError RoleTable)
  | 0, _, _ => none
  | fuel + 1, t, out =>
    match nextNumber t with
    | none => some (.ok out)
    | some (key, digits, rest) =>
      match stoul digits with
      | .error e => some (.error e)
      | .ok n => scan fuel rest (assign out key (UInt32.ofNat n))

/-- no file leaves the map -/
def readRoles (fuel : Nat) (file : Option (List Char)) (out : RoleTable) :
    Option (Except StdError (Bool × RoleTable)) :=
  match file with
  | none => some (.ok (false, out))
  | some content => (scan fuel content []).map fun r => r.map fun out => (!out.isEmpty, out)

/-! ## entries -/

/-- an entry as the scan takes it: what stands before the key, and between the key and its number, is
passed over -/
structure EntryText where
  junk : List Char
  key : List Char
  mid : List Char
  spaces : Nat
  digits : List Char
  junk_free : '"' ∉ junk
  key_free : '"' ∉ key
  mid_free : ':' ∉ mid
  digits_all : ∀ c ∈ digits, c.isDigit = true
  digits_ne : digits ≠ []

def EntryText.text (e : EntryText) : List Char :=
  e.junk ++ '"' :: (e.key ++ '"' :: (e.mid ++ ':' :: (List.replicate e.spaces ' ' ++ e.digits)))

def EntryText.value (e : EntryText) : Nat := Nat.ofDigitChars 10 e.digits 0

/-- entries stand at the front of a text, and `n` is the number of the last one -/
inductive Reaches : List Char → Nat → Prop where
  | here {t rest : List Char} (e : EntryText) (ht : t = e.text ++ rest) (hs : Json.Stops rest) :
      Reaches t e.value
  | later {t rest : List Char} {n : Nat} (e : EntryText) (ht : t = e.text ++ rest)
      (hs : Json.Stops rest) (h : Reaches rest n) : Reaches t n

/-- the call returns -/
def Survives (content : List Char) (out : RoleTable) : Prop :=
  ∃ r, ∀ fuel, content.length < fuel → readRoles fuel (some content) out = some (.ok r)

/-! ## the scan -/

theorem find_iff {c : Char} {t a b : List Char} : find c t = some (a, b) ↔ t = a ++ c :: b ∧ c ∉ a := by
  induction t generalizing a with
  | nil =>
    refine ⟨fun h => (by cases h), fun h => ?_⟩
    exact absurd h.1.symm (List.append_ne_nil_of_right_ne_nil a (List.cons_ne_nil c b))
  | cons d t ih =>
    unfold find
    split
    · rename_i hd
      constructor
      · intro h
        cases h
        exact ⟨congrArg (· :: _) hd, List.not_mem_nil⟩
      · rintro ⟨ht, hc⟩
        cases a with
        | nil => exact congrArg (fun t => some ([], t)) (List.cons.inj ht).2
        | cons d' a =>
          have hd' := (List.cons.inj ht).1
          exact absurd (List.mem_cons.mpr (.inl (hd.symm.trans hd'))) hc
    · rename_i hd
      constructor
      · intro h
        obtain ⟨⟨a', b'⟩, hfind, heq⟩ := Option.map_eq_some_iff.mp h
        cases heq
        obtain ⟨ht, hc⟩ := ih.mp hfind
        refine ⟨congrArg (d :: ·) ht, fun hmem => ?_⟩
        exact (List.mem_cons.mp hmem).elim (fun heq => hd heq.symm) hc
      · rintro ⟨ht, hc⟩
        cases a with
        | nil => exact absurd (List.cons.inj ht).1 hd
        | cons d' a =>
          obtain ⟨rfl, htail⟩ := List.cons.inj ht
          have hfind := ih.mpr ⟨htail, fun hmem => hc (List.mem_cons_of_mem d hmem)⟩
          rw [hfind]
          rfl

theorem stops_dropWhile (t : List Char) : Json.Stops (t.dropWhile Char.isDigit) := by
  intro c t' ht
  have hnot := List.head_dropWhile_not Char.isDigit (l := t) (by rw [ht]; exact List.cons_ne_nil c t')
  simpa only [ht, List.head_cons] using hnot

/-- a number after spaces -/
theorem number_iff {t digits rest : List Char} (hne : digits ≠ []) :
    ((t.dropWhile (· = ' ')).takeWhile Char.isDigit = digits ∧
      (t.dropWhile (· = ' ')).dropWhile Char.isDigit = rest) ↔
    (∃ n, t = List.replicate n ' ' ++ (digits ++ rest)) ∧ (∀ c ∈ digits, c.isDigit = true) ∧
      Json.Stops rest := by
  constructor
  · rintro ⟨rfl, rfl⟩
    refine ⟨⟨(t.takeWhile (· = ' ')).length, ?_⟩, fun c hc => List.mem_takeWhile_imp hc,
      stops_dropWhile _⟩
    have hspaces : t.takeWhile (· = ' ') = List.replicate (t.takeWhile (· = ' ')).length ' ' :=
      List.eq_replicate_iff.mpr ⟨rfl, fun c hc => by simpa using List.mem_takeWhile_imp hc⟩
    rw [← hspaces, List.takeWhile_append_dropWhile, List.takeWhile_append_dropWhile]
  · rintro ⟨⟨n, rfl⟩, hall, hs⟩
    obtain ⟨d, ds, rfl⟩ := List.exists_cons_of_ne_nil hne
    have hspace : decide (d = ' ') = false := by
      refine decide_eq_false fun hd => ?_
      have hdigit := hall d List.mem_cons_self
      rw [hd] at hdigit
      cases hdigit
    have hdrop : (List.replicate n ' ' ++ (d :: ds ++ rest)).dropWhile (· = ' ') = d :: ds ++ rest := by
      rw [List.dropWhile_append_of_pos fun c hc => decide_eq_true (List.eq_of_mem_replicate hc),
        List.cons_append, List.dropWhile_cons, hspace]
      rfl
    rw [hdrop]
    refine ⟨Json.takeWhile_digits hall hs, ?_⟩
    have hsplit := List.takeWhile_append_dropWhile (p := Char.isDigit) (l := d :: ds ++ rest)
    rw [Json.takeWhile_digits hall hs] at hsplit
    exact List.append_cancel_left hsplit

/-- **The scan takes the entries of a text**, from the front. -/
theorem nextNumber_iff {t key digits rest : List Char} :
    nextNumber t = some (key, digits, rest) ↔
      ∃ e : EntryText, t = e.text ++ rest ∧ e.key = key ∧ e.digits = digits ∧ Json.Stops rest := by
  unfold nextNumber
  constructor
  · intro h
    split at h
    · cases h
    · rename_i junk t₁ hjunk
      split at h
      · cases h
      · rename_i key' t₂ hkey
        split at h
        · cases h
        · rename_i mid t₃ hmid
          dsimp only at h
          split at h
          · cases h
          · rename_i hne
            obtain ⟨rfl, htail⟩ := Prod.mk.inj (Option.some.inj h)
            obtain ⟨hdigits, hrest⟩ := Prod.mk.inj htail
            rw [hdigits] at hne
            obtain ⟨⟨n, rfl⟩, hall, hs⟩ := (number_iff hne).mp ⟨hdigits, hrest⟩
            obtain ⟨rfl, hmid_free⟩ := find_iff.mp hmid
            obtain ⟨rfl, hkey_free⟩ := find_iff.mp hkey
            obtain ⟨rfl, hjunk_free⟩ := find_iff.mp hjunk
            refine ⟨⟨junk, key', mid, n, digits, hjunk_free, hkey_free, hmid_free, hall, hne⟩, ?_, rfl,
              rfl, hs⟩
            simp only [EntryText.text, List.append_assoc, List.cons_append]
  · rintro ⟨e, rfl, rfl, rfl, hs⟩
    have hjunk : find '"' (e.text ++ rest) = some (e.junk, e.key ++ '"' :: (e.mid ++ ':' ::
        (List.replicate e.spaces ' ' ++ (e.digits ++ rest)))) := by
      refine find_iff.mpr ⟨?_, e.junk_free⟩
      simp only [EntryText.text, List.append_assoc, List.cons_append]
    obtain ⟨hdigits, hrest⟩ := (number_iff e.digits_ne).mpr ⟨⟨e.spaces, rfl⟩, e.digits_all, hs⟩
    rw [hjunk]
    dsimp only
    rw [find_iff.mpr ⟨rfl, e.key_free⟩]
    dsimp only
    rw [find_iff.mpr ⟨rfl, e.mid_free⟩]
    dsimp only
    rw [hdigits, hrest, if_neg e.digits_ne]

theorem EntryText.length_pos (e : EntryText) : 0 < e.text.length := by
  unfold text
  rw [List.length_append, List.length_cons]
  omega

theorem nextNumber_shorter {t key digits rest : List Char}
    (h : nextNumber t = some (key, digits, rest)) : rest.length < t.length := by
  obtain ⟨e, rfl, _⟩ := nextNumber_iff.mp h
  rw [List.length_append]
  exact Nat.lt_add_of_pos_left e.length_pos

/-- an entry at the front of a text is the one that the scan takes -/
theorem nextNumber_entry {t rest : List Char} {e : EntryText} (ht : t = e.text ++ rest)
    (hs : Json.Stops rest) : nextNumber t = some (e.key, e.digits, rest) :=
  nextNumber_iff.mpr ⟨e, ht, rfl, rfl, hs⟩

theorem reaches_none {t : List Char} {n : Nat} (h : nextNumber t = none) : ¬ Reaches t n := by
  intro hr
  cases hr with
  | here e ht hs =>
    rw [nextNumber_entry ht hs] at h
    cases h
  | later e ht hs =>
    rw [nextNumber_entry ht hs] at h
    cases h

theorem reaches_some {t key digits rest : List Char} {n : Nat}
    (h : nextNumber t = some (key, digits, rest)) :
    Reaches t n ↔ n = Nat.ofDigitChars 10 digits 0 ∨ Reaches rest n := by
  constructor
  · intro hr
    cases hr with
    | here e ht hs =>
      cases h.symm.trans (nextNumber_entry ht hs)
      exact .inl rfl
    | later e ht hs hr =>
      cases h.symm.trans (nextNumber_entry ht hs)
      exact .inr hr
  · obtain ⟨e, ht, rfl, rfl, hs⟩ := nextNumber_iff.mp h
    rintro (rfl | hr)
    · exact .here e ht hs
    · exact .later e ht hs hr

/-- one turn -/
theorem scan_succ (fuel : Nat) (t : List Char) (out : RoleTable) : scan (fuel + 1) t out =
    match nextNumber t with
    | none => some (.ok out)
    | some (key, digits, rest) =>
      match stoul digits with
      | .error e => some (.error e)
      | .ok n => scan fuel rest (assign out key (UInt32.ofNat n)) := rfl

theorem scan_value {t key digits rest : List Char} {n fuel : Nat} {out : RoleTable}
    (h : nextNumber t = some (key, digits, rest)) (hn : stoul digits = .ok n) :
    scan (fuel + 1) t out = scan fuel rest (assign out key (UInt32.ofNat n)) := by
  rw [scan_succ, h]
  dsimp only
  rw [hn]

theorem scan_range {t key digits rest : List Char} {fuel : Nat} {out : RoleTable} {e : StdError}
    (h : nextNumber t = some (key, digits, rest)) (he : stoul digits = .error e) :
    scan (fuel + 1) t out = some (.error e) := by
  rw [scan_succ, h]
  dsimp only
  rw [he]

theorem scan_stop {t : List Char} {out : RoleTable} {fuel : Nat} (h : nextNumber t = none)
    (hfuel : t.length < fuel) : scan fuel t out = some (.ok out) := by
  obtain ⟨k, rfl⟩ := Nat.exists_eq_add_of_lt hfuel
  rw [scan_succ, h]

/-- **The scan ends**, with a map exactly if every number that it comes to fits. -/
theorem scan_total (t : List Char) (out : RoleTable) :
    ∃ r, (∀ fuel, t.length < fuel → scan fuel t out = some r) ∧
      ((∃ m, r = .ok m) ↔ ∀ n, Reaches t n → n < 2 ^ 64) := by
  induction hlen : t.length using Nat.strongRecOn generalizing t out with
  | ind len ih =>
    subst hlen
    cases hnext : nextNumber t with
    | none =>
      exact ⟨.ok out, fun fuel => scan_stop hnext, ⟨fun _ n hr => absurd hr (reaches_none hnext),
        fun _ => ⟨out, rfl⟩⟩⟩
    | some p =>
      obtain ⟨key, digits, rest⟩ := p
      have hshort := nextNumber_shorter hnext
      by_cases hn : Nat.ofDigitChars 10 digits 0 < 2 ^ 64
      · obtain ⟨r, hrun, hok⟩ := ih rest.length hshort rest
          (assign out key (UInt32.ofNat (Nat.ofDigitChars 10 digits 0))) rfl
        refine ⟨r, fun fuel hfuel => ?_, hok.trans ?_⟩
        · obtain ⟨k, rfl⟩ := Nat.exists_eq_add_of_lt hfuel
          rw [scan_value hnext (if_pos hn)]
          exact hrun _ (by omega)
        · refine forall_congr' fun n => ?_
          rw [reaches_some hnext]
          constructor
          · rintro h (rfl | hr)
            · exact hn
            · exact h hr
          · exact fun h hr => h (.inr hr)
      · refine ⟨.error .outOfRange, fun fuel hfuel => ?_, ⟨fun ⟨m, hm⟩ => (by cases hm), fun h => ?_⟩⟩
        · obtain ⟨k, rfl⟩ := Nat.exists_eq_add_of_lt hfuel
          exact scan_range hnext (if_neg hn)
        · exact absurd (h _ ((reaches_some hnext).mpr (.inl rfl))) hn

/-! ## the round trip -/

theorem nameChar_ne {c : Char} (h : isNameChar c = true) : c ≠ '"' := by
  rintro rfl
  cases h

/-- a member of the text as an entry -/
def memberEntry (junk : List Char) (hjunk : '"' ∉ junk) (e : List Char × UInt32)
    (he : ∀ c ∈ e.1, isNameChar c = true) : EntryText where
  junk := junk
  key := e.1
  mid := []
  spaces := 1
  digits := Nat.toDigits 10 e.2.toNat
  junk_free := hjunk
  key_free := fun hq => nameChar_ne (he _ hq) rfl
  mid_free := List.not_mem_nil
  digits_all := Json.toDigits_isDigit e.2.toNat
  digits_ne := Nat.toDigits_ne_nil

def membersOf (entries : List (List Char × UInt32)) : List Char :=
  Json.membersText (entries.map fun e => (e.1, Nat.toDigits 10 e.2.toNat))

theorem nextNumber_member {junk rest : List Char} (hjunk : '"' ∉ junk) {e : List Char × UInt32}
    (he : ∀ c ∈ e.1, isNameChar c = true) (hs : Json.Stops rest) :
    nextNumber (junk ++ (Json.memberText (e.1, Nat.toDigits 10 e.2.toNat) ++ rest)) =
      some (e.1, Nat.toDigits 10 e.2.toNat, rest) := by
  refine nextNumber_entry (e := memberEntry junk hjunk e he) ?_ hs
  simp [EntryText.text, memberEntry, Json.memberText]

theorem stoul_toDigits (v : UInt32) :
    stoul (Nat.toDigits 10 v.toNat) = .ok v.toNat := by
  have hv : v.toNat < 2 ^ 64 := Nat.lt_trans v.toNat_lt (by decide)
  rw [stoul, Nat.ofDigitChars_ten_toDigits, if_pos hv]

/-- one turn that stores the value of a member -/
theorem scan_member {junk rest : List Char} (hjunk : '"' ∉ junk) {e : List Char × UInt32}
    (he : ∀ c ∈ e.1, isNameChar c = true) (hs : Json.Stops rest) (out : RoleTable) (fuel : Nat) :
    scan (fuel + 1) (junk ++ (Json.memberText (e.1, Nat.toDigits 10 e.2.toNat) ++ rest)) out =
      scan fuel rest (assign out e.1 e.2) := by
  rw [scan_value (nextNumber_member hjunk he hs) (stoul_toDigits e.2), UInt32.ofNat_toNat]

theorem length_member (junk : List Char) (m : List Char × List Char) (rest : List Char) :
    rest.length < (junk ++ (Json.memberText m ++ rest)).length := by
  unfold Json.memberText
  rw [List.length_append, List.length_append, List.length_cons]
  omega

/-- the scan of members, after what stands before the first key -/
theorem scan_members {entries : List (List Char × UInt32)}
    (hnamed : ∀ e ∈ entries, ∀ c ∈ e.1, isNameChar c = true) (hne : entries ≠ []) {junk : List Char}
    (hjunk : '"' ∉ junk) (out : RoleTable) {fuel : Nat}
    (hfuel : (junk ++ (membersOf entries ++ ['}'])).length < fuel) :
    scan fuel (junk ++ (membersOf entries ++ ['}'])) out =
      some (.ok (entries.foldl (fun out e => assign out e.1 e.2) out)) := by
  induction entries generalizing junk out fuel with
  | nil => exact absurd rfl hne
  | cons e es ih =>
    have he := hnamed e List.mem_cons_self
    cases es with
    | nil =>
      have htext : membersOf [e] = Json.memberText (e.1, Nat.toDigits 10 e.2.toNat) := rfl
      rw [htext] at hfuel ⊢
      obtain ⟨k, rfl⟩ := Nat.exists_eq_add_of_lt hfuel
      rw [scan_member hjunk he (by rintro c t ⟨⟩; rfl)]
      exact scan_stop rfl (Nat.lt_add_right k (length_member junk _ _))
    | cons e' es =>
      have htext : junk ++ (membersOf (e :: e' :: es) ++ ['}']) =
          junk ++ (Json.memberText (e.1, Nat.toDigits 10 e.2.toNat) ++
            ([',', ' '] ++ (membersOf (e' :: es) ++ ['}']))) := by
        have hmembers : membersOf (e :: e' :: es) = Json.memberText (e.1, Nat.toDigits 10 e.2.toNat) ++
            ',' :: ' ' :: membersOf (e' :: es) := rfl
        rw [hmembers, List.append_assoc]
        rfl
      rw [htext] at hfuel ⊢
      obtain ⟨k, rfl⟩ := Nat.exists_eq_add_of_lt hfuel
      rw [scan_member hjunk he (by rintro c t ⟨⟩; rfl)]
      exact ih (fun e he => hnamed e (List.mem_cons_of_mem _ he)) (List.cons_ne_nil _ _) (by decide) _
        (Nat.lt_add_right k (length_member junk _ _))

theorem lookup_assign (out : RoleTable) (key name : List Char) (v : UInt32) :
    (assign out key v).lookup name = if name = key then some v else out.lookup name := by
  unfold assign
  by_cases h : name = key
  · rw [h, List.lookup_cons_self, if_pos rfl]
  · have hfilter : (out.filter fun e => e.1 ≠ key).lookup name = out.lookup name :=
      lookup_filter_ne fun e he => decide_eq_true (he ▸ h)
    rw [lookup_cons_ne h, hfilter, if_neg h]

/-- names that come once keep their values -/
theorem lookup_foldl {entries : List (List Char × UInt32)} (hnd : (entries.map Prod.fst).Nodup)
    (out : RoleTable) (name : List Char) :
    (entries.foldl (fun out e => assign out e.1 e.2) out).lookup name =
      (entries.lookup name).or (out.lookup name) := by
  induction entries generalizing out with
  | nil => rfl
  | cons e es ih =>
    obtain ⟨key, v⟩ := e
    obtain ⟨hfresh, hnd⟩ := List.nodup_cons.mp hnd
    rw [List.foldl_cons, ih hnd, lookup_assign, List.lookup_cons]
    by_cases h : name = key
    · have hnone : es.lookup name = none := by
        refine List.lookup_eq_none_iff.mpr fun e he => ?_
        exact bne_iff_ne.mpr fun heq => hfresh (List.mem_map.mpr ⟨e, he, heq.symm.trans h⟩)
      rw [hnone, if_pos h, beq_iff_eq.mpr h]
      rfl
    · rw [if_neg h, beq_eq_false_iff_ne.mpr h]

theorem foldl_ne_nil {entries : List (List Char × UInt32)} (hne : entries ≠ []) (out : RoleTable) :
    entries.foldl (fun out e => assign out e.1 e.2) out ≠ [] := by
  induction entries using List.reverseRecOn with
  | nil => exact absurd rfl hne
  | append_singleton es e _ =>
    rw [List.foldl_append]
    exact List.cons_ne_nil _ _

/-- **The reader gives the map back** that the writer wrote. -/
theorem read_written (roles : RoleMap) (out : RoleTable) :
    ∃ m, (∀ fuel, (writeRoles roles).length < fuel →
        readRoles fuel (some (writeRoles roles)) out = some (.ok (true, m))) ∧
      ∀ name, m.lookup name = roles.entries.lookup name := by
  refine ⟨roles.entries.foldl (fun out e => assign out e.1 e.2) [], fun fuel hfuel => ?_, fun name => ?_⟩
  · have hscan : scan fuel (['{'] ++ (membersOf roles.entries ++ ['}'])) [] =
        some (.ok (roles.entries.foldl (fun out e => assign out e.1 e.2) [])) :=
      scan_members roles.named roles.nonempty (by decide) [] hfuel
    have hfull : (roles.entries.foldl (fun out e => assign out e.1 e.2) []).isEmpty = false :=
      List.isEmpty_eq_false_iff.mpr (foldl_ne_nil roles.nonempty [])
    show (scan fuel (['{'] ++ (membersOf roles.entries ++ ['}'])) []).map _ = _
    rw [hscan]
    dsimp only [Option.map, Except.map]
    rw [hfull]
    rfl
  · rw [lookup_foldl roles.distinct]
    exact Option.or_none

/-- **The roles file.**  The reader gives back the map that was written, its loop ends on every file, and
no file makes it throw, if and only if the scan comes to no number that is too big for `std::stoul`. -/
theorem read_roles_iff (roles : RoleMap) (content : List Char) (out : RoleTable) :
    (∃ m, (∀ fuel, (writeRoles roles).length < fuel →
        readRoles fuel (some (writeRoles roles)) out = some (.ok (true, m))) ∧
      ∀ name, m.lookup name = roles.entries.lookup name) ∧
    (∃ r, ∀ fuel, content.length < fuel → readRoles fuel (some content) out = some r) ∧
    (Survives content out ↔ ∀ n, Reaches content n → n < 2 ^ 64) := by
  refine ⟨read_written roles out, ?_⟩
  obtain ⟨r, hrun, hok⟩ := scan_total content []
  have hread : ∀ fuel, content.length < fuel → readRoles fuel (some content) out =
      some (r.map fun out => (!out.isEmpty, out)) := by
    intro fuel hfuel
    rw [readRoles, hrun fuel hfuel]
    rfl
  refine ⟨⟨_, hread⟩, ?_⟩
  rw [← hok]
  constructor
  · rintro ⟨p, hp⟩
    have heq := (hread (content.length + 1) (Nat.lt_succ_self _)).symm.trans
      (hp (content.length + 1) (Nat.lt_succ_self _))
    cases r with
    | ok m => exact ⟨m, rfl⟩
    | error e => cases heq
  · rintro ⟨m, rfl⟩
    exact ⟨_, hread⟩

/-- a number of 65 bits -/
def hugeRole : List Char := "\x7b\"a\": 18446744073709551616\x7d".toList

theorem hugeRole_throws : readRoles 30 (some hugeRole) [] = some (.error .outOfRange) ∧
    ¬ Survives hugeRole [] := by
  have hthrows : readRoles 30 (some hugeRole) [] = some (.error .outOfRange) := by decide
  refine ⟨hthrows, ?_⟩
  rintro ⟨r, hr⟩
  cases hthrows.symm.trans (hr 30 (by decide))

end Supervision
end RayX
