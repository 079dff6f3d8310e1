import Mathlib.Data.List.Forall2
import RayX.Lib.Json

/-!
# Rows of a benchmark

The line that the driver writes for a request, and the loader of the analyzer.

* `jsonEscape`, `recordToJson`   the line of a record;
* `load`                    the rows of a file, one for each line that is not blank;
* `scanString_escape`       a string is read back unless it holds a control character other than a tab
                            or a line break;
* `Survives`                every line is one line, and the file loads to the rows that were written;
* `bell_rejected`           a row that the loader refuses;
* `survives_iff`            **which rows survive**.
-/

namespace RayX
namespace Jsonl
open Sys Json

abbrev Text := List Char

inductive LaneImpl where
  | std | hpx
  deriving DecidableEq, Repr

structure Options where
  laneImpl : LaneImpl
  chunks : Int32
  chunkDelayMs : Float
  workMode : Text
  retireMode : Text

/-- set from the lane implementation -/
def Options.boundary (o : Options) : Text :=
  match o.laneImpl with
  | .std => "hpx-intra-locality".toList
  | .hpx => "hpx-intra-locality-hpxlane".toList

structure Result where
  requestId : Text
  actorId : Text
  submitNs : Int64
  startNs : Int64
  endNs : Int64
  recvNs : Int64
  status : Text
  /-- empty: null -/
  error : Text

/-- what a stream of precision 15 prints for a double -/
inductive Printed where
  | finite (n : NumText)
  | inf (neg : Bool)
  | nan (neg : Bool)

def Printed.text : Printed → Text
  | finite n => n.text
  | inf neg => if neg then "-inf".toList else "inf".toList
  | nan neg => if neg then "-nan".toList else "nan".toList

def Printed.isFinite : Printed → Bool
  | finite _ => true
  | _ => false

def escapeChar (c : Char) : Text :=
  if c = '"' then ['\\', '"']
  else if c = '\\' then ['\\', '\\']
  else if c = '\n' then ['\\', 'n']
  else if c = '\r' then ['\\', 'r']
  else if c = '\t' then ['\\', 't']
  else [c]

def jsonEscape (s : Text) : Text := s.flatMap escapeChar

/-- a string between quotes, not escaped -/
def quoted (s : Text) : Text := '"' :: (s ++ ['"'])

section
variable (fmtDouble : Float → Printed) (o : Options) (runId workload : Text)

def recordMembers (r : Result) (serviceMsRequested : Float) : List (Text × Text) :=
  let totalMs := (r.recvNs - r.submitNs).toFloat / 1e6
  let queueWaitMs := (r.startNs - r.submitNs).toFloat / 1e6
  let serviceMsObserved := (r.endNs - r.startNs).toFloat / 1e6
  [("schema_version".toList, quoted "1".toList),
    ("run_id".toList, quoted (jsonEscape runId)),
    ("backend".toList, quoted "synthetic".toList),
    ("boundary".toList, quoted o.boundary),
    ("workload".toList, quoted (jsonEscape workload)),
    ("request_id".toList, quoted (jsonEscape r.requestId)),
    ("actor_id".toList, quoted (jsonEscape r.actorId)),
    ("worker_id".toList, "null".toList),
    ("status".toList, quoted (jsonEscape r.status)),
    ("submit_ns".toList, (NumText.ofInt r.submitNs.toInt).text),
    ("start_ns".toList, (NumText.ofInt r.startNs.toInt).text),
    ("end_ns".toList, (NumText.ofInt r.endNs.toInt).text),
    ("total_ms".toList, (fmtDouble totalMs).text),
    ("queue_wait_ms".toList, (fmtDouble queueWaitMs).text),
    ("service_ms_observed".toList, (fmtDouble serviceMsObserved).text),
    ("service_ms_requested".toList, (fmtDouble serviceMsRequested).text),
    ("chunks".toList, (NumText.ofInt o.chunks.toInt).text),
    ("chunk_delay_ms".toList, (fmtDouble o.chunkDelayMs).text),
    ("work_mode".toList, quoted (jsonEscape o.workMode)),
    ("retire_mode".toList, quoted (jsonEscape o.retireMode)),
    ("error".toList, if r.error = [] then "null".toList else quoted (jsonEscape r.error))]

def recordToJson (r : Result) (serviceMsRequested : Float) : Text :=
  objText (recordMembers fmtDouble o runId workload r serviceMsRequested)

/-- the file of a run: each record with the service time that it requested -/
def recordFile (records : List (Result × Float)) : Text :=
  records.flatMap fun p => recordToJson fmtDouble o runId workload p.1 p.2 ++ ['\n']

end

/-! ## the loader -/

/-- `str.isspace` of a character -/
def isSpace (c : Char) : Bool :=
  let n := c.toNat
  9 ≤ n ∧ n ≤ 13 ∨ 28 ≤ n ∧ n ≤ 32 ∨ n = 0x85 ∨ n = 0xA0 ∨ n = 0x1680 ∨ 0x2000 ≤ n ∧ n ≤ 0x200A ∨
    n = 0x2028 ∨ n = 0x2029 ∨ n = 0x202F ∨ n = 0x205F ∨ n = 0x3000

def strip (s : Text) : Text := ((s.dropWhile isSpace).reverse.dropWhile isSpace).reverse

/-- the lines of a text file, without their ends, and what follows the last of them -/
def textLines : Text → List Text
  | [] => [[]]
  | c :: t =>
    if c = '\n' then [] :: textLines t
    else if c = '\r' then
      match t with
      | '\n' :: t => [] :: textLines t
      | t => [] :: textLines t
    else
      match textLines t with
      | [] => [[c]]
      | l :: ls => (c :: l) :: ls

def loadLines : List Text → Except JsonStop (List JsonVal)
  | [] => .ok []
  | l :: ls =>
    if strip l = [] then loadLines ls
    else do
      let v ← loads (strip l)
      let vs ← loadLines ls
      return v :: vs

def load (file : Text) : Except JsonStop (List JsonVal) := loadLines (textLines file)

/-! ## strings -/

/-- a character that the loader reads back -/
def isKept (c : Char) : Bool := 32 ≤ c.toNat ∨ c = '\t' ∨ c = '\n' ∨ c = '\r'

theorem scanUnits_escapeChar (c : Char) (t : Text) : scanUnits (escapeChar c ++ t) =
    if isKept c then (scanUnits t).map fun p => (c.toNat :: p.1, p.2) else .error .decode := by
  by_cases h1 : c = '"'
  · subst h1
    exact scanUnits_escape rfl
  by_cases h2 : c = '\\'
  · subst h2
    exact scanUnits_escape rfl
  by_cases h3 : c = '\n'
  · subst h3
    exact scanUnits_escape rfl
  by_cases h4 : c = '\r'
  · subst h4
    exact scanUnits_escape rfl
  by_cases h5 : c = '\t'
  · subst h5
    exact scanUnits_escape rfl
  have hchar : escapeChar c = [c] := by
    rw [escapeChar, if_neg h1, if_neg h2, if_neg h3, if_neg h4, if_neg h5]
  rw [hchar]
  by_cases hlo : 32 ≤ c.toNat
  · have hkept : isKept c = true := decide_eq_true (Or.inl hlo)
    rw [if_pos hkept]
    exact scanUnits_plain (decide_eq_true ⟨h1, h2, hlo⟩)
  · have hkept : ¬ isKept c = true := fun h =>
      (of_decide_eq_true h).elim hlo fun h => h.elim h5 fun h => h.elim h3 h4
    rw [if_neg hkept]
    exact scanUnits_control (by omega)

/-- **An escaped string** is read back, unless it holds another control character. -/
theorem scanString_escape (s rest : Text) : scanString (jsonEscape s ++ '"' :: rest) =
    if s.all isKept then .ok (s.map Char.toNat, rest) else .error .decode := by
  have hunits : scanUnits (jsonEscape s ++ '"' :: rest) =
      if s.all isKept then .ok (s.map Char.toNat, rest) else .error .decode := by
    induction s with
    | nil => exact scanUnits_quote
    | cons c s ih =>
      rw [jsonEscape, List.flatMap_cons, List.append_assoc, scanUnits_escapeChar, List.all_cons]
      cases isKept c with
      | false => rfl
      | true =>
        rw [if_pos rfl, Bool.true_and]
        have ih : scanUnits (s.flatMap escapeChar ++ '"' :: rest) = _ := ih
        rw [ih]
        cases s.all isKept <;> rfl
  cases hs : s.all isKept with
  | true =>
    rw [hs] at hunits
    exact scanString_of_units hunits
  | false =>
    rw [hs] at hunits
    rw [scanString, hunits]
    rfl

/-! ## the members of a record -/

def codes (s : Text) : List Nat := s.map Char.toNat

/-- a string that is escaped -/
def textField (key : String) (s : Text) : Field :=
  ⟨key.toList, quoted (jsonEscape s), .str (codes s), s.all isKept⟩

/-- a constant -/
def rawField (key : String) (s : Text) : Field := ⟨key.toList, quoted s, .str (codes s), true⟩

def intField (key : String) (z : Int) : Field :=
  ⟨key.toList, (NumText.ofInt z).text, .num (NumText.ofInt z).text, true⟩

def doubleField (key : String) (p : Printed) : Field := ⟨key.toList, p.text, .num p.text, p.isFinite⟩

def nullField (key : String) : Field := ⟨key.toList, "null".toList, .null, true⟩

/-- an empty string is null -/
def errorField (key : String) (s : Text) : Field :=
  ⟨key.toList, if s = [] then "null".toList else quoted (jsonEscape s),
    if s = [] then .null else .str (codes s), s.all isKept⟩

section
variable {key : String}

theorem textField_right (s : Text) (hkey : key.toList.all isPlain = true) :
    (textField key s).Right where
  key := List.all_eq_true.mp hkey
  reads h := reads_string fun rest => (scanString_escape s rest).trans (if_pos h)
  rejects h := rejects_string fun rest =>
    (scanString_escape s rest).trans (if_neg fun h' => Bool.false_ne_true (h.symm.trans h'))

theorem rawField_right {s : Text} (hs : s.all isPlain = true)
    (hkey : key.toList.all isPlain = true) : (rawField key s).Right where
  key := List.all_eq_true.mp hkey
  reads _ := reads_string fun _ => scanString_plain (List.all_eq_true.mp hs)
  rejects h := by cases h

theorem intField_right (z : Int) (hkey : key.toList.all isPlain = true) :
    (intField key z).Right where
  key := List.all_eq_true.mp hkey
  reads _ := reads_number _
  rejects h := by cases h

theorem doubleField_right (p : Printed) (hkey : key.toList.all isPlain = true) :
    (doubleField key p).Right where
  key := List.all_eq_true.mp hkey
  reads h := by
    cases p with
    | finite n => exact reads_number n
    | inf neg => cases h
    | nan neg => cases h
  rejects h := by
    cases p with
    | finite n => cases h
    | inf neg => cases neg <;> exact ⟨⟨_, _, rfl, by decide⟩, fun _ _ _ => rfl⟩
    | nan neg => cases neg <;> exact ⟨⟨_, _, rfl, by decide⟩, fun _ _ _ => rfl⟩

theorem nullField_right (hkey : key.toList.all isPlain = true) : (nullField key).Right where
  key := List.all_eq_true.mp hkey
  reads _ := reads_null
  rejects h := by cases h

theorem errorField_right (s : Text) (hkey : key.toList.all isPlain = true) :
    (errorField key s).Right := by
  by_cases h : s = []
  · have hnull : errorField key s = nullField key := by
      rw [errorField, if_pos h, if_pos h, h]
      rfl
    rw [hnull]
    exact nullField_right hkey
  · have htext : errorField key s = textField key s := by
      rw [errorField, if_neg h, if_neg h]
      rfl
    rw [htext]
    exact textField_right s hkey

end

section
variable (fmtDouble : Float → Printed) (o : Options) (runId workload : Text)

/-- the members of a record with what they mean -/
def recordFields (r : Result) (serviceMsRequested : Float) : List Field :=
  [rawField "schema_version" "1".toList, textField "run_id" runId,
    rawField "backend" "synthetic".toList, rawField "boundary" o.boundary,
    textField "workload" workload, textField "request_id" r.requestId,
    textField "actor_id" r.actorId, nullField "worker_id", textField "status" r.status,
    intField "submit_ns" r.submitNs.toInt, intField "start_ns" r.startNs.toInt,
    intField "end_ns" r.endNs.toInt,
    doubleField "total_ms" (fmtDouble ((r.recvNs - r.submitNs).toFloat / 1e6)),
    doubleField "queue_wait_ms" (fmtDouble ((r.startNs - r.submitNs).toFloat / 1e6)),
    doubleField "service_ms_observed" (fmtDouble ((r.endNs - r.startNs).toFloat / 1e6)),
    doubleField "service_ms_requested" (fmtDouble serviceMsRequested),
    intField "chunks" o.chunks.toInt, doubleField "chunk_delay_ms" (fmtDouble o.chunkDelayMs),
    textField "work_mode" o.workMode, textField "retire_mode" o.retireMode,
    errorField "error" r.error]

/-- what a row needs: no control character but tabs and line breaks in its strings, and finite doubles -/
structure RowClean (r : Result) (serviceMsRequested : Float) : Prop where
  texts : ∀ s ∈ [runId, workload, r.requestId, r.actorId, r.status, o.workMode, o.retireMode, r.error],
    ∀ c ∈ s, isKept c = true
  doubles : ∀ x ∈ [(r.recvNs - r.submitNs).toFloat / 1e6, (r.startNs - r.submitNs).toFloat / 1e6,
    (r.endNs - r.startNs).toFloat / 1e6, serviceMsRequested, o.chunkDelayMs],
    (fmtDouble x).isFinite = true

variable {fmtDouble o runId workload} {r : Result} {serviceMsRequested : Float}

theorem recordFields_texts : fieldTexts (recordFields fmtDouble o runId workload r serviceMsRequested)
    = recordMembers fmtDouble o runId workload r serviceMsRequested := rfl

theorem boundary_plain : o.boundary.all isPlain = true := by
  unfold Options.boundary
  cases o.laneImpl with
  | std => decide
  | hpx => decide

theorem recordFields_right :
    ∀ f ∈ recordFields fmtDouble o runId workload r serviceMsRequested, f.Right := by
  unfold recordFields
  simp only [List.forall_mem_cons]
  exact ⟨rawField_right (by decide) (by decide), textField_right _ (by decide),
    rawField_right (by decide) (by decide), rawField_right boundary_plain (by decide),
    textField_right _ (by decide), textField_right _ (by decide), textField_right _ (by decide),
    nullField_right (by decide), textField_right _ (by decide), intField_right _ (by decide),
    intField_right _ (by decide), intField_right _ (by decide), doubleField_right _ (by decide),
    doubleField_right _ (by decide), doubleField_right _ (by decide), doubleField_right _ (by decide),
    intField_right _ (by decide), doubleField_right _ (by decide), textField_right _ (by decide),
    textField_right _ (by decide), errorField_right _ (by decide), fun _ h => by cases h⟩

theorem recordFields_ok : (∀ f ∈ recordFields fmtDouble o runId workload r serviceMsRequested,
    f.ok = true) ↔ RowClean fmtDouble o runId workload r serviceMsRequested := by
  have hkept : ∀ s : Text, s.all isKept = true ↔ ∀ c ∈ s, isKept c = true := fun s => List.all_eq_true
  unfold recordFields
  simp only [List.forall_mem_cons, errorField, textField, rawField, nullField, intField,
    doubleField, hkept]
  constructor
  · rintro ⟨-, h1, -, -, h2, h3, h4, -, h5, -, -, -, d1, d2, d3, d4, -, d5, h6, h7, h8, -⟩
    refine ⟨?_, ?_⟩
    · simp only [List.forall_mem_cons]
      exact ⟨h1, h2, h3, h4, h5, h6, h7, h8, fun _ h => by cases h⟩
    · simp only [List.forall_mem_cons]
      exact ⟨d1, d2, d3, d4, d5, fun _ h => by cases h⟩
  · rintro ⟨htexts, hdoubles⟩
    simp only [List.forall_mem_cons] at htexts hdoubles
    obtain ⟨h1, h2, h3, h4, h5, h6, h7, h8, -⟩ := htexts
    obtain ⟨d1, d2, d3, d4, d5, -⟩ := hdoubles
    exact ⟨trivial, h1, trivial, trivial, h2, h3, h4, trivial, h5, trivial, trivial, trivial, d1, d2,
      d3, d4, trivial, d5, h6, h7, h8, fun _ h => by cases h⟩

/-- the row of a record -/
def recordRow (fmtDouble : Float → Printed) (o : Options) (runId workload : Text) (r : Result)
    (serviceMsRequested : Float) : JsonVal :=
  .obj ((recordFields fmtDouble o runId workload r serviceMsRequested).map Field.member)

/-- **One row**: read, or refused. -/
theorem loads_record (fmtDouble : Float → Printed) (o : Options) (runId workload : Text) (r : Result)
    (serviceMsRequested : Float) :
    (RowClean fmtDouble o runId workload r serviceMsRequested →
      loads (recordToJson fmtDouble o runId workload r serviceMsRequested)
        = .ok (recordRow fmtDouble o runId workload r serviceMsRequested)) ∧
    (¬ RowClean fmtDouble o runId workload r serviceMsRequested →
      loads (recordToJson fmtDouble o runId workload r serviceMsRequested) = .error .decode) := by
  have hloads : loads (recordToJson fmtDouble o runId workload r serviceMsRequested)
      = (readings (recordFields fmtDouble o runId workload r serviceMsRequested)).map JsonVal.obj := by
    rw [recordToJson, ← recordFields_texts]
    exact loads_objText recordFields_right
  rw [← recordFields_ok, hloads]
  constructor
  · intro h
    rw [readings_ok h]
    rfl
  · intro h
    obtain ⟨f, h⟩ := Classical.not_forall.mp h
    obtain ⟨hf, hok⟩ := Classical.not_imp.mp h
    rw [readings_error hf (Bool.eq_false_iff.mpr hok)]
    rfl

end

/-! ## lines -/

/-- no line break -/
def OneLine (l : Text) : Prop := ∀ c ∈ l, c ≠ '\n' ∧ c ≠ '\r'

theorem oneLine_nil : OneLine [] := fun _ h => by cases h

theorem OneLine.append {l m : Text} (hl : OneLine l) (hm : OneLine m) : OneLine (l ++ m) :=
  fun c hc => (List.mem_append.mp hc).elim (hl c) (hm c)

theorem OneLine.cons {c : Char} {l : Text} (hc : c ≠ '\n' ∧ c ≠ '\r') (hl : OneLine l) :
    OneLine (c :: l) :=
  fun d hd => (List.mem_cons.mp hd).elim (fun h => h ▸ hc) (hl d)

theorem oneLine_escape (s : Text) : OneLine (jsonEscape s) := by
  have hchar : ∀ c, OneLine (escapeChar c) := by
    intro c
    unfold escapeChar
    split
    · exact OneLine.cons (by decide) (OneLine.cons (by decide) oneLine_nil)
    split
    · exact OneLine.cons (by decide) (OneLine.cons (by decide) oneLine_nil)
    split
    · exact OneLine.cons (by decide) (OneLine.cons (by decide) oneLine_nil)
    split
    · exact OneLine.cons (by decide) (OneLine.cons (by decide) oneLine_nil)
    split
    · exact OneLine.cons (by decide) (OneLine.cons (by decide) oneLine_nil)
    · rename_i h3 h4 _
      exact OneLine.cons ⟨h3, h4⟩ oneLine_nil
  intro c hc
  obtain ⟨d, _, hd⟩ := List.mem_flatMap.mp hc
  exact hchar d c hd

theorem oneLine_plain {s : Text} (h : s.all isPlain = true) : OneLine s := by
  intro c hc
  obtain ⟨_, _, hlo⟩ := of_decide_eq_true (List.all_eq_true.mp h c hc)
  constructor
  · rintro rfl
    exact absurd hlo (by decide)
  · rintro rfl
    exact absurd hlo (by decide)

theorem oneLine_quoted {s : Text} (h : OneLine s) : OneLine (quoted s) :=
  OneLine.cons (by decide) (h.append (OneLine.cons (by decide) oneLine_nil))

theorem oneLine_number (n : NumText) : OneLine n.text := by
  intro c hc
  rcases NumText.text_chars hc with hd | hd
  · constructor
    · rintro rfl
      exact absurd hd (by decide)
    · rintro rfl
      exact absurd hd (by decide)
  · have hsigns : OneLine ['-', '+', '.', 'e'] :=
      OneLine.cons (by decide) (OneLine.cons (by decide) (OneLine.cons (by decide)
        (OneLine.cons (by decide) oneLine_nil)))
    exact hsigns c hd

theorem oneLine_printed (p : Printed) : OneLine p.text := by
  cases p with
  | finite n => exact oneLine_number n
  | inf neg => cases neg <;> exact oneLine_plain (by decide)
  | nan neg => cases neg <;> exact oneLine_plain (by decide)

theorem oneLine_members {ms : List (Text × Text)} (h : ∀ m ∈ ms, OneLine m.1 ∧ OneLine m.2) :
    OneLine (membersText ms) := by
  have hone : ∀ m ∈ ms, OneLine (memberText m) := fun m hm =>
    OneLine.cons (by decide) ((h m hm).1.append (OneLine.cons (by decide) (OneLine.cons (by decide)
      (OneLine.cons (by decide) (h m hm).2))))
  induction ms with
  | nil =>
    intro c hc
    cases hc
  | cons m ms ih =>
    cases ms with
    | nil => exact hone m List.mem_cons_self
    | cons m' ms =>
      have hrest := ih (fun m hm => h m (List.mem_cons_of_mem _ hm))
        (fun m hm => hone m (List.mem_cons_of_mem _ hm))
      exact (hone m List.mem_cons_self).append
        (OneLine.cons (by decide) (OneLine.cons (by decide) hrest))

section
variable (fmtDouble : Float → Printed) (o : Options) (runId workload : Text)

/-- **The line of a record is one line**, whatever its strings. -/
theorem recordToJson_oneLine (r : Result) (serviceMsRequested : Float) :
    OneLine (recordToJson fmtDouble o runId workload r serviceMsRequested) := by
  refine OneLine.cons (by decide) ((oneLine_members ?_).append (OneLine.cons (by decide) oneLine_nil))
  have hkeys : ∀ m ∈ recordMembers fmtDouble o runId workload r serviceMsRequested, OneLine m.1 := by
    intro m hm
    rw [← recordFields_texts] at hm
    obtain ⟨f, hf, rfl⟩ := List.mem_map.mp hm
    exact oneLine_plain (List.all_eq_true.mpr (recordFields_right f hf).key)
  have htexts : ∀ m ∈ recordMembers fmtDouble o runId workload r serviceMsRequested, OneLine m.2 := by
    have hnull : OneLine "null".toList := oneLine_plain (by decide)
    have herror : OneLine (if r.error = [] then "null".toList else quoted (jsonEscape r.error)) := by
      split
      · exact hnull
      · exact oneLine_quoted (oneLine_escape _)
    have hstr : ∀ s, OneLine (quoted (jsonEscape s)) := fun s => oneLine_quoted (oneLine_escape s)
    have hraw : ∀ s : Text, s.all isPlain = true → OneLine (quoted s) :=
      fun s h => oneLine_quoted (oneLine_plain h)
    unfold recordMembers
    simp only [List.forall_mem_cons]
    exact ⟨hraw _ (by decide), hstr _, hraw _ (by decide), hraw _ boundary_plain, hstr _, hstr _,
      hstr _, hnull, hstr _, oneLine_number _, oneLine_number _, oneLine_number _, oneLine_printed _,
      oneLine_printed _, oneLine_printed _, oneLine_printed _, oneLine_number _, oneLine_printed _,
      hstr _, hstr _, herror, fun _ h => by cases h⟩
  exact fun m hm => ⟨hkeys m hm, htexts m hm⟩

theorem textLines_line {l : Text} (h : OneLine l) (t : Text) :
    textLines (l ++ '\n' :: t) = l :: textLines t := by
  induction l with
  | nil =>
    rw [List.nil_append, textLines.eq_def]
    exact if_pos rfl
  | cons c l ih =>
    obtain ⟨h1, h2⟩ := h c List.mem_cons_self
    have hl := ih fun d hd => h d (List.mem_cons_of_mem c hd)
    rw [List.cons_append, textLines.eq_def]
    dsimp only
    rw [if_neg h1, if_neg h2, hl]

theorem strip_object (l : Text) : strip ('{' :: (l ++ ['}'])) = '{' :: (l ++ ['}']) := by
  have hopen : isSpace '{' = false := by decide
  have hclose : isSpace '}' = false := by decide
  rw [strip, List.dropWhile_cons, hopen, if_neg Bool.false_ne_true, List.reverse_cons,
    List.reverse_append, List.reverse_singleton, List.singleton_append, List.cons_append,
    List.dropWhile_cons, hclose, if_neg Bool.false_ne_true, List.reverse_cons, List.reverse_append,
    List.reverse_reverse, List.reverse_singleton, List.singleton_append, List.cons_append]

/-- **A file is loaded record by record.** -/
theorem load_cons (p : Result × Float) (records : List (Result × Float)) :
    load (recordFile fmtDouble o runId workload (p :: records)) = (do
      let v ← loads (recordToJson fmtDouble o runId workload p.1 p.2)
      let vs ← load (recordFile fmtDouble o runId workload records)
      return v :: vs) := by
  have hstrip : strip (recordToJson fmtDouble o runId workload p.1 p.2)
      = recordToJson fmtDouble o runId workload p.1 p.2 := strip_object _
  have hne : ¬ recordToJson fmtDouble o runId workload p.1 p.2 = [] := List.cons_ne_nil _ _
  rw [load, recordFile, List.flatMap_cons, List.append_assoc, List.singleton_append,
    textLines_line (recordToJson_oneLine fmtDouble o runId workload p.1 p.2), loadLines, hstrip,
    if_neg hne]
  rfl

/-! ## the law -/

/-- `row[key]`: the last member of that name -/
def field (row : JsonVal) (key : String) : Option JsonVal :=
  match row with
  | .obj ms => (ms.reverse.find? fun m => m.1 = codes key.toList).map Prod.snd
  | _ => none

/-- the strings of a row are those of the record; an empty error is null -/
structure ReadsBack (r : Result) (row : JsonVal) : Prop where
  runId : field row "run_id" = some (.str (codes runId))
  boundary : field row "boundary" = some (.str (codes o.boundary))
  workload : field row "workload" = some (.str (codes workload))
  requestId : field row "request_id" = some (.str (codes r.requestId))
  actorId : field row "actor_id" = some (.str (codes r.actorId))
  status : field row "status" = some (.str (codes r.status))
  workMode : field row "work_mode" = some (.str (codes o.workMode))
  retireMode : field row "retire_mode" = some (.str (codes o.retireMode))
  error : field row "error" = some (if r.error = [] then .null else .str (codes r.error))

theorem recordRow_readsBack (r : Result) (serviceMsRequested : Float) :
    ReadsBack o runId workload r (recordRow fmtDouble o runId workload r serviceMsRequested) :=
  ⟨rfl, rfl, rfl, rfl, rfl, rfl, rfl, rfl, rfl⟩

/-- every record is one line, and the file is loaded as one row for each record -/
structure Survives (records : List (Result × Float)) : Prop where
  lines : ∀ p ∈ records, OneLine (recordToJson fmtDouble o runId workload p.1 p.2)
  rows : ∃ rows, load (recordFile fmtDouble o runId workload records) = .ok rows ∧
    List.Forall₂ (fun p row => ReadsBack o runId workload p.1 row) records rows

variable {fmtDouble o runId workload} {records : List (Result × Float)}

theorem load_clean (h : ∀ p ∈ records, RowClean fmtDouble o runId workload p.1 p.2) :
    load (recordFile fmtDouble o runId workload records)
      = .ok (records.map fun p => recordRow fmtDouble o runId workload p.1 p.2) := by
  induction records with
  | nil => rfl
  | cons p records ih =>
    have hone := (loads_record fmtDouble o runId workload p.1 p.2).1 (h p List.mem_cons_self)
    rw [load_cons, hone, ih fun q hq => h q (List.mem_cons_of_mem p hq)]
    rfl

/-- **One bad row loses the file.** -/
theorem clean_of_load {rows : List JsonVal}
    (h : load (recordFile fmtDouble o runId workload records) = .ok rows) :
    ∀ p ∈ records, RowClean fmtDouble o runId workload p.1 p.2 := by
  induction records generalizing rows with
  | nil =>
    intro p hp
    cases hp
  | cons p records ih =>
    rw [load_cons] at h
    obtain ⟨hclean, hbad⟩ := loads_record fmtDouble o runId workload p.1 p.2
    by_cases hp : RowClean fmtDouble o runId workload p.1 p.2
    · rw [hclean hp] at h
      cases hrest : load (recordFile fmtDouble o runId workload records) with
      | error e =>
        rw [hrest] at h
        cases h
      | ok rows => exact List.forall_mem_cons.mpr ⟨hp, ih hrest⟩
    · rw [hbad hp] at h
      cases h

end

/-- **Which rows survive.** -/
theorem survives_iff (fmtDouble : Float → Printed) (o : Options) (runId workload : Text)
    (records : List (Result × Float)) : Survives fmtDouble o runId workload records ↔
      ∀ p ∈ records, RowClean fmtDouble o runId workload p.1 p.2 := by
  constructor
  · rintro ⟨_, rows, hload, _⟩
    exact clean_of_load hload
  · intro h
    refine ⟨fun p _ => recordToJson_oneLine _ _ _ _ _ _, _, load_clean h, ?_⟩
    refine List.forall₂_map_right_iff.mpr (List.forall₂_same.mpr fun p _ => ?_)
    exact recordRow_readsBack fmtDouble o runId workload p.1 p.2

/-- doubles print as `0` -/
def zeroDouble : Float → Printed := fun _ => .finite ⟨false, 0, [], none⟩

/-- a record of request `a` -/
def bellRecord : Result := ⟨['a'], ['l'], 0, 0, 0, 0, "completed".toList, []⟩

/-- **A workload with a bell** is a row that the loader refuses. -/
theorem bell_rejected :
    ¬ Survives zeroDouble ⟨.std, 1, 0, "sleep".toList, "one_by_one".toList⟩ "run".toList
      ['w', Char.ofNat 7] [(bellRecord, 0)] := by
  intro h
  have hclean := (clean_of_load h.rows.choose_spec.1 _ List.mem_cons_self).texts
  exact absurd (hclean ['w', Char.ofNat 7] (by decide) (Char.ofNat 7) (by decide)) (by decide)

end Jsonl
end RayX
