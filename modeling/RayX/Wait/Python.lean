import RayX.Lib.Split
import RayX.Wait.Native
import Mathlib.Data.Rat.Defs

/-!
# The Python wait

`Runtime.wait` and `Engine.wait`: the blocking form goes through the native wait and its indices, the
polling form probes each future from Python.

* `PyFut`, `PyCount`, `WaitTimeout`   the arguments, as far as the code tells them apart;
* `PyRuntime.wait`, `PyEngine.wait`   both forms, every check in its place;
* `beforeRepeat`          what stands before the first future that comes again;
* `firstBad_agree`        the native loop and the two Python loops, entry by entry;
* `wait_agree_iff`        **the two forms raise alike exactly when no retired future stands before
                          the first repetition and the count fits an `int`**.
-/

namespace RayX
open Sys

/-! ## arguments -/

/-- an element of `futures`: a future with its wrapper object, or an object of another class -/
inductive PyFut where
  | future (addr : Nat)
  | other (typeName : String)
  deriving DecidableEq

/-- `num_returns`; of an object that is no `int` also what `int()` makes of it -/
inductive PyCount where
  | int (n : Int)
  | bool (b : Bool)
  | other (typeName : String) (toInt : Exit Int)

/-- a number of seconds, `None`, or an object of another class -/
inductive WaitTimeout where
  | none
  | finite (t : Rat)
  | nan
  | inf (negative : Bool)
  | other (typeName : String)

def pyRaise {α : Type} (cls : WaitClass) (msg : String) : Exit α := .raised ⟨cls, msg⟩

/-- `validate_timeout`; `shown` is `repr` -/
def validateTimeout (shown : WaitTimeout → String) : WaitTimeout → Exit Rat
  | .finite t =>
    if t < 0 then pyRaise .valueError s!"timeout must be >= 0 (or None), got {shown (.finite t)}"
    else .returned t
  | .nan => pyRaise .valueError s!"timeout must be finite (or None), got {shown .nan}"
  | .inf b => pyRaise .valueError s!"timeout must be finite (or None), got {shown (.inf b)}"
  | .none => pyRaise .typeError "timeout must be a real number of seconds or None, got NoneType"
  | .other t => pyRaise .typeError s!"timeout must be a real number of seconds or None, got {t}"

/-! ## the pieces of a wait -/

/-- a check, and the rest of the call -/
def Exit.before {α β : Type} (x : Exit α) (w : World) (f : α → Exit β × World) : Exit β × World :=
  match x with
  | .returned a => f a
  | .raised e => (.raised e, w)
  | .blocked => (.blocked, w)
  | .crashed => (.crashed, w)

/-- the attribute with the wrapper object of each future -/
def attrs (attr : String) : List PyFut → Exit (List Nat)
  | [] => .returned []
  | .future a :: fs => (attrs attr fs).map (a :: ·)
  | .other t :: _ => pyRaise .attributeError s!"'{t}' object has no attribute '{attr}'"

/-- the loop that looks for a future that comes twice -/
def seenLoop (txt : WaitTexts) (attr : String) : List Nat → List PyFut → Exit (List Nat)
  | _, [] => .returned []
  | seen, .future a :: fs =>
    if a ∈ seen then pyRaise .valueError txt.duplicate
    else (seenLoop txt attr (a :: seen) fs).map (a :: ·)
  | _, .other t :: _ => pyRaise .attributeError s!"'{t}' object has no attribute '{attr}'"

/-- the futures by their index: those of the set, and the others -/
def partitionBy (idx : List Int) (futures : List Nat) : List Nat × List Nat :=
  splitIdx (fun i _ => decide ((i : Int) ∈ idx)) 0 futures

/-- the futures by `ready()`, probed one after the other -/
def probe (hpx : Hpx) (retired : String) (objs : Objects) (t : Nat) :
    Nat → List Nat → Exit (List Nat × List Nat)
  | _, [] => .returned ([], [])
  | i, a :: as =>
    match objs a with
    | none => pyRaise .runtimeError retired
    | some s =>
      (probe hpx retired objs t (i + 1) as).map fun r =>
        if hpx.ready (hpx.query t i) s then (a :: r.1, r.2) else (r.1, a :: r.2)

/-- the blocking form: the native call, whose `num_returns` is an `int`, and the split by its indices -/
def blockOn (wait : List Entry → Int → World → Exit (List Int) × World) (addrs : List Nat)
    (numReturns : Int) (w : World) : Exit (List Nat × List Nat) × World :=
  if -2 ^ 31 ≤ numReturns ∧ numReturns < 2 ^ 31 then
    let r := wait (addrs.map .future) numReturns w
    (r.1.map fun idx => partitionBy idx addrs, r.2)
  else (pyRaise .typeError "wait(): incompatible function arguments", w)

/-- the polling form -/
def probeAll (hpx : Hpx) (retired : String) (addrs : List Nat) (w : World) :
    Exit (List Nat × List Nat) × World :=
  (probe hpx retired w.objs w.now 0 addrs, ⟨hpx.query w.now addrs.length, w.objs⟩)

/-! ## Runtime.wait -/

namespace PyRuntime

/-- `num_returns` is an `int` in range -/
def count (n : Nat) : PyCount → Exit Int
  | .bool _ => pyRaise .typeError "num_returns must be int, got bool"
  | .other t _ => pyRaise .typeError s!"num_returns must be int, got {t}"
  | .int k =>
    if k < 1 then pyRaise .valueError s!"num_returns must be >= 1, got {k}"
    else if n < k then
      pyRaise .valueError s!"num_returns must be <= len(futures) ({n}), got {k}"
    else .returned k

/-- every entry is a `RuntimeFuture` -/
def types : Nat → List PyFut → Exit Unit
  | _, [] => .returned ()
  | i, .future _ :: fs => types (i + 1) fs
  | i, .other t :: _ => pyRaise .typeError s!"wait() futures[{i}] must be a RuntimeFuture, got {t}"

def wait (hpx : Hpx) (fail : Failures) (shown : WaitTimeout → String) (running : Bool)
    (futures : List PyFut) (numReturns : PyCount) (timeout : WaitTimeout) (w : World) :
    Exit (List Nat × List Nat) × World :=
  if futures = [] then (pyRaise .valueError "wait() requires a non-empty list of futures", w)
  else
    (count futures.length numReturns).before w fun k =>
    (types 0 futures).before w fun _ =>
    match timeout with
    | .none => (attrs "_rf" futures).before w fun addrs =>
      blockOn (RuntimeEngine.wait hpx fail running) addrs k w
    | t => (validateTimeout shown t).before w fun t =>
      if 0 < t then
        (pyRaise .notImplementedError ("bounded finite-timeout wait is not supported on HPX v1.11.0: "
          ++ "there is no non-consuming timed multi-future wait primitive. Use timeout=0 for a "
          ++ "non-blocking poll or timeout=None to block."), w)
      else if running = false then (pyRaise .runtimeError "Runtime is shut down", w)
      else (seenLoop runtimeTexts "_rf" [] futures).before w fun addrs =>
        probeAll hpx "RuntimeFuture is invalid (already retired via result()); cannot query ready()"
          addrs w

end PyRuntime

/-! ## Engine.wait -/

namespace PyEngine

/-- `int(num_returns)` -/
def toInt : PyCount → Exit Int
  | .int k => .returned k
  | .bool b => .returned (if b then 1 else 0)
  | .other _ x => x

def wait (hpx : Hpx) (fail : Failures) (shown : WaitTimeout → String) (running : Bool)
    (futures : List PyFut) (numReturns : PyCount) (timeout : WaitTimeout) (w : World) :
    Exit (List Nat × List Nat) × World :=
  if futures = [] then (pyRaise .valueError "wait() requires a non-empty list of futures", w)
  else
    match timeout with
    | .none =>
      (attrs "_cf" futures).before w fun addrs =>
      (toInt numReturns).before w fun k => blockOn (Engine.wait hpx fail running) addrs k w
    | t => (validateTimeout shown t).before w fun t =>
      if 0 < t then
        (pyRaise .notImplementedError ("bounded finite-timeout wait is not supported on HPX v1.11.0: "
          ++ "there is no non-consuming timed multi-future wait primitive (no hpx::wait_some_for / "
          ++ "wait_some_until; when_some would move/strand the inputs on timeout; busy-polling is "
          ++ "avoided). Use timeout=0 for a non-blocking poll or timeout=None to block. See "
          ++ "docs/reference/rayx_frontend_design.md §9."), w)
      else if running = false then (pyRaise .runtimeError "Engine is shut down", w)
      else
        (toInt numReturns).before w fun k =>
        if k < 1 then (pyRaise .valueError "num_returns must be >= 1", w)
        else if futures.length < k then
          (pyRaise .valueError "num_returns must be <= len(futures)", w)
        else (seenLoop engineTexts "_cf" [] futures).before w fun addrs =>
          probeAll hpx "Future is invalid (already retired via result()); cannot query ready()"
            addrs w

end PyEngine

/-! ## what each loop raises -/

/-- the class of the exception, if the call raises one -/
def raisedClass {α : Type} : Exit α → Option WaitClass
  | .raised e => some e.cls
  | .returned _ => none
  | .blocked => none
  | .crashed => none

/-- what stands before the first future that comes again -/
def beforeRepeat : List Nat → List Nat → Option (List Nat)
  | _, [] => none
  | seen, a :: as =>
    if a ∈ seen then some [] else (beforeRepeat (a :: seen) as).map (a :: ·)

/-- the first entry that the native loop rejects -/
def firstBad (objs : Objects) : List Nat → List Nat → Option WaitClass
  | _, [] => none
  | seen, a :: as =>
    if objs a = none then some .runtimeError
    else if a ∈ seen then some .valueError
    else firstBad objs (a :: seen) as

/-- what the two Python loops reject -/
def polledBad (objs : Objects) (seen as : List Nat) : Option WaitClass :=
  if (beforeRepeat seen as).isSome then some .valueError
  else if as.any (fun a => objs a = none) then some .runtimeError
  else none

section
variable {objs : Objects} {hpx : Hpx} {txt : WaitTexts}

theorem raisedClass_map {α β : Type} (f : α → β) (x : Exit α) :
    raisedClass (x.map f) = raisedClass x := by
  cases x with
  | returned a => rfl
  | raised e => rfl
  | blocked => rfl
  | crashed => rfl

theorem checkEntries_future (i : Nat) (as seen : List Nat) :
    raisedClass (checkEntries txt {} objs i (as.map .future) seen) = firstBad objs seen as ∧
    (firstBad objs seen as = none →
      checkEntries txt {} objs i (as.map .future) seen = .returned as) := by
  induction as generalizing i seen with
  | nil => exact ⟨rfl, fun _ => rfl⟩
  | cons a as ih =>
    rw [List.map_cons, checkEntries, firstBad]
    by_cases ha : objs a = none
    · rw [if_pos ha, if_pos ha]
      exact ⟨rfl, fun h => by cases h⟩
    · rw [if_neg ha, if_neg ha, if_neg Bool.false_ne_true]
      by_cases hs : a ∈ seen
      · rw [if_pos hs, if_pos hs]
        exact ⟨rfl, fun h => by cases h⟩
      · rw [if_neg hs, if_neg hs, raisedClass_map]
        obtain ⟨hclass, hret⟩ := ih (i + 1) (a :: seen)
        exact ⟨hclass, fun h => by rw [hret h]; rfl⟩

theorem seenLoop_future (attr : String) (seen as : List Nat) :
    seenLoop txt attr seen (as.map .future)
      = if (beforeRepeat seen as).isSome then .raised ⟨.valueError, txt.duplicate⟩
        else .returned as := by
  induction as generalizing seen with
  | nil => rfl
  | cons a as ih =>
    rw [List.map_cons, seenLoop, beforeRepeat]
    by_cases hs : a ∈ seen
    · rw [if_pos hs, if_pos hs]
      rfl
    · rw [if_neg hs, if_neg hs, ih, Option.isSome_map]
      split
      · rfl
      · rfl

theorem attrs_future (attr : String) (as : List Nat) :
    attrs attr (as.map .future) = .returned as := by
  induction as with
  | nil => rfl
  | cons a as ih =>
    rw [List.map_cons, attrs, ih]
    rfl

theorem types_future (i : Nat) (as : List Nat) :
    PyRuntime.types i (as.map .future) = .returned () := by
  induction as generalizing i with
  | nil => rfl
  | cons a as ih => exact ih (i + 1)

theorem probe_class (retired : String) (t i : Nat) (as : List Nat) :
    raisedClass (probe hpx retired objs t i as)
      = if as.any (fun a => objs a = none) then some .runtimeError else none := by
  induction as generalizing i with
  | nil => rfl
  | cons a as ih =>
    rw [probe, List.any_cons]
    cases ha : objs a with
    | none => rfl
    | some s =>
      dsimp only
      rw [raisedClass_map, ih]
      rfl

theorem readyIndices_returned (t i : Nat) (fs : List (Option Nat)) :
    ∃ idx, readyIndices hpx {} t i fs = .returned idx := by
  induction fs generalizing i with
  | nil => exact ⟨[], rfl⟩
  | cons f fs ih =>
    obtain ⟨idx, hidx⟩ := ih (i + 1)
    rw [readyIndices, hidx]
    split
    · exact ⟨_, rfl⟩
    · exact ⟨_, rfl⟩

/-- `wait_some` does not throw -/
def Hpx.Calm (hpx : Hpx) : Prop := ∀ t k v, (hpx.waitSome t k v).1 ≠ .raises

theorem waitTaken_class (hc : hpx.Calm) (rfs : List Nat) (k : Int) (w : World) :
    raisedClass (waitTaken hpx {} rfs k w).1 = none := by
  have hcalm := hc w.now k.toNat (Loan.take rfs w.objs).1
  unfold waitTaken
  dsimp only
  rcases hws : hpx.waitSome w.now k.toNat (Loan.take rfs w.objs).1 with ⟨answer, tmp⟩
  rw [hws] at hcalm
  cases answer with
  | returns t =>
    obtain ⟨idx, hidx⟩ : ∃ idx, readyIndices hpx {} t 0 tmp = .returned idx :=
      readyIndices_returned t 0 tmp
    show raisedClass (readyIndices hpx {} t 0 tmp) = none
    rw [hidx]
    rfl
  | raises => exact absurd rfl hcalm
  | blocks => rfl

/-- a call of the native wait with arguments in range -/
theorem waitFutures_class (hc : hpx.Calm) {as : List Nat} {k : Int} (h1 : 1 ≤ k)
    (hk : k ≤ as.length) (w : World) :
    raisedClass (waitFutures txt hpx {} true (as.map .future) k w).1 = firstBad w.objs [] as := by
  have hargs : waitArgs txt {} true (as.map Entry.future).length k = .returned () := by
    rw [List.length_map, waitArgs, if_neg (by decide), if_neg (by omega), if_neg (by omega),
      if_neg (by omega)]
    rfl
  obtain ⟨hclass, hret⟩ :
      raisedClass (checkEntries txt {} w.objs 0 (as.map .future) []) = firstBad w.objs [] as ∧
        (firstBad w.objs [] as = none →
          checkEntries txt {} w.objs 0 (as.map .future) [] = .returned as) :=
    checkEntries_future 0 as []
  have hscreen : screen txt {} true (as.map .future) k w.objs
      = (checkEntries txt {} w.objs 0 (as.map .future) []).bind .returned := by
    rw [screen, hargs]
    rfl
  cases hf : firstBad w.objs [] as with
  | none =>
    have hcheck := hret hf
    rw [waitFutures, hscreen, hcheck]
    exact waitTaken_class hc as k w
  | some c =>
    rw [hf] at hclass
    cases hcheck : checkEntries txt {} w.objs 0 (as.map .future) [] with
    | returned rfs =>
      rw [hcheck] at hclass
      cases hclass
    | raised e =>
      rw [hcheck] at hclass
      rw [waitFutures, hscreen, hcheck]
      exact hclass
    | blocked =>
      rw [hcheck] at hclass
      cases hclass
    | crashed =>
      rw [hcheck] at hclass
      cases hclass

/-- **The native loop and the two Python loops reject alike** unless a retired future stands before
the first repetition. -/
theorem firstBad_agree (seen as : List Nat) (hseen : ∀ a ∈ seen, objs a ≠ none) :
    firstBad objs seen as = polledBad objs seen as ↔
      ∀ pre, beforeRepeat seen as = some pre → ∀ a ∈ pre, objs a ≠ none := by
  induction as generalizing seen with
  | nil => exact iff_of_true rfl fun pre h => by cases h
  | cons a as ih =>
    rw [firstBad, polledBad, beforeRepeat]
    by_cases ha : objs a = none
    · have hnew : a ∉ seen := fun hs => hseen a hs ha
      rw [if_pos ha, if_neg hnew, Option.isSome_map, List.any_cons]
      cases hb : beforeRepeat (a :: seen) as with
      | none =>
        refine iff_of_true ?_ fun pre h => by cases h
        simp [ha]
      | some pre =>
        refine iff_of_false ?_ fun h => ?_
        · intro h
          cases h
        · exact h (a :: pre) rfl a List.mem_cons_self ha
    · by_cases hs : a ∈ seen
      · rw [if_neg ha, if_pos hs, if_pos hs]
        refine iff_of_true rfl fun pre h b hb => ?_
        cases h
        cases hb
      · have hseen' : ∀ b ∈ a :: seen, objs b ≠ none := by
          intro b hb
          rcases List.mem_cons.mp hb with rfl | hb
          · exact ha
          · exact hseen b hb
        have hany : (a :: as).any (fun b => objs b = none) = as.any fun b => objs b = none := by
          rw [List.any_cons]
          simp [ha]
        rw [if_neg ha, if_neg hs, if_neg hs, Option.isSome_map, hany]
        apply (ih (a :: seen) hseen').trans
        constructor
        · intro h pre hpre b hb
          obtain ⟨pre', hpre', rfl⟩ := Option.map_eq_some_iff.mp hpre
          rcases List.mem_cons.mp hb with rfl | hb
          · exact ha
          · exact h pre' hpre' b hb
        · intro h pre hpre b hb
          exact h (a :: pre) (by rw [hpre]; rfl) b (List.mem_cons_of_mem _ hb)

/-! ## the two forms -/

/-- `num_returns` passes the check of its range -/
def InCount (n : Nat) (numReturns : PyCount) : Prop :=
  ∃ k, numReturns = .int k ∧ 1 ≤ k ∧ k ≤ n

theorem count_class (n : Nat) (numReturns : PyCount) :
    (∃ k, PyRuntime.count n numReturns = .returned k ∧ InCount n numReturns ∧
      numReturns = .int k) ∨
    (∃ e, PyRuntime.count n numReturns = .raised e) ∧ ¬ InCount n numReturns := by
  cases numReturns with
  | bool b =>
    refine Or.inr ⟨⟨_, rfl⟩, ?_⟩
    rintro ⟨k, hk, _⟩
    cases hk
  | other t x =>
    refine Or.inr ⟨⟨_, rfl⟩, ?_⟩
    rintro ⟨k, hk, _⟩
    cases hk
  | int k =>
    rw [PyRuntime.count]
    by_cases h1 : k < 1
    · rw [if_pos h1]
      refine Or.inr ⟨⟨_, rfl⟩, ?_⟩
      rintro ⟨k', hk, hlo, _⟩
      cases hk
      omega
    · rw [if_neg h1]
      by_cases hn : (n : Int) < k
      · rw [if_pos hn]
        refine Or.inr ⟨⟨_, rfl⟩, ?_⟩
        rintro ⟨k', hk, _, hhi⟩
        cases hk
        omega
      · rw [if_neg hn]
        exact Or.inl ⟨k, rfl, ⟨k, rfl, by omega, by omega⟩, rfl⟩

variable {shown : WaitTimeout → String} {fail : Failures} {as : List Nat} {w : World}

/-- a count that is rejected, in either form -/
theorem wait_badCount (hne : as ≠ []) {numReturns : PyCount} {e : WaitErr}
    (he : PyRuntime.count as.length numReturns = .raised e) (timeout : WaitTimeout) :
    PyRuntime.wait hpx fail shown true (as.map .future) numReturns timeout w = (.raised e, w) := by
  have hcount : PyRuntime.count (as.map PyFut.future).length numReturns = .raised e := by
    rw [List.length_map]
    exact he
  rw [PyRuntime.wait, if_neg (by simpa using hne), hcount]
  rfl

/-- the blocking form with a count in range -/
theorem wait_none (hne : as ≠ []) {k : Int} (h1 : 1 ≤ k) (hk : k ≤ as.length) :
    PyRuntime.wait hpx fail shown true (as.map .future) (.int k) .none w
      = blockOn (RuntimeEngine.wait hpx fail true) as k w := by
  have hcount : PyRuntime.count (as.map PyFut.future).length (.int k) = .returned k := by
    rw [List.length_map, PyRuntime.count, if_neg (by omega), if_neg (by omega)]
  rw [PyRuntime.wait, if_neg (by simpa using hne), hcount, types_future]
  show (attrs "_rf" (as.map PyFut.future)).before w _ = _
  rw [attrs_future]
  rfl

/-- the polling form with a count in range -/
theorem wait_zero (hne : as ≠ []) {k : Int} (h1 : 1 ≤ k) (hk : k ≤ as.length) :
    PyRuntime.wait hpx fail shown true (as.map .future) (.int k) (.finite 0) w
      = (seenLoop runtimeTexts "_rf" [] (as.map .future)).before w fun addrs =>
          probeAll hpx "RuntimeFuture is invalid (already retired via result()); cannot query ready()"
            addrs w := by
  have hcount : PyRuntime.count (as.map PyFut.future).length (.int k) = .returned k := by
    rw [List.length_map, PyRuntime.count, if_neg (by omega), if_neg (by omega)]
  have htime : validateTimeout shown (.finite 0) = .returned 0 := by
    rw [validateTimeout, if_neg Rat.lt_irrefl]
  rw [PyRuntime.wait, if_neg (by simpa using hne), hcount, types_future]
  dsimp only [Exit.before]
  rw [htime]
  dsimp only
  rw [if_neg Rat.lt_irrefl, if_neg (by decide)]

theorem wait_none_class (hc : hpx.Calm) (hne : as ≠ []) {k : Int} (h1 : 1 ≤ k)
    (hk : k ≤ as.length) :
    raisedClass (PyRuntime.wait hpx {} shown true (as.map .future) (.int k) .none w).1
      = if k < 2 ^ 31 then firstBad w.objs [] as else some .typeError := by
  rw [wait_none hne h1 hk, blockOn]
  by_cases hlt : k < 2 ^ 31
  · rw [if_pos hlt, if_pos ⟨by omega, hlt⟩, raisedClass_map]
    exact waitFutures_class hc h1 hk w
  · rw [if_neg hlt, if_neg (fun h => hlt h.2)]
    rfl

theorem wait_zero_class (hne : as ≠ []) {k : Int} (h1 : 1 ≤ k) (hk : k ≤ as.length) :
    raisedClass (PyRuntime.wait hpx {} shown true (as.map .future) (.int k) (.finite 0) w).1
      = polledBad w.objs [] as := by
  rw [wait_zero hne h1 hk, seenLoop_future, polledBad]
  split
  · rfl
  · exact probe_class _ _ _ _

theorem polledBad_ne (seen : List Nat) : polledBad objs seen as ≠ some .typeError := by
  unfold polledBad
  split
  · intro h
    cases h
  · split
    · intro h
      cases h
    · intro h
      cases h

end

/-- **Blocking and polling `wait` reject alike**: for every list of futures and every `num_returns`,
exactly when a count in range fits an `int` and no retired future stands before the first
repetition. -/
theorem wait_agree_iff (hpx : Hpx) (hc : hpx.Calm) (shown : WaitTimeout → String)
    (as : List Nat) (numReturns : PyCount) (w : World) :
    raisedClass (PyRuntime.wait hpx {} shown true (as.map .future) numReturns .none w).1
      = raisedClass
          (PyRuntime.wait hpx {} shown true (as.map .future) numReturns (.finite 0) w).1 ↔
    ∀ k, numReturns = .int k → 1 ≤ k → k ≤ as.length → k < 2 ^ 31 ∧
      ∀ pre, beforeRepeat [] as = some pre → ∀ a ∈ pre, w.objs a ≠ none := by
  by_cases hne : as = []
  · subst hne
    refine iff_of_true rfl fun k _ h1 hk => ?_
    rw [List.length_nil] at hk
    omega
  · rcases count_class as.length numReturns with ⟨k, -, ⟨k', hk', h1, hk⟩, hnum⟩ | ⟨⟨e, he⟩, hno⟩
    · subst hnum
      cases hk'
      rw [wait_none_class hc hne h1 hk, wait_zero_class hne h1 hk]
      have hagree : firstBad w.objs [] as = polledBad w.objs [] as ↔
          ∀ pre, beforeRepeat [] as = some pre → ∀ a ∈ pre, w.objs a ≠ none :=
        firstBad_agree [] as (by simp)
      by_cases hlt : k < 2 ^ 31
      · rw [if_pos hlt, hagree]
        constructor
        · intro h k' hk' _ _
          cases hk'
          exact ⟨hlt, h⟩
        · intro h
          exact (h k rfl h1 hk).2
      · rw [if_neg hlt]
        refine iff_of_false (fun h => polledBad_ne [] h.symm) fun h => ?_
        exact hlt (h k rfl h1 hk).1
    · refine iff_of_true ?_ fun k hk h1 hle => absurd ⟨k, hk, h1, hle⟩ hno
      rw [wait_badCount hne he, wait_badCount hne he]

/-- `[retired, pending, pending]` -/
def retiredFirst : World := ⟨0, fun a => if a = 0 then none else some a⟩

theorem wait_agree_pending :
    raisedClass (PyRuntime.wait promptHpx {} (fun _ => "") true ([1, 2].map .future) (.int 2) .none
      retiredFirst).1 = raisedClass (PyRuntime.wait promptHpx {} (fun _ => "") true
        ([1, 2].map .future) (.int 2) (.finite 0) retiredFirst).1 := by
  refine (wait_agree_iff promptHpx (fun _ _ _ h => by cases h) _ _ _ _).mpr fun k hk _ _ => ?_
  cases hk
  exact ⟨by decide, fun pre h => by cases h⟩

/-- blocking names the retired future, polling the repeated one -/
theorem wait_disagree :
    raisedClass (PyRuntime.wait promptHpx {} (fun _ => "") true ([0, 1, 1].map .future) (.int 1)
      .none retiredFirst).1 = some .runtimeError ∧
    raisedClass (PyRuntime.wait promptHpx {} (fun _ => "") true ([0, 1, 1].map .future) (.int 1)
      (.finite 0) retiredFirst).1 = some .valueError := by
  decide

end RayX