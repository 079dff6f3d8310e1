import RayX.Lib.Loan
import RayX.Lib.Signed

/-!
# The native wait

`RuntimeEngine::wait` and `Engine::wait` of `_rayx.cpp`: the futures are moved out of their wrapper
objects into a vector, `hpx::wait_some` blocks on the vector, and a guard moves them back on every
exit.

* `Objects`           the wrapper objects, each with its future; `none` is a future without a state;
* `Hpx`               `hpx::wait_some`, and when which shared state is ready;
* `Failures`          the allocations that fail;
* `waitFutures`       the body of both functions;
* `checkEntries_spec` the entries that pass the checks are different valid futures;
* `wait_keeps`        **after every exit each future object holds what it held before**.
-/

namespace RayX
open Sys

/-! ## exits -/

/-- the class of an exception, as Python sees it -/
inductive WaitClass where
  | typeError
  | valueError
  | runtimeError
  | memoryError
  | attributeError
  | notImplementedError
  deriving DecidableEq

structure WaitErr where
  cls : WaitClass
  msg : String
  deriving DecidableEq

/-- how a call ends: `blocked` waits for ever, `crashed` has dereferenced a null pointer -/
inductive Exit (α : Type) where
  | returned (a : α)
  | raised (e : WaitErr)
  | blocked
  | crashed
  deriving DecidableEq

def Exit.bind {α β : Type} (x : Exit α) (f : α → Exit β) : Exit β :=
  match x with
  | .returned a => f a
  | .raised e => .raised e
  | .blocked => .blocked
  | .crashed => .crashed

def Exit.map {α β : Type} (f : α → β) (x : Exit α) : Exit β := x.bind fun a => .returned (f a)

/-! ## the world -/

/-- the future of each wrapper object, by its address; a future is its shared state -/
abbrev Objects := Nat → Option Nat

inductive WaitAnswer where
  /-- at a time -/
  | returns (t : Nat)
  | raises
  | blocks

/-- the part of HPX that a wait uses.  `waitSome t k v` is `wait_some` called at time `t`, with the
vector after it; `query t i` is the time of query `i` of a loop that starts at `t`. -/
structure Hpx where
  waitSome : Nat → Nat → List (Option Nat) → WaitAnswer × List (Option Nat)
  ready : Nat → Nat → Bool
  query : Nat → Nat → Nat

/-- `is_ready()`; a future without a state is not ready -/
def Hpx.isReady (hpx : Hpx) (t : Nat) (f : Option Nat) : Bool := f.any (hpx.ready t)

/-- the allocations of a call that fail: both reserves of the checks, an insertion, the vector, an
append -/
structure Failures where
  rfs : Bool := false
  seen : Bool := false
  insert : Nat → Bool := fun _ => false
  tmp : Bool := false
  append : Nat → Bool := fun _ => false

/-- an element of the list, under the cast to a pointer to the wrapper class -/
inductive Entry where
  | future (addr : Nat)
  | none
  | other

/-- the texts in which the two functions differ -/
structure WaitTexts where
  down : String
  retired : String
  duplicate : String

structure World where
  now : Nat
  objs : Objects

def badAlloc : WaitErr := ⟨.memoryError, "std::bad_alloc"⟩

/-! ## the body -/

section
variable (txt : WaitTexts) (hpx : Hpx) (fail : Failures)

/-- the loop over the entries: the pointers, in order -/
def checkEntries (objs : Objects) : Nat → List Entry → List Nat → Exit (List Nat)
  | _, [], _ => .returned []
  | _, .other :: _, _ => .raised ⟨.runtimeError, "Unable to cast Python instance to C++ type"⟩
  | _, .none :: _, _ => .crashed
  | i, .future a :: es, seen =>
    if objs a = none then .raised ⟨.runtimeError, txt.retired⟩
    else if fail.insert i then .raised badAlloc
    else if a ∈ seen then .raised ⟨.valueError, txt.duplicate⟩
    else (checkEntries objs (i + 1) es (a :: seen)).map (a :: ·)

/-- the list of the ready indices, each cast to `int` -/
def readyIndices (t : Nat) : Nat → List (Option Nat) → Exit (List Int)
  | _, [] => .returned []
  | i, f :: fs =>
    if hpx.isReady (hpx.query t i) f then
      if fail.append i then .raised badAlloc
      else (readyIndices t (i + 1) fs).map ((Int32.ofNat i).toInt :: ·)
    else readyIndices t (i + 1) fs

/-- the checks of the arguments, and the two reserves -/
def waitArgs (running : Bool) (n : Nat) (numReturns : Int) : Exit Unit :=
  if running = false then .raised ⟨.runtimeError, txt.down⟩
  else if n = 0 then .raised ⟨.valueError, "wait() got an empty futures list"⟩
  else if numReturns < 1 then .raised ⟨.valueError, "num_returns must be >= 1"⟩
  else if n < numReturns.toNat then
    .raised ⟨.valueError, "num_returns must be <= len(futures)"⟩
  else if fail.rfs then .raised badAlloc
  else if fail.seen then .raised badAlloc
  else .returned ()

/-- everything before the take loop: the pointers of the entries -/
def screen (running : Bool) (futures : List Entry) (numReturns : Int) (objs : Objects) :
    Exit (List Nat) :=
  (waitArgs txt fail running futures.length numReturns).bind fun _ =>
    (checkEntries txt fail objs 0 futures []).bind fun rfs =>
      if fail.tmp then .raised badAlloc else .returned rfs

/-- the take loop and what follows: the guard moves back as many futures as were taken -/
def waitTaken (rfs : List Nat) (numReturns : Int) (w : World) : Exit (List Int) × World :=
  let taken := Loan.take rfs w.objs
  match hpx.waitSome w.now numReturns.toNat taken.1 with
  | (.returns t, tmp) =>
    (readyIndices hpx fail t 0 tmp, ⟨hpx.query t tmp.length, Loan.put rfs tmp taken.2⟩)
  | (.raises, tmp) =>
    (.raised ⟨.runtimeError, "wait_some"⟩, ⟨w.now, Loan.put rfs tmp taken.2⟩)
  | (.blocks, _) => (.blocked, ⟨w.now, taken.2⟩)

def waitFutures (running : Bool) (futures : List Entry) (numReturns : Int) (w : World) :
    Exit (List Int) × World :=
  match screen txt fail running futures numReturns w.objs with
  | .returned rfs => waitTaken hpx fail rfs numReturns w
  | .raised e => (.raised e, w)
  | .blocked => (.blocked, w)
  | .crashed => (.crashed, w)

end

def runtimeTexts : WaitTexts where
  down := "Runtime is shut down"
  retired := "wait() received a RuntimeFuture already retired via result()"
  duplicate := "wait() received the same RuntimeFuture more than once; each future may appear at most once"

def engineTexts : WaitTexts where
  down := "Engine is shut down"
  retired := "wait() received a Future already retired via result()"
  duplicate := "wait() received the same Future more than once; each Future may appear at most once"

/-- `RuntimeEngine::wait` -/
def RuntimeEngine.wait (hpx : Hpx) (fail : Failures) (running : Bool) (futures : List Entry)
    (numReturns : Int) (w : World) : Exit (List Int) × World :=
  waitFutures runtimeTexts hpx fail running futures numReturns w

/-- `Engine::wait` -/
def Engine.wait (hpx : Hpx) (fail : Failures) (running : Bool) (futures : List Entry)
    (numReturns : Int) (w : World) : Exit (List Int) × World :=
  waitFutures engineTexts hpx fail running futures numReturns w

/-! ## the checks -/

section
variable {txt : WaitTexts} {hpx : Hpx} {fail : Failures} {objs : Objects}

theorem Exit.bind_returned {α β : Type} {f : α → Exit β} {x : Exit α} {b : β}
    (h : x.bind f = .returned b) : ∃ a, x = .returned a ∧ f a = .returned b := by
  cases x with
  | returned a => exact ⟨a, rfl, h⟩
  | raised e => cases h
  | blocked => cases h
  | crashed => cases h

theorem Exit.map_returned {α β : Type} {f : α → β} {x : Exit α} {b : β}
    (h : x.map f = .returned b) : ∃ a, x = .returned a ∧ f a = b := by
  obtain ⟨a, ha, hb⟩ := Exit.bind_returned h
  exact ⟨a, ha, Exit.returned.inj hb⟩

/-- **Entries that pass are wrappers of valid futures, no two the same.** -/
theorem checkEntries_spec {i : Nat} {es : List Entry} {seen rfs : List Nat}
    (h : checkEntries txt fail objs i es seen = .returned rfs) :
    es = rfs.map .future ∧ rfs.Nodup ∧ (∀ a ∈ rfs, a ∉ seen) ∧ ∀ a ∈ rfs, objs a ≠ none := by
  induction es generalizing i seen rfs with
  | nil =>
    cases h
    exact ⟨rfl, List.nodup_nil, by simp, by simp⟩
  | cons e es ih =>
    cases e with
    | other => cases h
    | none => cases h
    | future a =>
      rw [checkEntries] at h
      split at h
      · cases h
      · rename_i hvalid
        split at h
        · cases h
        · split at h
          · cases h
          · rename_i hnew
            obtain ⟨rest, hrest, rfl⟩ := Exit.map_returned h
            obtain ⟨hes, hnodup, hfresh, hall⟩ := ih hrest
            refine ⟨by rw [hes]; rfl, List.nodup_cons.mpr ⟨fun ha => ?_, hnodup⟩, ?_, ?_⟩
            · exact hfresh a ha List.mem_cons_self
            · intro b hb
              rcases List.mem_cons.mp hb with rfl | hb
              · exact hnew
              · exact fun hs => hfresh b hb (List.mem_cons_of_mem _ hs)
            · intro b hb
              rcases List.mem_cons.mp hb with rfl | hb
              · exact hvalid
              · exact hall b hb

/-- a call of `wait_some` leaves the vector as it was -/
def Hpx.Keeps (hpx : Hpx) : Prop := ∀ t k v, (hpx.waitSome t k v).2 = v

/-- an exit other than waiting for ever or a crash -/
def Exit.Ends {α : Type} (x : Exit α) : Prop := x ≠ .blocked ∧ x ≠ .crashed

instance {α : Type} [DecidableEq α] (x : Exit α) : Decidable x.Ends :=
  inferInstanceAs (Decidable (_ ∧ _))

/-- what was taken is back -/
theorem waitTaken_objs (hk : hpx.Keeps) {rfs : List Nat} (hn : rfs.Nodup) {numReturns : Int}
    {w : World} (h : (waitTaken hpx fail rfs numReturns w).1.Ends) :
    (waitTaken hpx fail rfs numReturns w).2.objs = w.objs := by
  have hkeep := hk w.now numReturns.toNat (Loan.take rfs w.objs).1
  have hback := Loan.put_take (s := w.objs) hn
  unfold waitTaken at h ⊢
  dsimp only at h ⊢
  rcases hws : hpx.waitSome w.now numReturns.toNat (Loan.take rfs w.objs).1 with ⟨answer, tmp⟩
  rw [hws] at hkeep h
  have htmp : tmp = (Loan.take rfs w.objs).1 := hkeep
  cases answer with
  | returns t =>
    show Loan.put rfs tmp (Loan.take rfs w.objs).2 = w.objs
    rw [htmp, hback]
  | raises =>
    show Loan.put rfs tmp (Loan.take rfs w.objs).2 = w.objs
    rw [htmp, hback]
  | blocks => exact absurd rfl h.1

/-- what passes the checks before the take loop -/
theorem admit_spec {running : Bool} {futures : List Entry} {numReturns : Int} {rfs : List Nat}
    (h : screen txt fail running futures numReturns objs = .returned rfs) :
    futures = rfs.map .future ∧ rfs.Nodup ∧ ∀ a ∈ rfs, objs a ≠ none := by
  obtain ⟨_, -, h⟩ := Exit.bind_returned h
  obtain ⟨rfs', hcheck, h⟩ := Exit.bind_returned h
  obtain ⟨hes, hnodup, -, hall⟩ := checkEntries_spec hcheck
  split at h
  · cases h
  · cases h
    exact ⟨hes, hnodup, hall⟩

theorem waitFutures_objs (hk : hpx.Keeps) {running : Bool} {futures : List Entry}
    {numReturns : Int} {w : World}
    (h : (waitFutures txt hpx fail running futures numReturns w).1.Ends) :
    (waitFutures txt hpx fail running futures numReturns w).2.objs = w.objs := by
  unfold waitFutures at h ⊢
  cases ha : screen txt fail running futures numReturns w.objs with
  | returned rfs =>
    rw [ha] at h
    exact waitTaken_objs hk (admit_spec ha).2.1 h
  | raised e => rfl
  | blocked => rfl
  | crashed => rfl

end

/-- **`wait` never corrupts a future**: for every list, every failing allocation, and whether
`wait_some` returns or throws, each future object holds after the call the future it held before. -/
theorem wait_keeps (hpx : Hpx) (hk : hpx.Keeps) (fail : Failures) (running : Bool)
    (futures : List Entry) (numReturns : Int) (w : World) :
    ((RuntimeEngine.wait hpx fail running futures numReturns w).1.Ends →
      (RuntimeEngine.wait hpx fail running futures numReturns w).2.objs = w.objs) ∧
    ((Engine.wait hpx fail running futures numReturns w).1.Ends →
      (Engine.wait hpx fail running futures numReturns w).2.objs = w.objs) :=
  ⟨waitFutures_objs hk, waitFutures_objs hk⟩

/-- everything is ready when `wait_some` is called -/
def promptHpx : Hpx where
  waitSome t _ v := (.returns t, v)
  ready _ _ := true
  query t i := t + i + 1

/-- two valid futures -/
def twoFutures : World := ⟨0, fun a => if a < 2 then some (a + 10) else none⟩

theorem wait_keeps_two :
    (RuntimeEngine.wait promptHpx {} true [.future 0, .future 1] 1 twoFutures).1
      = .returned [0, 1] ∧
    (RuntimeEngine.wait promptHpx {} true [.future 0, .future 1] 1 twoFutures).2.objs
      = twoFutures.objs ∧
    (Engine.wait promptHpx { append := fun _ => true } true [.future 1] 1 twoFutures).2.objs
      = twoFutures.objs := by
  refine ⟨by decide, ?_, ?_⟩
  · exact (wait_keeps promptHpx (fun _ _ _ => rfl) {} true [.future 0, .future 1] 1 twoFutures).1
      (by decide)
  · exact (wait_keeps promptHpx (fun _ _ _ => rfl) { append := fun _ => true } true [.future 1] 1
      twoFutures).2 (by decide)

end RayX
