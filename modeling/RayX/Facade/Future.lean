import RayX.Lib.Owned
import RayX.Lane.Cancel

/-!
# Futures and results of the Python facade

`RuntimeFuture` of `_rayx.cpp` with its Python wrapper, and `OperationResult`: one future on one
promise of one lane, read once.

* `OperationResult.value`   the value, or one of the two errors;
* `RuntimeFuture.result`, `ready`   over what the promise holds; `result` waits for it;
* `getFrom`                 `Runtime.get`: the futures of a list, one after the other.
-/

namespace RayX
open Sys
namespace Facade

/-! ## results -/

/-- the text of a status in a row -/
def statusText : Status → String
  | .completed => "completed"
  | .failed => "failed"
  | .cancelled => "cancelled"

structure ResultRow where
  actorId : String
  submitNs : Int
  startNs : Int64
  endNs : Int64
  totalMs : Float
  queueWaitMs : Float
  serviceMsObserved : Float
  status : Status
  error : Option String

/-- `_value` is `None` when there is no value -/
structure OperationResult where
  held : Option OpValue
  hasValue : Bool
  status : Status
  error : Option String
  row : ResultRow

inductive OperationError where
  | operationCancelled (msg : String)
  | operationFailed (msg : String)

/-- the property `value` -/
def OperationResult.value (o : OperationResult) : Except OperationError (Option OpValue) :=
  if o.status = .completed ∧ o.hasValue = true then .ok o.held
  else if o.status = .cancelled then
    .error (.operationCancelled ("operation was cancelled; no value is available "
      ++ s!"(status={pyRepr (statusText o.status)})"))
  else
    let detail := match o.error with
      | some e => if e = "" then "" else s!", error={pyRepr e}"
      | none => ""
    .error (.operationFailed ("operation did not complete; no value is available "
      ++ s!"(status={pyRepr (statusText o.status)}{detail})"))

section
variable {o : OperationResult}

theorem OperationResult.value_completed (h : o.status = .completed) (hv : o.hasValue = true) :
    o.value = .ok o.held := by
  unfold value
  rw [if_pos ⟨h, hv⟩]

theorem OperationResult.value_cancelled (h : o.status = .cancelled) :
    o.value = .error (.operationCancelled ("operation was cancelled; no value is available "
      ++ s!"(status={pyRepr (statusText .cancelled)})")) := by
  have hno : ¬ (o.status = .completed ∧ o.hasValue = true) := by
    rw [h]
    exact fun h => Status.noConfusion h.1
  unfold value
  rw [if_neg hno, if_pos h, h]

theorem OperationResult.value_failed (h : o.status = .failed) {e : String} (he : o.error = some e)
    (hne : e ≠ "") : o.value = .error (.operationFailed
      ("operation did not complete; no value is available "
        ++ s!"(status={pyRepr (statusText .failed)}, error={pyRepr e})")) := by
  have hno : ¬ (o.status = .completed ∧ o.hasValue = true) := by
    rw [h]
    exact fun h => Status.noConfusion h.1
  have hcanc : ¬ o.status = .cancelled := by
    rw [h]
    exact Status.noConfusion
  unfold value
  rw [if_neg hno, if_neg hcanc, he, h]
  simp only [if_neg hne, statusText, String.append_assoc, toString]

end

/-! ## futures -/

/-- where the promise and the token of a future are: an operation lane or the lane of an actor -/
inductive Place where
  | op (k : Nat)
  | actor (k : Nat)
  deriving DecidableEq, Repr

/-- `fut` is `fut_.valid()`; `got` is what `result()` has returned so far -/
structure RuntimeFuture where
  place : Place
  id : Nat
  submitNs : Int
  fut : Bool := true
  retired : Bool := false
  got : List OperationResult := []

namespace RuntimeFuture

/-- the promise of the future -/
def key (f : RuntimeFuture) : Place × Nat := (f.place, f.id)

/-- `None` for an empty text -/
def errorField (error : String) : Option String := if error = "" then none else some error

/-- the Python half of `result()`, from the dictionary of the native half -/
def operationResult (f : RuntimeFuture) (r : RuntimeResult) (recvNs : Int) : OperationResult :=
  let totalMs := Float.ofInt (recvNs - f.submitNs) / 1e6
  let serviceMs := (r.endNs - r.startNs).toFloat / 1e6
  -- both clocks in one difference: an estimate, and never below zero
  let queueWaitMs := if totalMs - serviceMs < 0.0 then 0.0 else totalMs - serviceMs
  { held := if r.hasValue then some r.value else none
    hasValue := r.hasValue
    status := r.status
    error := errorField r.error
    row := { actorId := r.actorId
             submitNs := f.submitNs
             startNs := r.startNs
             endNs := r.endNs
             totalMs := totalMs
             queueWaitMs := queueWaitMs
             serviceMsObserved := serviceMs
             status := r.status
             error := errorField r.error } }

/-- the future after `fut_.get()` and the Python bookkeeping -/
def retire (f : RuntimeFuture) (o : OperationResult) : RuntimeFuture :=
  { f with fut := false, retired := true, got := f.got ++ [o] }

/-- `result()` on the promise; `none`: it waits -/
def result (f : RuntimeFuture) (prom : List RuntimeResult) (recvNs : Int) :
    Option (Except PyErr OperationResult × RuntimeFuture) :=
  if f.fut = false then
    some (runtimeError ("RuntimeFuture is invalid (already retired via result()); "
      ++ "cannot call result() again"), f)
  else
    match prom with
    | [] => none
    | r :: _ => some (.ok (f.operationResult r recvNs), f.retire (f.operationResult r recvNs))

def ready (f : RuntimeFuture) (prom : List RuntimeResult) : Except PyErr Bool :=
  if f.fut = false then
    runtimeError "RuntimeFuture is invalid (already retired via result()); cannot query ready()"
  else .ok (!prom.isEmpty)

/-- how a result was made from the row of the promise -/
def Made (f : RuntimeFuture) (r : RuntimeResult) (o : OperationResult) : Prop :=
  f.retired = true ∧ ∃ recvNs, o = f.operationResult r recvNs

def handles : Handles RuntimeFuture (Place × Nat) OperationResult where
  key := key
  valid := fut
  got := got

variable {f f' : RuntimeFuture} {prom : List RuntimeResult} {recvNs : Int}

theorem result_retired (h : f.fut = false) : f.result prom recvNs =
    some (runtimeError ("RuntimeFuture is invalid (already retired via result()); "
      ++ "cannot call result() again"), f) := by
  unfold result
  rw [if_pos h]

/-- a call that returns has read the promise and left the future without its state -/
theorem result_ok {o : OperationResult} (h : f.result prom recvNs = some (.ok o, f')) :
    f.fut = true ∧ ∃ r rest, prom = r :: rest ∧ o = f.operationResult r recvNs ∧
      f' = f.retire o := by
  unfold result at h
  split at h
  · cases h
  · rename_i hf
    split at h
    · cases h
    · rename_i r rest
      cases h
      exact ⟨by simpa using hf, r, rest, rfl, rfl, rfl⟩

/-- a call that raises changes nothing -/
theorem result_error {e : PyErr} (h : f.result prom recvNs = some (.error e, f')) :
    f.fut = false ∧ f' = f := by
  unfold result at h
  split at h
  · rename_i hf
    cases h
    exact ⟨hf, rfl⟩
  · split at h <;> cases h

end RuntimeFuture

/-! ## several futures -/

/-- `Runtime.get` of the list of the objects at the addresses `is`, where `board` is what the
promises come to hold; `none`: it waits for ever -/
def getFrom (board : Place × Nat → List RuntimeResult) (clock : Nat → Int) :
    List Nat → List RuntimeFuture →
      Option (Except PyErr (List OperationResult) × List RuntimeFuture)
  | [], fs => some (.ok [], fs)
  | i :: is, fs =>
    match fs[i]? with
    | none => none
    | some f =>
      match f.result (board f.key) (clock is.length) with
      | none => none
      | some (.error e, _) => some (.error e, fs)
      | some (.ok o, f') =>
        match getFrom board clock is (fs.set i f') with
        | none => none
        | some (.ok os, fs') => some (.ok (o :: os), fs')
        -- the results so far are lost with the list under construction
        | some (.error e, fs') => some (.error e, fs')

end Facade
end RayX
