import RayX.Lib.Prog
import Mathlib.Algebra.Group.Nat.Defs
import Mathlib.Logic.Basic

/-!
# Values, outcomes and rows of the runtime

* `OpValue`, `OpArgs`, `OpType`   the closed value channel: `int64` or `double`;
* `asInt64`, `asDouble`           typed extraction, the native backstop behind the Python checks;
* `OpOutcome`, `RuntimeResult`    what a body returns, what a promise is fulfilled with;
* `OpEntry`                       one registered operation;
* `resultOf`                      the mapping of a body's end to a row (`make_op_task`).
-/

namespace RayX
open Sys

/-! ## values -/

inductive OpValue where
  | int64 (v : Int64)
  | double (v : Float)

abbrev OpArgs := List OpValue

inductive OpType where
  | int64
  | double
  deriving DecidableEq, Repr

/-- what a body can throw; `other` is a throw that is no `std::exception` -/
inductive Exc where
  | invalidArgument (what : String)
  | runtimeError (what : String)
  | other
  deriving DecidableEq, Repr

/-- `static_cast<int>` of a size -/
def intOfSize (n : Nat) : Int := (Int32.ofNat n).toInt

theorem intOfSize_eq {n : Nat} (h : n < 2 ^ 31) : intOfSize n = n := Int32.toInt_ofNat_of_lt h

def asInt64 (a : OpArgs) (i : Nat) (op : String) : Except Exc Int64 :=
  match a[i]? with
  | some (.int64 v) => .ok v
  | _ => .error (.invalidArgument
      ("operation '" ++ op ++ "' argument " ++ toString i ++ " must be int64"))

def asDouble (a : OpArgs) (i : Nat) (op : String) : Except Exc Float :=
  match a[i]? with
  | some (.double v) => .ok v
  | _ => .error (.invalidArgument
      ("operation '" ++ op ++ "' argument " ++ toString i ++ " must be double"))

/-! ## outcomes and rows -/

inductive Status where
  | completed
  | failed
  | cancelled
  deriving DecidableEq, Repr

structure OpOutcome where
  value : OpValue := .int64 0
  hasValue : Bool := false
  status : Status := .completed
  error : String := ""

structure RuntimeResult where
  actorId : String := ""
  startNs : Int64 := 0
  endNs : Int64 := 0
  status : Status := .completed
  error : String := ""
  value : OpValue := .int64 0
  hasValue : Bool := false

/-- the outcome of an honored running cancel -/
def OpOutcome.cancelled : OpOutcome := { hasValue := false, status := .cancelled }

def OpOutcome.done (v : OpValue) : OpOutcome := { value := v, hasValue := true }

inductive DispatchPolicy where
  | inline
  | async
  deriving DecidableEq, Repr

/-- a body: typed arguments in, outcome out; it polls the stop predicate through `Prog.poll` -/
abbrev OpFn (σ : Type) := OpArgs → Prog σ Exc OpOutcome

structure OpEntry (σ : Type) where
  arity : Nat
  fn : OpFn σ
  checkpointCount : OpArgs → Int
  argTypes : List OpType
  resultType : OpType := .int64
  policy : DispatchPolicy := .async

def oneCheckpoint (_ : OpArgs) : Int := 1

/-! ## the service-slot closure -/

section
variable {σ : Type}

/-- `unknown` is the text for a throw that is no `std::exception` -/
def failure (unknown : String) : Exc → OpOutcome
  | .invalidArgument what => { status := .failed, error := what }
  | .runtimeError what => { status := .failed, error := what }
  | .other => { status := .failed, error := unknown }

/-- the row of an outcome; the value of a failed body is the default one -/
def resultOf (actor : String) (startNs endNs : Int64) (o : OpOutcome) : RuntimeResult :=
  { actorId := actor, startNs := startNs, endNs := endNs, status := o.status, error := o.error,
    value := o.value, hasValue := o.hasValue }

/-- clock, body with its throws mapped to a failed outcome, clock -/
def serviceTask (unknown : String) (actor : String) (body : Prog σ Exc OpOutcome) :
    Prog σ Exc RuntimeResult := do
  let startNs ← Prog.clock
  let o ← body.catch_ (fun e => pure (failure unknown e))
  let endNs ← Prog.clock
  pure (resultOf actor startNs endNs o)

def makeOpTask (fn : OpFn σ) (args : OpArgs) (actor : String) : Prog σ Exc RuntimeResult :=
  serviceTask "operation failed with a non-std::exception" actor (fn args)

/-- The row of a service task has the outcome of its body, and no throw leaves the task. -/
theorem serviceTask_wp {unknown actor : String} {body : Prog σ Exc OpOutcome} {s : σ}
    {Q : Except Exc RuntimeResult → σ → Prop}
    (h : body.wp (fun r s' => ∀ t₁ t₂, match r with
      | .ok o => Q (.ok (resultOf actor t₁ t₂ o)) s'
      | .error e => Q (.ok (resultOf actor t₁ t₂ (failure unknown e))) s') s) :
    (serviceTask unknown actor body).wp Q s := by
  intro t₁
  refine Prog.wp_bind (body.catch_ _) _ s (Prog.wp_catch body _ s ?_)
  refine Prog.wp_mono ?_ body s h
  intro r s' hr
  cases r with
  | ok o => exact fun t₂ => hr t₁ t₂
  | error e => exact fun t₂ => hr t₁ t₂

/-- no throw of its body leaves a service task -/
theorem serviceTask_ok {unknown actor : String} {body : Prog σ Exc OpOutcome} {s : σ} :
    (serviceTask unknown actor body).wp (fun r _ => ∃ row, r = .ok row) s := by
  refine serviceTask_wp (Prog.wp_mono ?_ body s (body.wp_true s))
  intro r s' _ t₁ t₂
  cases r with
  | ok o => exact ⟨_, rfl⟩
  | error e => exact ⟨_, rfl⟩

/-- A service task polls as its body does. -/
theorem serviceTask_polls {unknown actor : String} {body : Prog σ Exc OpOutcome} {n : Nat}
    {D S : Except Exc OpOutcome → Prop} {D' S' : Except Exc RuntimeResult → Prop}
    (h : body.Polls D S n)
    (hD : ∀ o t₁ t₂, D (.ok o) → D' (.ok (resultOf actor t₁ t₂ o)))
    (hDe : ∀ e t₁ t₂, D (.error e) → D' (.ok (resultOf actor t₁ t₂ (failure unknown e))))
    (hS : ∀ o t₁ t₂, S (.ok o) → S' (.ok (resultOf actor t₁ t₂ o)))
    (hSe : ∀ e t₁ t₂, S (.error e) → S' (.ok (resultOf actor t₁ t₂ (failure unknown e)))) :
    (serviceTask unknown actor body).Polls D' S' n := by
  intro t₁
  have hc : (body.catch_ (fun e => pure (failure unknown e))).Polls
      (fun r => ∃ o, r = .ok o ∧ ∀ t₂, D' (.ok (resultOf actor t₁ t₂ o)))
      (fun r => ∃ o, r = .ok o ∧ ∀ t₂, S' (.ok (resultOf actor t₁ t₂ o))) n := by
    refine h.catch_ ?_ ?_ ?_ ?_
    · exact fun o ho => ⟨o, rfl, fun t₂ => hD o t₁ t₂ ho⟩
    · exact fun e he => ⟨_, rfl, fun t₂ => hDe e t₁ t₂ he⟩
    · exact fun o ho => ⟨o, rfl, fun t₂ => hS o t₁ t₂ ho⟩
    · exact fun e he => ⟨_, rfl, fun t₂ => hSe e t₁ t₂ he⟩
  refine hc.bind ?_ ?_ ?_ ?_
  · rintro o ⟨o', ho, h'⟩
    cases ho
    exact h'
  · rintro e ⟨o', ho, _⟩
    cases ho
  · rintro o ⟨o', ho, h'⟩
    cases ho
    exact h'
  · rintro e ⟨o', ho, _⟩
    cases ho

end

end RayX
