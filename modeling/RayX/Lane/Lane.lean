import RayX.Lane.Token
import RayX.Lib.Run
import Mathlib.Logic.Function.Basic
import Mathlib.Data.List.Basic

/-!
# The lane

`RuntimeLane` as a step function.  Every critical section of the lane mutex or of a token mutex is
one step, and so is every effect of a body; the label says who moves.

* `Lane`   the fields of the source, the program counters of its threads (`consumer`, `svc` for
           the bodies and their continuations, `pending` for `cancel_pending`, `stopper` for
           `stop_and_join`, `cancelling` for the client calls that still owe a `set_value`), and
           the histories `admitted`, `prom` and `answers`;
* `step`   one step; `none` when it is not enabled;
* `Step`   the same as a relation, one constructor for each branch of the source, `step_sound`.

The promise and the token of an item are named by its `id`, its place in the order of admission.
-/

namespace RayX
open Sys

inductive LaneMode where
  | serialBlocking
  | asyncNonBlocking
  deriving DecidableEq, Repr

structure Item (σ : Type) where
  task : Prog σ Exc RuntimeResult
  checkpointCount : Int := 1
  policy : DispatchPolicy := .async
  id : Nat

/-- where the service of an item stands: the body runs, it has ended, `mark_finished` is done, the
promise is set and the slot is not released yet -/
inductive Svc (σ : Type) where
  | body (t : Prog σ Exc RuntimeResult)
  | outcome (r : RuntimeResult)
  | settled (r : RuntimeResult)
  | fulfilled

/-- the consumer thread, `run_serial` or `run_nonblocking` -/
inductive Consumer (σ : Type) where
  | waiting
  | popped (it : Item σ)
  | began (it : Item σ)
  | registered (it : Item σ)
  | serving (it : Item σ)
  | clearing
  | cleared
  | exited

/-- the thread in `cancel_pending`: collected tokens, or a promise to set first -/
inductive Pending where
  | idle
  | cancelling (todo : List Nat)
  | fulfilling (i : Nat) (todo : List Nat)
  deriving DecidableEq, Repr

/-- the thread in `stop_and_join` -/
inductive Stopper where
  | idle
  | joining
  | awaiting
  | returned
  deriving DecidableEq, Repr

structure Lane (σ : Type) where
  actorId : String
  mode : LaneMode
  maxInflight : Int
  queue : List (Item σ) := []
  stop : Bool := false
  active : Bool := false
  activeTok : Option Nat := none
  inflight : Int := 0
  inflightToks : List Nat := []
  consumer : Consumer σ := .waiting
  pending : Pending := .idle
  stopper : Stopper := .idle
  cancelling : List Nat := []
  admitted : List (Item σ) := []
  tok : Nat → Token := fun _ => {}
  prom : Nat → List RuntimeResult := fun _ => []
  svc : Nat → Option (Svc σ) := fun _ => none
  answers : Nat → List Bool := fun _ => []
  state : σ

inductive Act (σ : Type) where
  | submit (task : Prog σ Exc RuntimeResult) (checkpointCount : Int) (policy : DispatchPolicy)
  | trySubmit (task : Prog σ Exc RuntimeResult) (maxQueueDepth : Int) (checkpointCount : Int)
      (policy : DispatchPolicy)
  | cancel (i : Nat)
  | cancelFulfil (i : Nat) (now : Int64)
  | pop
  | exit
  | beginService
  | dispatch
  | launch
  | serve (i : Nat) (now : Int64)
  | markFinished (i : Nat)
  | setValue (i : Nat)
  | release (i : Nat)
  | clearTok
  | clearActive
  | collect
  | cpCancel
  | cpFulfil (now : Int64)
  | cpReturn
  | stopBegin
  | join
  | awaitInflight

section
variable {σ : Type}

def Consumer.item? : Consumer σ → Option (Item σ)
  | .popped it => some it
  | .began it => some it
  | .registered it => some it
  | .serving it => some it
  | _ => none

/-- the consumer serves item `i` itself -/
def Consumer.serves (c : Consumer σ) (i : Nat) : Bool :=
  match c with
  | .serving it => it.id == i
  | _ => false

/-- the row of a body whose future throws -/
def dispatchRow (actorId : String) : RuntimeResult :=
  { actorId := actorId, status := .failed, error := "runtime dispatch failed", hasValue := false }

def rowOf (actorId : String) : Except Exc RuntimeResult → RuntimeResult
  | .ok r => r
  | .error _ => dispatchRow actorId

namespace Lane

/-- the constructor; the cap is at least one -/
def create (actorId : String) (mode : LaneMode) (maxInflight : Int) (state : σ) : Lane σ :=
  { actorId := actorId, mode := mode, maxInflight := if maxInflight < 1 then 1 else maxInflight,
    state := state }

/-- `tok->arm` and the push of the item -/
def push (s : Lane σ) (task : Prog σ Exc RuntimeResult) (checkpointCount : Int)
    (policy : DispatchPolicy) : Lane σ :=
  let it : Item σ := { task, checkpointCount, policy, id := s.admitted.length }
  { s with queue := s.queue ++ [it], admitted := s.admitted ++ [it] }

/-- the critical section of `cancel()`, its answer logged -/
def cancelTok (s : Lane σ) (i : Nat) : Lane σ :=
  { s with
    tok := Function.update s.tok i (s.tok i).cancel.1
    answers := Function.update s.answers i (s.answers i ++ [(s.tok i).cancel.2.returned]) }

def fulfil (s : Lane σ) (i : Nat) (r : RuntimeResult) : Lane σ :=
  { s with prom := Function.update s.prom i (s.prom i ++ [r]) }

def setSvc (s : Lane σ) (i : Nat) (v : Option (Svc σ)) : Lane σ :=
  { s with svc := Function.update s.svc i v }

def setTok (s : Lane σ) (i : Nat) (t : Token) : Lane σ :=
  { s with tok := Function.update s.tok i t }

/-- the tokens that `cancel_pending` collects -/
def pendingToks (s : Lane σ) : List Nat :=
  s.queue.map Item.id ++ s.activeTok.toList ++ s.inflightToks

/-- in `SerialBlocking` a stopped or a filled queue is enough, in `AsyncNonBlocking` a free slot is
needed unless the lane stops -/
def mayPop (s : Lane σ) : Bool :=
  match s.mode with
  | .serialBlocking => true
  | .asyncNonBlocking => s.stop || decide (s.inflight < s.maxInflight)

/-- what the consumer does after an item: `clear_active()` first in `SerialBlocking` -/
def afterItem (s : Lane σ) : Consumer σ :=
  match s.mode with
  | .serialBlocking => .clearing
  | .asyncNonBlocking => .waiting

/-- the body runs on the consumer, or the consumer waits for it -/
def servesHere (s : Lane σ) (it : Item σ) : Prop := s.mode = .serialBlocking ∨ it.policy = .inline

instance (s : Lane σ) (it : Item σ) : Decidable (s.servesHere it) :=
  inferInstanceAs (Decidable (_ ∨ _))

/-- a cancelled outcome leaves the token to the cancel state machine -/
def finished (r : RuntimeResult) (t : Token) : Token :=
  if r.status = .cancelled then t else t.markFinished

def step (s : Lane σ) : Act σ → Option (Lane σ)
  | .submit task cc policy => if s.stop then none else some (s.push task cc policy)
  | .trySubmit task depth cc policy =>
    if s.stop then none
    else if depth ≤ intOfSize s.queue.length then some s
    else some (s.push task cc policy)
  | .cancel i =>
    if i < s.admitted.length then
      some { s.cancelTok i with
             cancelling := if (s.tok i).cancel.2 = .fulfil then i :: s.cancelling
                           else s.cancelling }
    else none
  | .cancelFulfil i now =>
    if i ∈ s.cancelling then
      some { s.fulfil i (Token.cancelRow s.actorId now) with cancelling := s.cancelling.erase i }
    else none
  | .pop =>
    match s.consumer, s.queue with
    | .waiting, it :: queue =>
      if s.mayPop then
        some { s with queue := queue
                      consumer := .popped it
                      active := s.mode == .serialBlocking || s.active
                      activeTok := if s.mode = .serialBlocking then some it.id else s.activeTok }
      else none
    | _, _ => none
  | .exit =>
    match s.consumer, s.queue with
    | .waiting, [] => if s.stop then some { s with consumer := .exited } else none
    | _, _ => none
  | .beginService =>
    match s.consumer with
    | .popped it =>
      if ((s.tok it.id).beginService it.checkpointCount).2 then
        some { s.setTok it.id ((s.tok it.id).beginService it.checkpointCount).1 with
               consumer := .began it }
      else some { s with consumer := s.afterItem }
    | _ => none
  | .dispatch =>
    match s.consumer with
    | .began it =>
      if s.servesHere it then
        some { s.setSvc it.id (some (.body it.task)) with consumer := .serving it }
      else
        some { s with inflight := s.inflight + 1
                      inflightToks := s.inflightToks ++ [it.id]
                      consumer := .registered it }
    | _ => none
  | .launch =>
    match s.consumer with
    | .registered it => some { s.setSvc it.id (some (.body it.task)) with consumer := .waiting }
    | _ => none
  | .serve i now =>
    match s.svc i with
    | some (.body t) =>
      match t.result with
      | some r => some (s.setSvc i (some (.outcome (rowOf s.actorId r))))
      | none =>
        match t.step Token.stopAtBoundary now s.state (s.tok i) with
        | some (t', st, tk) => some { (s.setTok i tk).setSvc i (some (.body t')) with state := st }
        | none => none
    | _ => none
  | .markFinished i =>
    match s.svc i with
    | some (.outcome r) => some ((s.setTok i (finished r (s.tok i))).setSvc i (some (.settled r)))
    | _ => none
  | .setValue i =>
    match s.svc i with
    | some (.settled r) =>
      if s.consumer.serves i then
        some { (s.fulfil i r).setSvc i none with consumer := s.afterItem }
      else some ((s.fulfil i r).setSvc i (some .fulfilled))
    | _ => none
  | .release i =>
    match s.svc i with
    | some .fulfilled =>
      some { s.setSvc i none with inflight := s.inflight - 1
                                  inflightToks := s.inflightToks.erase i }
    | _ => none
  | .clearTok =>
    match s.consumer with
    | .clearing => some { s with activeTok := none, consumer := .cleared }
    | _ => none
  | .clearActive =>
    match s.consumer with
    | .cleared => some { s with active := false, consumer := .waiting }
    | _ => none
  | .collect =>
    match s.pending with
    | .idle => some { s with pending := .cancelling s.pendingToks }
    | _ => none
  | .cpCancel =>
    match s.pending with
    | .cancelling (i :: todo) =>
      some { s.cancelTok i with
             pending := if (s.tok i).cancel.2 = .fulfil then .fulfilling i todo
                        else .cancelling todo }
    | _ => none
  | .cpFulfil now =>
    match s.pending with
    | .fulfilling i todo =>
      some { s.fulfil i (Token.cancelRow s.actorId now) with pending := .cancelling todo }
    | _ => none
  | .cpReturn =>
    match s.pending with
    | .cancelling [] => some { s with pending := .idle }
    | _ => none
  | .stopBegin =>
    match s.stopper with
    | .idle => some { s with stop := true, stopper := .joining }
    | _ => none
  | .join =>
    match s.stopper, s.consumer with
    | .joining, .exited =>
      some { s with stopper := if s.mode = .asyncNonBlocking then .awaiting else .returned }
    | _, _ => none
  | .awaitInflight =>
    match s.stopper with
    | .awaiting => if s.inflight = 0 then some { s with stopper := .returned } else none
    | _ => none

/-! ## the branches as a relation -/

inductive Step (s : Lane σ) : Act σ → Lane σ → Prop where
  | submit {task cc policy} (hs : s.stop = false) :
    Step s (.submit task cc policy) (s.push task cc policy)
  | accept {task cc policy} {depth : Int} (hs : s.stop = false)
      (hd : intOfSize s.queue.length < depth) :
    Step s (.trySubmit task depth cc policy) (s.push task cc policy)
  | reject {task cc policy} {depth : Int} (hs : s.stop = false)
      (hd : depth ≤ intOfSize s.queue.length) :
    Step s (.trySubmit task depth cc policy) s
  | cancel {i} (hi : i < s.admitted.length) :
    Step s (.cancel i) { s.cancelTok i with
      cancelling := if (s.tok i).cancel.2 = .fulfil then i :: s.cancelling else s.cancelling }
  | cancelFulfil {i now} (hi : i ∈ s.cancelling) :
    Step s (.cancelFulfil i now) { s.fulfil i (Token.cancelRow s.actorId now) with
      cancelling := s.cancelling.erase i }
  | pop {it queue} (hc : s.consumer = .waiting) (hq : s.queue = it :: queue)
      (hp : s.mayPop = true) :
    Step s .pop { s with
      queue := queue
      consumer := .popped it
      active := s.mode == .serialBlocking || s.active
      activeTok := if s.mode = .serialBlocking then some it.id else s.activeTok }
  | exit (hc : s.consumer = .waiting) (hq : s.queue = []) (hs : s.stop = true) :
    Step s .exit { s with consumer := .exited }
  | begins {it} (hc : s.consumer = .popped it)
      (hb : ((s.tok it.id).beginService it.checkpointCount).2 = true) :
    Step s .beginService
      { s.setTok it.id ((s.tok it.id).beginService it.checkpointCount).1 with
        consumer := .began it }
  | skips {it} (hc : s.consumer = .popped it)
      (hb : ((s.tok it.id).beginService it.checkpointCount).2 = false) :
    Step s .beginService { s with consumer := s.afterItem }
  | starts {it} (hc : s.consumer = .began it) (hh : s.servesHere it) :
    Step s .dispatch { s.setSvc it.id (some (.body it.task)) with consumer := .serving it }
  | registers {it} (hc : s.consumer = .began it) (hh : ¬ s.servesHere it) :
    Step s .dispatch { s with
      inflight := s.inflight + 1
      inflightToks := s.inflightToks ++ [it.id]
      consumer := .registered it }
  | launch {it} (hc : s.consumer = .registered it) :
    Step s .launch { s.setSvc it.id (some (.body it.task)) with consumer := .waiting }
  | ends {i now t r} (hv : s.svc i = some (.body t)) (hr : t.result = some r) :
    Step s (.serve i now) (s.setSvc i (some (.outcome (rowOf s.actorId r))))
  | effect {i now t t' st tk} (hv : s.svc i = some (.body t)) (hr : t.result = none)
      (ht : t.step Token.stopAtBoundary now s.state (s.tok i) = some (t', st, tk)) :
    Step s (.serve i now) { (s.setTok i tk).setSvc i (some (.body t')) with state := st }
  | markFinished {i r} (hv : s.svc i = some (.outcome r)) :
    Step s (.markFinished i) ((s.setTok i (finished r (s.tok i))).setSvc i (some (.settled r)))
  | setHere {i r} (hv : s.svc i = some (.settled r)) (hc : s.consumer.serves i = true) :
    Step s (.setValue i) { (s.fulfil i r).setSvc i none with consumer := s.afterItem }
  | setThere {i r} (hv : s.svc i = some (.settled r)) (hc : s.consumer.serves i = false) :
    Step s (.setValue i) ((s.fulfil i r).setSvc i (some .fulfilled))
  | release {i} (hv : s.svc i = some .fulfilled) :
    Step s (.release i) { s.setSvc i none with
      inflight := s.inflight - 1
      inflightToks := s.inflightToks.erase i }
  | clearTok (hc : s.consumer = .clearing) :
    Step s .clearTok { s with activeTok := none, consumer := .cleared }
  | clearActive (hc : s.consumer = .cleared) :
    Step s .clearActive { s with active := false, consumer := .waiting }
  | collect (hp : s.pending = .idle) :
    Step s .collect { s with pending := .cancelling s.pendingToks }
  | cpCancel {i todo} (hp : s.pending = .cancelling (i :: todo)) :
    Step s .cpCancel { s.cancelTok i with
      pending := if (s.tok i).cancel.2 = .fulfil then .fulfilling i todo else .cancelling todo }
  | cpFulfil {i todo now} (hp : s.pending = .fulfilling i todo) :
    Step s (.cpFulfil now) { s.fulfil i (Token.cancelRow s.actorId now) with
      pending := .cancelling todo }
  | cpReturn (hp : s.pending = .cancelling []) : Step s .cpReturn { s with pending := .idle }
  | stopBegin (hs : s.stopper = .idle) :
    Step s .stopBegin { s with stop := true, stopper := .joining }
  | join (hs : s.stopper = .joining) (hc : s.consumer = .exited) :
    Step s .join { s with
      stopper := if s.mode = .asyncNonBlocking then .awaiting else .returned }
  | awaitInflight (hs : s.stopper = .awaiting) (hi : s.inflight = 0) :
    Step s .awaitInflight { s with stopper := .returned }

section
variable {s s' : Lane σ}

theorem submit_sound {task : Prog σ Exc RuntimeResult} {cc : Int} {policy : DispatchPolicy}
    (h : s.step (.submit task cc policy) = some s') : Step s (.submit task cc policy) s' := by
  unfold step at h
  simp only [Option.ite_none_left_eq_some, Bool.not_eq_true, Option.some.injEq] at h
  obtain ⟨hs, rfl⟩ := h
  exact .submit hs

theorem trySubmit_sound {task : Prog σ Exc RuntimeResult} {depth cc : Int} {policy : DispatchPolicy}
    (h : s.step (.trySubmit task depth cc policy) = some s') :
    Step s (.trySubmit task depth cc policy) s' := by
  unfold step at h
  simp only [Option.ite_none_left_eq_some, Bool.not_eq_true] at h
  obtain ⟨hs, h⟩ := h
  split at h
  · rename_i hd
    cases h
    exact .reject hs hd
  · rename_i hd
    cases h
    exact .accept hs (Int.not_le.mp hd)

theorem cancel_sound {i : Nat} (h : s.step (.cancel i) = some s') : Step s (.cancel i) s' := by
  unfold step at h
  simp only [Option.ite_none_right_eq_some, Option.some.injEq] at h
  obtain ⟨hi, rfl⟩ := h
  exact .cancel hi

theorem cancelFulfil_sound {i : Nat} {now : Int64}
    (h : s.step (.cancelFulfil i now) = some s') : Step s (.cancelFulfil i now) s' := by
  unfold step at h
  simp only [Option.ite_none_right_eq_some, Option.some.injEq] at h
  obtain ⟨hi, rfl⟩ := h
  exact .cancelFulfil hi

theorem pop_sound (h : s.step .pop = some s') : Step s .pop s' := by
  unfold step at h
  dsimp only at h
  split at h
  · rename_i it queue hc hq
    simp only [Option.ite_none_right_eq_some, Option.some.injEq] at h
    obtain ⟨hp, rfl⟩ := h
    exact .pop hc hq hp
  · cases h

theorem exit_sound (h : s.step .exit = some s') : Step s .exit s' := by
  unfold step at h
  dsimp only at h
  split at h
  · rename_i hc hq
    simp only [Option.ite_none_right_eq_some, Option.some.injEq] at h
    obtain ⟨hs, rfl⟩ := h
    exact .exit hc hq hs
  · cases h

theorem beginService_sound (h : s.step .beginService = some s') : Step s .beginService s' := by
  unfold step at h
  dsimp only at h
  split at h
  · rename_i it hc
    split at h
    · rename_i hb
      cases h
      exact .begins hc hb
    · rename_i hb
      cases h
      exact .skips hc (Bool.eq_false_iff.mpr hb)
  · cases h

theorem dispatch_sound (h : s.step .dispatch = some s') : Step s .dispatch s' := by
  unfold step at h
  dsimp only at h
  split at h
  · rename_i it hc
    split at h
    · rename_i hh
      cases h
      exact .starts hc hh
    · rename_i hh
      cases h
      exact .registers hc hh
  · cases h

theorem launch_sound (h : s.step .launch = some s') : Step s .launch s' := by
  unfold step at h
  dsimp only at h
  split at h
  · rename_i it hc
    cases h
    exact .launch hc
  · cases h

theorem serve_sound {i : Nat} {now : Int64}
    (h : s.step (.serve i now) = some s') : Step s (.serve i now) s' := by
  unfold step at h
  dsimp only at h
  split at h
  · rename_i t hv
    split at h
    · rename_i r hr
      cases h
      exact .ends hv hr
    · rename_i hr
      split at h
      · rename_i t' st tk ht
        cases h
        exact .effect hv hr ht
      · cases h
  · cases h

theorem markFinished_sound {i : Nat}
    (h : s.step (.markFinished i) = some s') : Step s (.markFinished i) s' := by
  unfold step at h
  dsimp only at h
  split at h
  · rename_i r hv
    cases h
    exact .markFinished hv
  · cases h

theorem setValue_sound {i : Nat}
    (h : s.step (.setValue i) = some s') : Step s (.setValue i) s' := by
  unfold step at h
  dsimp only at h
  split at h
  · rename_i r hv
    split at h
    · rename_i hc
      cases h
      exact .setHere hv hc
    · rename_i hc
      cases h
      exact .setThere hv (Bool.eq_false_iff.mpr hc)
  · cases h

theorem release_sound {i : Nat} (h : s.step (.release i) = some s') : Step s (.release i) s' := by
  unfold step at h
  dsimp only at h
  split at h
  · rename_i hv
    cases h
    exact .release hv
  · cases h

theorem clearTok_sound (h : s.step .clearTok = some s') : Step s .clearTok s' := by
  unfold step at h
  dsimp only at h
  split at h
  · rename_i hc
    cases h
    exact .clearTok hc
  · cases h

theorem clearActive_sound (h : s.step .clearActive = some s') : Step s .clearActive s' := by
  unfold step at h
  dsimp only at h
  split at h
  · rename_i hc
    cases h
    exact .clearActive hc
  · cases h

theorem collect_sound (h : s.step .collect = some s') : Step s .collect s' := by
  unfold step at h
  dsimp only at h
  split at h
  · rename_i hp
    cases h
    exact .collect hp
  · cases h

theorem cpCancel_sound (h : s.step .cpCancel = some s') : Step s .cpCancel s' := by
  unfold step at h
  dsimp only at h
  split at h
  · rename_i i todo hp
    cases h
    exact .cpCancel hp
  · cases h

theorem cpFulfil_sound {now : Int64}
    (h : s.step (.cpFulfil now) = some s') : Step s (.cpFulfil now) s' := by
  unfold step at h
  dsimp only at h
  split at h
  · rename_i i todo hp
    cases h
    exact .cpFulfil hp
  · cases h

theorem cpReturn_sound (h : s.step .cpReturn = some s') : Step s .cpReturn s' := by
  unfold step at h
  dsimp only at h
  split at h
  · rename_i hp
    cases h
    exact .cpReturn hp
  · cases h

theorem stopBegin_sound (h : s.step .stopBegin = some s') : Step s .stopBegin s' := by
  unfold step at h
  dsimp only at h
  split at h
  · rename_i hs
    cases h
    exact .stopBegin hs
  · cases h

theorem join_sound (h : s.step .join = some s') : Step s .join s' := by
  unfold step at h
  dsimp only at h
  split at h
  · rename_i hs hc
    cases h
    exact .join hs hc
  · cases h

theorem awaitInflight_sound (h : s.step .awaitInflight = some s') : Step s .awaitInflight s' := by
  unfold step at h
  dsimp only at h
  split at h
  · rename_i hs
    simp only [Option.ite_none_right_eq_some, Option.some.injEq] at h
    obtain ⟨hi, rfl⟩ := h
    exact .awaitInflight hs hi
  · cases h

/-- every step of the function is one of the branches -/
theorem step_sound {a : Act σ} (h : s.step a = some s') : Step s a s' := by
  cases a with
  | submit _ _ _ => exact submit_sound h
  | trySubmit _ _ _ _ => exact trySubmit_sound h
  | cancel _ => exact cancel_sound h
  | cancelFulfil _ _ => exact cancelFulfil_sound h
  | pop => exact pop_sound h
  | exit => exact exit_sound h
  | beginService => exact beginService_sound h
  | dispatch => exact dispatch_sound h
  | launch => exact launch_sound h
  | serve _ _ => exact serve_sound h
  | markFinished _ => exact markFinished_sound h
  | setValue _ => exact setValue_sound h
  | release _ => exact release_sound h
  | clearTok => exact clearTok_sound h
  | clearActive => exact clearActive_sound h
  | collect => exact collect_sound h
  | cpCancel => exact cpCancel_sound h
  | cpFulfil _ => exact cpFulfil_sound h
  | cpReturn => exact cpReturn_sound h
  | stopBegin => exact stopBegin_sound h
  | join => exact join_sound h
  | awaitInflight => exact awaitInflight_sound h

end

end Lane

end

end RayX
