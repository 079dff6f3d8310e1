import RayX.Harness.Service
import RayX.Lib.Run
import Mathlib.Logic.Function.Basic
import Mathlib.Data.List.Basic

/-!
# The harness lane

`ServiceLane` and `HpxLane` as one step function: they differ in the prefix of their actor id, in the
kind of their mutex and thread, and in the wait of a sleep.  Every critical section of the lane mutex
or of a token mutex is one step, and so is every effect of a service; the label says who moves.

* `ServiceLane`       the fields of the source, the consumer thread, the destructor, the client calls
                      of `cancel()` that still owe a `set_value`, and the histories;
* `submit`, `trySubmit`, `submitBulk`   the three ways in, each with the futures it returns;
* `step`, `Step`      one step, and the same as a relation with one constructor for each branch;
* `Fifo`              the queue is the part of the admitted items that is not popped yet, and
                      `Fifo.step`.

The promise, the future and the token of an item are named by its `id`, its place in the order of
admission.
-/

namespace RayX
open Sys

namespace Harness

inductive LaneImpl where
  | std
  | hpx
  deriving DecidableEq, Repr

/-- the prefix of `make_actor_id()` -/
def LaneImpl.actorPrefix : LaneImpl → String
  | .std => "act-hpx-"
  | .hpx => "act-hpxl-"

section
variable {D : Type} [Millis D]

/-- `cancelable`: there is a token -/
structure Item (D : Type) [Millis D] where
  req : Request D
  cancelable : Bool
  enqueueNs : Int64 := 0
  queueDepth : Int := 0
  id : Nat

/-- the thread in `run()` -/
inductive Consumer (D : Type) [Millis D] where
  | waiting
  | popped (it : Item D)
  | began (it : Item D)
  | serving (it : Item D) (r : Result) (p : Prog Unit String (Option Int))
  | ending (it : Item D) (r : Result)
  | computed (it : Item D) (r : Result)
  | clearing
  | exited

def Consumer.item? : Consumer D → Option (Item D)
  | .popped it => some it
  | .began it => some it
  | .serving it _ _ => some it
  | .ending it _ => some it
  | .computed it _ => some it
  | _ => none

/-- the thread in the destructor -/
inductive Dtor where
  | idle
  | joining
  | returned
  deriving DecidableEq, Repr

structure ServiceLane (D : Type) [Millis D] where
  actorId : String
  diag : Bool := false
  queue : List (Item D) := []
  stop : Bool := false
  active : Bool := false
  consumer : Consumer D := .waiting
  dtor : Dtor := .idle
  cancelling : List Nat := []
  admitted : List (Item D) := []
  popped : Nat := 0
  tok : Nat → CancelToken := fun _ => {}
  prom : Nat → List Result := fun _ => []
  answers : Nat → List Bool := fun _ => []
  produced : List (Nat × Result) := []

inductive Act (D : Type) [Millis D] where
  | submit (req : Request D) (cancelable : Bool) (now : Int64)
  | trySubmit (req : Request D) (maxQueueDepth : Int) (cancelable : Bool) (now : Int64)
  | submitBulk (reqs : List (Request D × Int64))
  | cancel (i : Nat)
  | cancelFulfil (i : Nat) (now : Int64)
  | pop
  | exit
  | beginService
  | start (now : Int64)
  | serve (now : Int64)
  | finish (now : Int64)
  | setValue
  | clearActive
  | dtorBegin
  | join

namespace ServiceLane

/-- the constructor; `hex` are the digits that `make_actor_id()` draws -/
def create (impl : LaneImpl) (hex : String) (diag : Bool) : ServiceLane D :=
  { actorId := impl.actorPrefix ++ hex, diag := diag }

/-! ## the ways in -/

/-- `now` is read with `diag_` only -/
def newItem (s : ServiceLane D) (req : Request D) (cancelable : Bool) (now : Int64) : Item D :=
  { req := req, cancelable := cancelable, id := s.admitted.length
    enqueueNs := if s.diag then now else 0
    queueDepth := if s.diag then s.queue.length + 1 else 0 }

def push (s : ServiceLane D) (req : Request D) (cancelable : Bool) (now : Int64) : ServiceLane D :=
  { s with queue := s.queue ++ [s.newItem req cancelable now]
           admitted := s.admitted ++ [s.newItem req cancelable now] }

def submit (s : ServiceLane D) (req : Request D) (cancelable : Bool) (now : Int64) :
    ServiceLane D × Nat :=
  (s.push req cancelable now, s.admitted.length)

/-- `none`: the lane is full -/
def trySubmit (s : ServiceLane D) (req : Request D) (maxQueueDepth : Int) (cancelable : Bool)
    (now : Int64) : ServiceLane D × Option Nat :=
  if maxQueueDepth ≤ intOfSize s.queue.length then (s, none)
  else (s.push req cancelable now, some s.admitted.length)

/-- the pushes under one lock -/
def pushAll (s : ServiceLane D) (reqs : List (Request D × Int64)) : ServiceLane D :=
  reqs.foldl (fun s q => s.push q.1 false q.2) s

/-- one future for each request, in their order -/
def submitBulk (s : ServiceLane D) (reqs : List (Request D × Int64)) : ServiceLane D × List Nat :=
  (s.pushAll reqs, (List.range reqs.length).map (fun k => s.admitted.length + k))

/-! ## the steps -/

/-- the critical section of `cancel()`, its answer logged -/
def cancelTok (s : ServiceLane D) (i : Nat) : ServiceLane D :=
  { s with
    tok := Function.update s.tok i (s.tok i).cancel.1
    answers := Function.update s.answers i (s.answers i ++ [(s.tok i).cancel.2.returned])
    cancelling := if (s.tok i).cancel.2 = .fulfil then i :: s.cancelling else s.cancelling }

def fulfil (s : ServiceLane D) (i : Nat) (r : Result) : ServiceLane D :=
  { s with prom := Function.update s.prom i (s.prom i ++ [r]) }

def setTok (s : ServiceLane D) (i : Nat) (t : CancelToken) : ServiceLane D :=
  { s with tok := Function.update s.tok i t }

/-- the token of an item, if it has one, after the end of its service -/
def settle (it : Item D) (out : Except String (Option Int)) (t : CancelToken) : CancelToken :=
  if it.cancelable then markCompleted t out else t

/-- the row of an item with its diagnostic fields -/
def finishRow (it : Item D) (r : Result) (now : Int64) : Result :=
  { r with endNs := now, enqueueNs := it.enqueueNs, queueDepthAtEnqueue := it.queueDepth }

def step (s : ServiceLane D) : Act D → Option (ServiceLane D)
  | .submit req cancelable now => if s.stop then none else some (s.submit req cancelable now).1
  | .trySubmit req depth cancelable now =>
    if s.stop then none else some (s.trySubmit req depth cancelable now).1
  | .submitBulk reqs => if s.stop then none else some (s.submitBulk reqs).1
  | .cancel i =>
    match s.admitted[i]? with
    | some it => if it.cancelable then some (s.cancelTok i) else none
    | none => none
  | .cancelFulfil i now =>
    match s.admitted[i]? with
    | some it =>
      if i ∈ s.cancelling then
        some { s.fulfil i (CancelToken.row s.actorId it.req.submitNs now) with
               cancelling := s.cancelling.erase i }
      else none
    | none => none
  | .pop =>
    match s.consumer, s.queue with
    | .waiting, it :: queue =>
      some { s with queue := queue, popped := s.popped + 1, consumer := .popped it, active := true }
    | _, _ => none
  | .exit =>
    match s.consumer, s.queue with
    | .waiting, [] => if s.stop then some { s with consumer := .exited } else none
    | _, _ => none
  | .beginService =>
    match s.consumer with
    | .popped it =>
      if it.cancelable then
        if ((s.tok it.id).beginService it.req.chunks).2 then
          some { s.setTok it.id ((s.tok it.id).beginService it.req.chunks).1 with
                 consumer := .began it }
        else some { s with consumer := .clearing }
      else some { s with consumer := .began it }
    | _ => none
  | .start now =>
    match s.consumer with
    | .began it =>
      some { s with consumer := .serving it (startRow it.req s.actorId now)
                                  (serviceBody it.req it.cancelable) }
    | _ => none
  | .serve now =>
    match s.consumer with
    | .serving it r p =>
      match p.result with
      | some out =>
        some { s.setTok it.id (settle it out (s.tok it.id)) with
               consumer := .ending it (outcomeRow it.req r out) }
      | none =>
        match p.step Token.stopAtBoundary now () (s.tok it.id) with
        | some (p', _, tk) => some { s.setTok it.id tk with consumer := .serving it r p' }
        | none => none
    | _ => none
  | .finish now =>
    match s.consumer with
    | .ending it r => some { s with consumer := .computed it (finishRow it r now) }
    | _ => none
  | .setValue =>
    match s.consumer with
    | .computed it r =>
      some { s.fulfil it.id r with consumer := .clearing, produced := s.produced ++ [(it.id, r)] }
    | _ => none
  | .clearActive =>
    match s.consumer with
    | .clearing => some { s with consumer := .waiting, active := false }
    | _ => none
  | .dtorBegin =>
    match s.dtor with
    | .idle => some { s with stop := true, dtor := .joining }
    | _ => none
  | .join =>
    match s.dtor, s.consumer with
    | .joining, .exited => some { s with dtor := .returned }
    | _, _ => none

/-! ## the branches as a relation -/

inductive Step (s : ServiceLane D) : Act D → ServiceLane D → Prop where
  | submit {req cancelable now} (hs : s.stop = false) :
    Step s (.submit req cancelable now) (s.push req cancelable now)
  | accept {req cancelable now} {depth : Int} (hs : s.stop = false)
      (hd : intOfSize s.queue.length < depth) :
    Step s (.trySubmit req depth cancelable now) (s.push req cancelable now)
  | reject {req cancelable now} {depth : Int} (hs : s.stop = false)
      (hd : depth ≤ intOfSize s.queue.length) :
    Step s (.trySubmit req depth cancelable now) s
  | submitBulk {reqs} (hs : s.stop = false) : Step s (.submitBulk reqs) (s.pushAll reqs)
  | cancel {i it} (hi : s.admitted[i]? = some it) (hc : it.cancelable = true) :
    Step s (.cancel i) (s.cancelTok i)
  | cancelFulfil {i now it} (hi : s.admitted[i]? = some it) (hm : i ∈ s.cancelling) :
    Step s (.cancelFulfil i now)
      { s.fulfil i (CancelToken.row s.actorId it.req.submitNs now) with
        cancelling := s.cancelling.erase i }
  | pop {it queue} (hc : s.consumer = .waiting) (hq : s.queue = it :: queue) :
    Step s .pop
      { s with queue := queue, popped := s.popped + 1, consumer := .popped it, active := true }
  | exit (hc : s.consumer = .waiting) (hq : s.queue = []) (hs : s.stop = true) :
    Step s .exit { s with consumer := .exited }
  | begins {it} (hc : s.consumer = .popped it) (ht : it.cancelable = true)
      (hb : ((s.tok it.id).beginService it.req.chunks).2 = true) :
    Step s .beginService
      { s.setTok it.id ((s.tok it.id).beginService it.req.chunks).1 with consumer := .began it }
  | skips {it} (hc : s.consumer = .popped it) (ht : it.cancelable = true)
      (hb : ((s.tok it.id).beginService it.req.chunks).2 = false) :
    Step s .beginService { s with consumer := .clearing }
  | beginsBare {it} (hc : s.consumer = .popped it) (ht : it.cancelable = false) :
    Step s .beginService { s with consumer := .began it }
  | start {it now} (hc : s.consumer = .began it) :
    Step s (.start now) { s with
      consumer := .serving it (startRow it.req s.actorId now) (serviceBody it.req it.cancelable) }
  | ends {it r p out now} (hc : s.consumer = .serving it r p) (hr : p.result = some out) :
    Step s (.serve now) { s.setTok it.id (settle it out (s.tok it.id)) with
      consumer := .ending it (outcomeRow it.req r out) }
  | effect {it r p p' now tk} (hc : s.consumer = .serving it r p) (hr : p.result = none)
      (hp : p.step Token.stopAtBoundary now () (s.tok it.id) = some (p', (), tk)) :
    Step s (.serve now) { s.setTok it.id tk with consumer := .serving it r p' }
  | finish {it r now} (hc : s.consumer = .ending it r) :
    Step s (.finish now) { s with consumer := .computed it (finishRow it r now) }
  | setValue {it r} (hc : s.consumer = .computed it r) :
    Step s .setValue
      { s.fulfil it.id r with consumer := .clearing, produced := s.produced ++ [(it.id, r)] }
  | clearActive (hc : s.consumer = .clearing) :
    Step s .clearActive { s with consumer := .waiting, active := false }
  | dtorBegin (hd : s.dtor = .idle) : Step s .dtorBegin { s with stop := true, dtor := .joining }
  | join (hd : s.dtor = .joining) (hc : s.consumer = .exited) :
    Step s .join { s with dtor := .returned }

section
variable {s s' : ServiceLane D}

theorem submit_sound {req : Request D} {cancelable : Bool} {now : Int64}
    (h : s.step (.submit req cancelable now) = some s') :
    Step s (.submit req cancelable now) s' := by
  unfold step at h
  simp only [Option.ite_none_left_eq_some, Bool.not_eq_true, Option.some.injEq] at h
  obtain ⟨hs, rfl⟩ := h
  exact .submit hs

theorem trySubmit_sound {req : Request D} {depth : Int} {cancelable : Bool} {now : Int64}
    (h : s.step (.trySubmit req depth cancelable now) = some s') :
    Step s (.trySubmit req depth cancelable now) s' := by
  unfold step at h
  simp only [Option.ite_none_left_eq_some, Bool.not_eq_true, Option.some.injEq] at h
  obtain ⟨hs, rfl⟩ := h
  unfold trySubmit
  split
  · rename_i hd
    exact .reject hs hd
  · rename_i hd
    exact .accept hs (Int.not_le.mp hd)

theorem submitBulk_sound {reqs : List (Request D × Int64)}
    (h : s.step (.submitBulk reqs) = some s') : Step s (.submitBulk reqs) s' := by
  unfold step at h
  simp only [Option.ite_none_left_eq_some, Bool.not_eq_true, Option.some.injEq] at h
  obtain ⟨hs, rfl⟩ := h
  exact .submitBulk hs

theorem cancel_sound {i : Nat} (h : s.step (.cancel i) = some s') : Step s (.cancel i) s' := by
  unfold step at h
  dsimp only at h
  split at h
  · rename_i it hi
    simp only [Option.ite_none_right_eq_some, Option.some.injEq] at h
    obtain ⟨hc, rfl⟩ := h
    exact .cancel hi hc
  · cases h

theorem cancelFulfil_sound {i : Nat} {now : Int64}
    (h : s.step (.cancelFulfil i now) = some s') : Step s (.cancelFulfil i now) s' := by
  unfold step at h
  dsimp only at h
  split at h
  · rename_i it hi
    simp only [Option.ite_none_right_eq_some, Option.some.injEq] at h
    obtain ⟨hm, rfl⟩ := h
    exact .cancelFulfil hi hm
  · cases h

theorem pop_sound (h : s.step .pop = some s') : Step s .pop s' := by
  unfold step at h
  dsimp only at h
  split at h
  · rename_i it queue hc hq
    cases h
    exact .pop hc hq
  · cases h

theorem exit_sound (h : s.step .exit = some s') : Step s .exit s' := by
  unfold step at h
  dsimp only at h
  split at h
  · rename_i hc hq
    simp only [Option.ite_none_right_eq_some, Option.some.injEq] at h
    obtain ⟨hs, rfl⟩ := h
    exact .exit hc hq hs
  · cases h

theorem beginService_sound (h : s.step .beginService = some s') : Step s .beginService s' := by
  unfold step at h
  dsimp only at h
  split at h
  · rename_i it hc
    split at h
    · rename_i ht
      split at h
      · rename_i hb
        cases h
        exact .begins hc ht hb
      · rename_i hb
        cases h
        exact .skips hc ht (Bool.eq_false_iff.mpr hb)
    · rename_i ht
      cases h
      exact .beginsBare hc (Bool.eq_false_iff.mpr ht)
  · cases h

theorem start_sound {now : Int64} (h : s.step (.start now) = some s') : Step s (.start now) s' := by
  unfold step at h
  dsimp only at h
  split at h
  · rename_i it hc
    cases h
    exact .start hc
  · cases h

theorem serve_sound {now : Int64} (h : s.step (.serve now) = some s') : Step s (.serve now) s' := by
  unfold step at h
  dsimp only at h
  split at h
  · rename_i it r p hc
    split at h
    · rename_i out hr
      cases h
      exact .ends hc hr
    · rename_i hr
      split at h
      · rename_i p' u tk hp
        cases h
        exact .effect hc hr hp
      · cases h
  · cases h

theorem finish_sound {now : Int64}
    (h : s.step (.finish now) = some s') : Step s (.finish now) s' := by
  unfold step at h
  dsimp only at h
  split at h
  · rename_i it r hc
    cases h
    exact .finish hc
  · cases h

theorem setValue_sound (h : s.step .setValue = some s') : Step s .setValue s' := by
  unfold step at h
  dsimp only at h
  split at h
  · rename_i it r hc
    cases h
    exact .setValue hc
  · cases h

theorem clearActive_sound (h : s.step .clearActive = some s') : Step s .clearActive s' := by
  unfold step at h
  dsimp only at h
  split at h
  · rename_i hc
    cases h
    exact .clearActive hc
  · cases h

theorem dtorBegin_sound (h : s.step .dtorBegin = some s') : Step s .dtorBegin s' := by
  unfold step at h
  dsimp only at h
  split at h
  · rename_i hd
    cases h
    exact .dtorBegin hd
  · cases h

theorem join_sound (h : s.step .join = some s') : Step s .join s' := by
  unfold step at h
  dsimp only at h
  split at h
  · rename_i hd hc
    cases h
    exact .join hd hc
  · cases h

/-- every step of the function is one of the branches -/
theorem step_sound {a : Act D} (h : s.step a = some s') : Step s a s' := by
  cases a with
  | submit _ _ _ => exact submit_sound h
  | trySubmit _ _ _ _ => exact trySubmit_sound h
  | submitBulk _ => exact submitBulk_sound h
  | cancel _ => exact cancel_sound h
  | cancelFulfil _ _ => exact cancelFulfil_sound h
  | pop => exact pop_sound h
  | exit => exact exit_sound h
  | beginService => exact beginService_sound h
  | start _ => exact start_sound h
  | serve _ => exact serve_sound h
  | finish _ => exact finish_sound h
  | setValue => exact setValue_sound h
  | clearActive => exact clearActive_sound h
  | dtorBegin => exact dtorBegin_sound h
  | join => exact join_sound h

end

/-! ## first in, first out -/

/-- the queue is what is left to pop, and the consumer holds the item popped last -/
structure Fifo (s : ServiceLane D) : Prop where
  bound : s.popped ≤ s.admitted.length
  queue : s.queue = s.admitted.drop s.popped
  ids : ∀ (i : Nat) (it : Item D), s.admitted[i]? = some it → it.id = i
  held : ∀ it : Item D, s.consumer.item? = some it →
    s.popped = it.id + 1 ∧ s.admitted[it.id]? = some it

variable {s s' : ServiceLane D}

theorem fifo_create (impl : LaneImpl) (hex : String) (diag : Bool) :
    (create impl hex diag : ServiceLane D).Fifo where
  bound := Nat.le_refl 0
  queue := rfl
  ids := fun _ _ h => nomatch h
  held := fun _ h => nomatch h

theorem Fifo.push (h : s.Fifo) (req : Request D) (cancelable : Bool) (now : Int64) :
    (s.push req cancelable now).Fifo := by
  have hadm : (s.push req cancelable now).admitted = s.admitted ++ [s.newItem req cancelable now] :=
    rfl
  refine ⟨?_, ?_, ?_, ?_⟩
  · rw [hadm, List.length_append]
    exact Nat.le_add_right_of_le h.bound
  · show s.queue ++ [s.newItem req cancelable now] = List.drop s.popped _
    rw [hadm, List.drop_append_of_le_length h.bound, h.queue]
  · intro i it hi
    rw [hadm] at hi
    by_cases hlt : i < s.admitted.length
    · rw [List.getElem?_append_left hlt] at hi
      exact h.ids i it hi
    · have heq : i = s.admitted.length := by
        have := (List.getElem?_eq_some_iff.mp hi).1
        rw [List.length_append, List.length_singleton] at this
        omega
      rw [heq, List.getElem?_concat_length] at hi
      cases hi
      exact heq.symm
  · intro it hit
    obtain ⟨hp, hget⟩ := h.held it hit
    refine ⟨hp, ?_⟩
    rw [hadm, List.getElem?_append_left (List.getElem?_eq_some_iff.mp hget).1]
    exact hget

theorem Fifo.pushAll (h : s.Fifo) (reqs : List (Request D × Int64)) : (s.pushAll reqs).Fifo := by
  induction reqs generalizing s with
  | nil => exact h
  | cons q reqs ih => exact ih (h.push q.1 false q.2)

/-- the items of the lane stay where they are, and the consumer holds the same item or none -/
theorem Fifo.keep (h : s.Fifo) (ha : s'.admitted = s.admitted) (hq : s'.queue = s.queue)
    (hp : s'.popped = s.popped)
    (hc : ∀ it, s'.consumer.item? = some it → s.consumer.item? = some it) : s'.Fifo where
  bound := by
    rw [ha, hp]
    exact h.bound
  queue := by
    rw [ha, hq, hp]
    exact h.queue
  ids := by
    rw [ha]
    exact h.ids
  held := by
    intro it hit
    rw [ha, hp]
    exact h.held it (hc it hit)

/-- the head of the queue is the next one in the order of admission -/
theorem Fifo.head (h : s.Fifo) {it : Item D} {queue : List (Item D)} (hq : s.queue = it :: queue) :
    it.id = s.popped ∧ s.admitted[it.id]? = some it := by
  have hget : s.admitted[s.popped]? = some it := by
    have := h.queue
    rw [hq] at this
    rw [← List.head?_drop, ← this]
    rfl
  have hid := h.ids s.popped it hget
  rw [hid]
  exact ⟨rfl, hget⟩

/-- **Every step keeps the order.** -/
theorem Fifo.step (h : s.Fifo) {a : Act D} (hs : Step s a s') : s'.Fifo := by
  cases hs with
  | submit hs => exact h.push _ _ _
  | accept hs hd => exact h.push _ _ _
  | reject hs hd => exact h
  | submitBulk hs => exact h.pushAll _
  | cancel hi hc => exact h.keep rfl rfl rfl (fun _ hit => hit)
  | cancelFulfil hi hm => exact h.keep rfl rfl rfl (fun _ hit => hit)
  | @pop it queue hc hq =>
    obtain ⟨hid, hget⟩ := h.head hq
    have hlt := (List.getElem?_eq_some_iff.mp hget).1
    refine ⟨?_, ?_, h.ids, ?_⟩
    · show s.popped + 1 ≤ s.admitted.length
      omega
    · show queue = s.admitted.drop (s.popped + 1)
      rw [← List.tail_drop, ← h.queue, hq]
      rfl
    · intro it' hit
      cases hit
      refine ⟨?_, hget⟩
      show s.popped + 1 = it.id + 1
      rw [hid]
  | exit hc hq hs => exact h.keep rfl rfl rfl (fun _ hit => nomatch hit)
  | begins hc ht hb =>
    refine h.keep rfl rfl rfl (fun _ hit => ?_)
    rw [hc]
    exact hit
  | skips hc ht hb => exact h.keep rfl rfl rfl (fun _ hit => nomatch hit)
  | beginsBare hc ht =>
    refine h.keep rfl rfl rfl (fun _ hit => ?_)
    rw [hc]
    exact hit
  | start hc =>
    refine h.keep rfl rfl rfl (fun _ hit => ?_)
    rw [hc]
    exact hit
  | ends hc hr =>
    refine h.keep rfl rfl rfl (fun _ hit => ?_)
    rw [hc]
    exact hit
  | effect hc hr hp =>
    refine h.keep rfl rfl rfl (fun _ hit => ?_)
    rw [hc]
    exact hit
  | finish hc =>
    refine h.keep rfl rfl rfl (fun _ hit => ?_)
    rw [hc]
    exact hit
  | setValue hc => exact h.keep rfl rfl rfl (fun _ hit => nomatch hit)
  | clearActive hc => exact h.keep rfl rfl rfl (fun _ hit => nomatch hit)
  | dtorBegin hd => exact h.keep rfl rfl rfl (fun _ hit => hit)
  | join hd hc => exact h.keep rfl rfl rfl (fun _ hit => hit)

theorem fifo_reach {impl : LaneImpl} {hex : String} {diag : Bool}
    (h : Reach ServiceLane.step (create impl hex diag) s) : s.Fifo :=
  h.inv (fun _ _ _ hf hs => hf.step (step_sound hs)) (fifo_create impl hex diag)

end ServiceLane

end

end Harness

end RayX
