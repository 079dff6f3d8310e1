import RayX.Harness.Lane
import Mathlib.Algebra.Group.Nat.Defs

/-!
# The engine over its lanes

`Engine` of `_rayx.cpp`: the round robin of `submit` and the two strategies of
`enqueue_round_robin`, with the consumers of the lanes in between at any point.

* `Engine`, `Engine.step`   the engine; a batch is a list of lane calls, one step each;
* `act`                     one request of a batch on its lane, with the future it gets;
* `acts_congr`              **lane by lane the same requests, in all the same effect**;
* `bulkCalls_filter`        a lane gets the same requests under both strategies.
-/

namespace RayX
open Sys

namespace Harness

section
variable {D : Type} [Millis D]

/-- a future, by its lane and its place there -/
abbrev Future := Nat × Nat

/-- `std::size_t` -/
def sizeMod : Nat := 2 ^ 64

/-- a lane call of a batch, with the indices of its requests -/
inductive LaneCall where
  | submitBulk (lane : Nat) (idx : List Nat)
  | submit (lane : Nat) (i : Nat)

/-- `enqueue_round_robin` between two lane calls -/
structure Enqueueing (D : Type) [Millis D] where
  reqs : List (Request D)
  ordered : List (Option Future)
  todo : List LaneCall

/-- a call that has returned; `none` in `submit` is a rejection by lane `lane` -/
inductive Called (D : Type) [Millis D] where
  | submit (req : Request D) (lane : Nat) (id : Option Nat)
  | batch (reqs : List (Request D)) (futs : List (Option Future))

structure Engine (D : Type) [Millis D] where
  numLanes : Nat
  one_lane : 0 < numLanes
  lanes : Nat → ServiceLane D
  rr : Nat := 0
  maxQdPerLane : Int := -1
  useBulkEnqueue : Bool := true
  call : Option (Enqueueing D) := none
  log : List (Called D) := []

inductive EngineAct (D : Type) [Millis D] where
  | submit (serviceMs : D) (workMode : String) (chunks : Int) (chunkDelayMs : D) (now : Int64)
  | submitBatch (serviceMs : D) (workMode : String) (nows : List Int64)
  | submitBatchVaried (serviceMsList : List (D × Int64)) (workMode : String)
  | enqueue
  | ret
  | lane (l : Nat) (a : Act D)
  | setBulkEnqueue (on : Bool)

/-- the steps that a lane makes on its own -/
def Act.inner : Act D → Bool
  | .submit _ _ _ => false
  | .trySubmit _ _ _ _ => false
  | .submitBulk _ => false
  | .dtorBegin => false
  | .join => false
  | _ => true

/-- the request of `submit` -/
def singleRequest (serviceMs : D) (workMode : String) (chunks : Int) (chunkDelayMs : D)
    (now : Int64) : Request D where
  serviceMsRequested := serviceMs
  workMode := workMode
  chunks := chunks
  chunkDelayMs := chunkDelayMs
  submitNs := now

/-- the requests of a batch with one service time -/
def batchRequests (serviceMs : D) (workMode : String) (nows : List Int64) : List (Request D) :=
  nows.map (fun now => { serviceMsRequested := serviceMs, workMode := workMode, submitNs := now })

/-- the requests of a batch with a service time each -/
def variedRequests (serviceMsList : List (D × Int64)) (workMode : String) : List (Request D) :=
  serviceMsList.map (fun q => { serviceMsRequested := q.1, workMode := workMode, submitNs := q.2 })

namespace Engine

/-- the constructor; its lanes read no clock on an enqueue -/
def create (impl : LaneImpl) (hex : Nat → String) (numLanes : Nat) (one_lane : 0 < numLanes)
    (maxQdPerLane : Int) : Engine D :=
  { numLanes := numLanes, one_lane := one_lane, maxQdPerLane := maxQdPerLane
    lanes := fun l => ServiceLane.create impl (hex l) false }

/-- the lane of request `i` of a batch that starts at `start` -/
def laneOf (numLanes start i : Nat) : Nat := (start + i) % sizeMod % numLanes

/-- `per_lane_idx[l]` -/
def laneIdx (numLanes start n l : Nat) : List Nat :=
  (List.range n).filter (fun i => laneOf numLanes start i == l)

/-- one `submit_bulk` for each lane that has requests -/
def bulkCalls (numLanes start n : Nat) : List LaneCall :=
  ((List.range numLanes).filter (fun l => !(laneIdx numLanes start n l).isEmpty)).map
    (fun l => .submitBulk l (laneIdx numLanes start n l))

/-- one `submit` for each request -/
def singleCalls (numLanes start n : Nat) : List LaneCall :=
  (List.range n).map (fun i => .submit (laneOf numLanes start i) i)

def setLane (e : Engine D) (l : Nat) (s : ServiceLane D) : Engine D :=
  { e with lanes := Function.update e.lanes l s }

/-- `ordered[idx[k]] = futs[k]` -/
def scatter (lane : Nat) (ordered : List (Option Future)) (idx ids : List Nat) :
    List (Option Future) :=
  (idx.zip ids).foldl (fun o x => o.set x.1 (some (lane, x.2))) ordered

def enqueueRoundRobin (e : Engine D) (reqs : List (Request D)) : Engine D :=
  { e with
    rr := (e.rr + reqs.length) % sizeMod
    call := some {
      reqs := reqs
      ordered := List.replicate reqs.length none
      todo := if e.useBulkEnqueue then bulkCalls e.numLanes e.rr reqs.length
        else singleCalls e.numLanes e.rr reqs.length } }

def submit (e : Engine D) (req : Request D) : Engine D :=
  let l := e.rr % e.numLanes
  let rr := (e.rr + 1) % sizeMod
  if 0 ≤ e.maxQdPerLane then
    let (s, id) := (e.lanes l).trySubmit req e.maxQdPerLane true 0
    { e.setLane l s with rr := rr, log := e.log ++ [.submit req l id] }
  else
    let (s, id) := (e.lanes l).submit req true 0
    { e.setLane l s with rr := rr, log := e.log ++ [.submit req l (some id)] }

/-- the requests with these indices, for `submit_bulk` -/
def group (reqs : List (Request D)) (idx : List Nat) : List (Request D × Int64) :=
  (idx.filterMap (fun i => reqs[i]?)).map (fun q => (q, 0))

def step (e : Engine D) : EngineAct D → Option (Engine D)
  | .submit serviceMs workMode chunks chunkDelayMs now =>
    match e.call with
    | none => some (e.submit (singleRequest serviceMs workMode chunks chunkDelayMs now))
    | some _ => none
  | .submitBatch serviceMs workMode nows =>
    match e.call with
    -- an empty batch throws
    | none => if nows = [] then some e
      else some (e.enqueueRoundRobin (batchRequests serviceMs workMode nows))
    | some _ => none
  | .submitBatchVaried serviceMsList workMode =>
    match e.call with
    | none => if serviceMsList = [] then some e
      else some (e.enqueueRoundRobin (variedRequests serviceMsList workMode))
    | some _ => none
  | .enqueue =>
    match e.call with
    | some c =>
      match c.todo with
      | [] => none
      | .submitBulk l idx :: todo =>
        let (s, ids) := (e.lanes l).submitBulk (group c.reqs idx)
        some { e.setLane l s with
               call := some { c with ordered := scatter l c.ordered idx ids, todo := todo } }
      | .submit l i :: todo =>
        match c.reqs[i]? with
        | some req =>
          let (s, id) := (e.lanes l).submit req false 0
          some { e.setLane l s with
                 call := some { c with ordered := c.ordered.set i (some (l, id)), todo := todo } }
        | none => none
    | none => none
  | .ret =>
    match e.call with
    | some c =>
      match c.todo with
      | [] => some { e with call := none, log := e.log ++ [.batch c.reqs c.ordered] }
      | _ => none
    | none => none
  | .lane l a =>
    if a.inner = true ∧ l < e.numLanes then ((e.lanes l).step a).map (e.setLane l) else none
  | .setBulkEnqueue on => some { e with useBulkEnqueue := on }

end Engine

/-! ## requests one by one -/

/-- the items of each lane so far -/
abbrev Admitted (D : Type) [Millis D] := Nat → List (Item D)

/-- the item of a request on a lane that reads no clock -/
def itemAt (req : Request D) (cancelable : Bool) (id : Nat) : Item D :=
  { req := req, cancelable := cancelable, id := id }

def Admitted.put (adm : Admitted D) (l : Nat) (req : Request D) (cancelable : Bool) : Admitted D :=
  Function.update adm l (adm l ++ [itemAt req cancelable (adm l).length])

/-- request `i` of a batch is pushed onto its lane and its future is written to its place -/
def act (lane : Nat → Nat) (reqs : List (Request D)) (x : Admitted D × List (Option Future))
    (i : Nat) : Admitted D × List (Option Future) :=
  match reqs[i]? with
  | some req => (x.1.put (lane i) req false, x.2.set i (some (lane i, (x.1 (lane i)).length)))
  | none => x

section
variable {lane : Nat → Nat} {reqs : List (Request D)} {adm : Admitted D}
  {ordered : List (Option Future)} {is is' : List Nat}

theorem put_self (adm : Admitted D) (l : Nat) (req : Request D) (c : Bool) :
    adm.put l req c l = adm l ++ [itemAt req c (adm l).length] := Function.update_self _ _ _

theorem put_other {l l' : Nat} (h : l' ≠ l) (adm : Admitted D) (req : Request D) (c : Bool) :
    adm.put l req c l' = adm l' := Function.update_of_ne h _ _

theorem act_some {x : Admitted D × List (Option Future)} {i : Nat} {req : Request D}
    (h : reqs[i]? = some req) : act lane reqs x i =
      (x.1.put (lane i) req false, x.2.set i (some (lane i, (x.1 (lane i)).length))) := by
  rw [act, h]

theorem act_none {x : Admitted D × List (Option Future)} {i : Nat} (h : reqs[i]? = none) :
    act lane reqs x i = x := by
  rw [act, h]

/-- what lane `l` sees of a batch: its items and the futures of its requests -/
def Agree (lane : Nat → Nat) (l : Nat) (x x' : Admitted D × List (Option Future)) : Prop :=
  x.1 l = x'.1 l ∧ ∀ i, lane i = l → x.2[i]? = x'.2[i]?

/-- a lane sees its own requests alone -/
theorem acts_filter {l : Nat} {x x' : Admitted D × List (Option Future)} (h : Agree lane l x x') :
    Agree lane l (is.foldl (act lane reqs) x)
      ((is.filter (fun i => lane i == l)).foldl (act lane reqs) x') := by
  induction is generalizing x x' with
  | nil => exact h
  | cons j is ih =>
    by_cases hj : lane j = l
    · have hb : (lane j == l) = true := beq_iff_eq.mpr hj
      simp only [List.filter_cons, hb, if_true, List.foldl_cons]
      apply ih
      cases hr : reqs[j]? with
      | none =>
        rw [act_none hr, act_none hr]
        exact h
      | some req =>
        subst hj
        rw [act_some hr, act_some hr]
        refine ⟨?_, ?_⟩
        · show x.1.put (lane j) req false (lane j) = x'.1.put (lane j) req false (lane j)
          rw [put_self, put_self, h.1]
        · intro i hi
          have hlen : j < x.2.length ↔ j < x'.2.length := by
            rw [← Nat.not_le, ← Nat.not_le, ← List.getElem?_eq_none_iff,
              ← List.getElem?_eq_none_iff, h.2 j rfl]
          rw [List.getElem?_set, List.getElem?_set, h.2 i hi, h.1]
          simp only [hlen]
    · have hb : (lane j == l) = false := beq_eq_false_iff_ne.mpr hj
      simp only [List.filter_cons, hb, Bool.false_eq_true, if_false, List.foldl_cons]
      apply ih
      cases hr : reqs[j]? with
      | none =>
        rw [act_none hr]
        exact h
      | some req =>
        rw [act_some hr]
        refine ⟨?_, ?_⟩
        · show x.1.put (lane j) req false l = x'.1 l
          rw [put_other (Ne.symm hj)]
          exact h.1
        · intro i hi
          have hne : j ≠ i := by
            rintro rfl
            exact hj hi
          rw [List.getElem?_set_ne hne]
          exact h.2 i hi

/-- **Lane by lane the same requests, in all the same effect.** -/
theorem acts_congr (x : Admitted D × List (Option Future))
    (h : ∀ l, is.filter (fun i => lane i == l) = is'.filter (fun i => lane i == l)) :
    is.foldl (act lane reqs) x = is'.foldl (act lane reqs) x := by
  have hagree : ∀ l, Agree lane l (is.foldl (act lane reqs) x) (is'.foldl (act lane reqs) x) := by
    intro l
    have h0 : Agree lane l x x := ⟨rfl, fun _ _ => rfl⟩
    have h1 : Agree lane l (is.foldl (act lane reqs) x) _ := acts_filter h0
    have h2 : Agree lane l (is'.foldl (act lane reqs) x) _ := acts_filter h0
    rw [← h l] at h2
    exact ⟨h1.1.trans h2.1.symm, fun i hi => (h1.2 i hi).trans (h2.2 i hi).symm⟩
  refine Prod.ext ?_ ?_
  · funext l
    exact (hagree l).1
  · exact List.ext_getElem? (fun i => (hagree (lane i)).2 i rfl)

end

/-! ## the two strategies -/

/-- the requests of a lane call -/
def LaneCall.idx : LaneCall → List Nat
  | .submitBulk _ idx => idx
  | .submit _ i => [i]

/-- the requests of the call belong to its lane -/
def LaneCall.Fits (lane : Nat → Nat) (n : Nat) : LaneCall → Prop
  | .submitBulk l idx => ∀ i ∈ idx, lane i = l ∧ i < n
  | .submit l i => lane i = l ∧ i < n

namespace Engine
variable {numLanes start n : Nat}

theorem laneIdx_fits {l i : Nat} (h : i ∈ laneIdx numLanes start n l) :
    laneOf numLanes start i = l ∧ i < n := by
  obtain ⟨hr, hl⟩ := List.mem_filter.mp h
  exact ⟨beq_iff_eq.mp hl, List.mem_range.mp hr⟩

theorem bulkCalls_fit : ∀ c ∈ bulkCalls numLanes start n, c.Fits (laneOf numLanes start) n := by
  intro c hc
  obtain ⟨l, _, rfl⟩ := List.mem_map.mp hc
  exact fun i hi => laneIdx_fits hi

theorem singleCalls_fit : ∀ c ∈ singleCalls numLanes start n, c.Fits (laneOf numLanes start) n := by
  intro c hc
  obtain ⟨i, hi, rfl⟩ := List.mem_map.mp hc
  exact ⟨rfl, List.mem_range.mp hi⟩

theorem singleCalls_idx : (singleCalls numLanes start n).flatMap LaneCall.idx = List.range n := by
  unfold singleCalls
  rw [List.flatMap_map]
  exact List.flatMap_singleton' _

/-- the groups of the lanes in a list of lanes -/
theorem groups_filter (ls : List Nat) (hnd : ls.Nodup) (l : Nat) :
    ((ls.filter (fun l => !(laneIdx numLanes start n l).isEmpty)).flatMap
      (laneIdx numLanes start n)).filter (fun i => laneOf numLanes start i == l) =
      if l ∈ ls then laneIdx numLanes start n l else [] := by
  have hown : ∀ l', (laneIdx numLanes start n l').filter (fun i => laneOf numLanes start i == l) =
      if l' = l then laneIdx numLanes start n l else [] := by
    intro l'
    split
    · rename_i h
      subst h
      exact List.filter_eq_self.mpr (fun i hi => beq_iff_eq.mpr (laneIdx_fits hi).1)
    · rename_i h
      refine List.filter_eq_nil_iff.mpr (fun i hi hb => ?_)
      rw [(laneIdx_fits hi).1] at hb
      exact h (beq_iff_eq.mp hb)
  induction ls with
  | nil => rfl
  | cons l' ls ih =>
    obtain ⟨hnot, hnd'⟩ := List.nodup_cons.mp hnd
    have hrest := ih hnd'
    have hstep : (((l' :: ls).filter (fun l => !(laneIdx numLanes start n l).isEmpty)).flatMap
        (laneIdx numLanes start n)).filter (fun i => laneOf numLanes start i == l) =
        (if l' = l then laneIdx numLanes start n l else []) ++
          if l ∈ ls then laneIdx numLanes start n l else [] := by
      rw [← hrest, ← hown l']
      cases he : (laneIdx numLanes start n l').isEmpty with
      | true =>
        rw [List.isEmpty_iff.mp he]
        simp only [List.filter_cons, he, Bool.not_true, Bool.false_eq_true, if_false]
        rfl
      | false =>
        simp only [List.filter_cons, he, Bool.not_false, if_true, List.flatMap_cons,
          List.filter_append]
    rw [hstep]
    by_cases hl : l' = l
    · subst hl
      rw [if_pos rfl, if_neg hnot, if_pos List.mem_cons_self, List.append_nil]
    · have hmem : l ∈ l' :: ls ↔ l ∈ ls := by
        rw [List.mem_cons]
        exact or_iff_right (Ne.symm hl)
      rw [if_neg hl, List.nil_append]
      simp only [hmem]

/-- **A lane gets the same requests under both strategies.** -/
theorem bulkCalls_filter (hL : 0 < numLanes) (l : Nat) :
    ((bulkCalls numLanes start n).flatMap LaneCall.idx).filter (fun i => laneOf numLanes start i == l) =
      (List.range n).filter (fun i => laneOf numLanes start i == l) := by
  unfold bulkCalls
  rw [List.flatMap_map]
  refine (groups_filter _ List.nodup_range l).trans ?_
  split
  · rfl
  · rename_i hl
    symm
    rw [List.filter_eq_nil_iff]
    intro i _ hi
    rw [← beq_iff_eq.mp hi] at hl
    exact hl (List.mem_range.mpr (Nat.mod_lt _ hL))

end Engine

end

end Harness

end RayX
