import RayX.Harness.Engine

/-!
# Routing

* `Router`           what the engine is for: requests routed one by one, in the order of the calls;
* `Refines.step`     the engine refines the router, whatever the strategy;
* `Routed`           what a router has done so far: the lane and the item of each request;
* `engine_routing`   **the `k`-th request goes to lane `k mod L`, in order, to the future of its own,
                     and the strategy makes no difference**.
-/

namespace RayX
open Sys

namespace Harness

section
variable {D : Type} [Millis D]

/-! ## the router -/

/-- requests routed one by one, a batch at its call -/
structure Router (D : Type) [Millis D] where
  adm : Admitted D := fun _ => []
  popped : Nat → Nat := fun _ => 0
  rr : Nat
  log : List (Called D) := []

/-- the items that a step of a lane takes from its queue -/
def Act.pops : Act D → Nat
  | .pop => 1
  | _ => 0

namespace Router

def submit (numLanes : Nat) (cap : Int) (r : Router D) (req : Request D) : Router D :=
  let l := r.rr % numLanes
  let rr := (r.rr + 1) % sizeMod
  if 0 ≤ cap ∧ cap ≤ intOfSize ((r.adm l).length - r.popped l) then
    { r with rr := rr, log := r.log ++ [.submit req l none] }
  else
    { r with adm := r.adm.put l req true, rr := rr
             log := r.log ++ [.submit req l (some (r.adm l).length)] }

/-- the requests of a batch, one after the other -/
def routed (numLanes : Nat) (r : Router D) (reqs : List (Request D)) (k : Nat) :
    Admitted D × List (Option Future) :=
  (List.range k).foldl (act (Engine.laneOf numLanes r.rr) reqs)
    (r.adm, List.replicate reqs.length none)

def batch (numLanes : Nat) (r : Router D) (reqs : List (Request D)) : Router D :=
  let x := r.routed numLanes reqs reqs.length
  { r with adm := x.1, rr := (r.rr + reqs.length) % sizeMod, log := r.log ++ [.batch reqs x.2] }

def step (numLanes : Nat) (cap : Int) (r : Router D) : EngineAct D → Router D
  | .submit serviceMs workMode chunks chunkDelayMs now =>
    r.submit numLanes cap (singleRequest serviceMs workMode chunks chunkDelayMs now)
  | .submitBatch serviceMs workMode nows =>
    if nows = [] then r else r.batch numLanes (batchRequests serviceMs workMode nows)
  | .submitBatchVaried serviceMsList workMode =>
    if serviceMsList = [] then r else r.batch numLanes (variedRequests serviceMsList workMode)
  | .lane l a => { r with popped := Function.update r.popped l (r.popped l + a.pops) }
  | _ => r

end Router

/-- the steps that the router sees: the calls, and the pops of the lanes -/
def EngineAct.visible : EngineAct D → Bool
  | .submit _ _ _ _ _ => true
  | .submitBatch _ _ _ => true
  | .submitBatchVaried _ _ => true
  | .lane _ a => a.pops != 0
  | _ => false

theorem Router.step_hidden {numLanes : Nat} {cap : Int} (r : Router D) {a : EngineAct D}
    (h : a.visible = false) : r.step numLanes cap a = r := by
  cases a with
  | submit serviceMs workMode chunks chunkDelayMs now => cases h
  | submitBatch serviceMs workMode nows => cases h
  | submitBatchVaried serviceMsList workMode => cases h
  | lane l a =>
    have h0 : a.pops = 0 := by
      simpa [EngineAct.visible] using h
    show { r with popped := Function.update r.popped l (r.popped l + a.pops) } = r
    rw [h0, Nat.add_zero, Function.update_eq_self]
  | enqueue => rfl
  | ret => rfl
  | setBulkEnqueue on => rfl

/-- what the router does not see does not matter to it -/
theorem Router.foldl_visible {numLanes : Nat} {cap : Int} (as : List (EngineAct D)) (r : Router D) :
    as.foldl (Router.step numLanes cap) r =
      (as.filter EngineAct.visible).foldl (Router.step numLanes cap) r := by
  induction as generalizing r with
  | nil => rfl
  | cons a as ih =>
    cases h : a.visible with
    | true =>
      rw [List.filter_cons_of_pos h, List.foldl_cons, List.foldl_cons]
      exact ih _
    | false =>
      rw [List.filter_cons_of_neg (by rw [h]; exact Bool.false_ne_true), List.foldl_cons,
        Router.step_hidden r h]
      exact ih r

/-! ## the refinement -/

namespace ServiceLane
variable {s s' : ServiceLane D}

theorem push_admitted (h : s.diag = false) (req : Request D) (c : Bool) :
    (s.push req c 0).admitted = s.admitted ++ [itemAt req c s.admitted.length] := by
  have hitem : s.newItem req c 0 = itemAt req c s.admitted.length := by
    rw [newItem, h]
    rfl
  show s.admitted ++ [s.newItem req c 0] = _
  rw [hitem]

theorem pushAll_kept (reqs : List (Request D × Int64)) :
    (s.pushAll reqs).popped = s.popped ∧ (s.pushAll reqs).diag = s.diag := by
  induction reqs generalizing s with
  | nil => exact ⟨rfl, rfl⟩
  | cons q reqs ih => exact ih (s := s.push q.1 false q.2)

/-- a step that a lane makes on its own -/
theorem inner_kept {a : Act D} (hs : Step s a s') (ha : a.inner = true) :
    s'.admitted = s.admitted ∧ s'.diag = s.diag ∧ s'.popped = s.popped + a.pops := by
  cases hs with
  | submit hs => cases ha
  | accept hs hd => cases ha
  | reject hs hd => cases ha
  | submitBulk hs => cases ha
  | dtorBegin hd => cases ha
  | join hd hc => cases ha
  | _ => exact ⟨rfl, rfl, rfl⟩

end ServiceLane

namespace Engine

/-- the items of the lanes -/
def adm (e : Engine D) : Admitted D := fun l => (e.lanes l).admitted

theorem adm_setLane (e : Engine D) (l : Nat) (s : ServiceLane D) :
    (e.setLane l s).adm = Function.update e.adm l s.admitted := by
  funext l'
  show (Function.update e.lanes l s l').admitted = _
  by_cases h : l' = l
  · rw [h, Function.update_self, Function.update_self]
  · rw [Function.update_of_ne h, Function.update_of_ne h]
    rfl

/-- **A bulk call is its requests one by one.** -/
theorem submitBulk_acts {lane : Nat → Nat} {reqs : List (Request D)} {l : Nat} (adm : Admitted D)
    {s : ServiceLane D} (hd : s.diag = false) {idx : List Nat}
    (hidx : ∀ i ∈ idx, lane i = l ∧ i < reqs.length) (ordered : List (Option Future)) :
    (Function.update adm l (s.submitBulk (group reqs idx)).1.admitted,
      scatter l ordered idx (s.submitBulk (group reqs idx)).2) =
      idx.foldl (act lane reqs) (Function.update adm l s.admitted, ordered) := by
  induction idx generalizing s ordered with
  | nil => rfl
  | cons i idx ih =>
    obtain ⟨hl, hlt⟩ := hidx i List.mem_cons_self
    have hr : reqs[i]? = some reqs[i] := List.getElem?_eq_getElem hlt
    have hgroup : group reqs (i :: idx) = (reqs[i], 0) :: group reqs idx := by
      unfold group
      rw [List.filterMap_cons_some hr, List.map_cons]
    have hadm := ServiceLane.push_admitted hd reqs[i] false
    have hlen : (s.push reqs[i] false 0).admitted.length = s.admitted.length + 1 := by
      rw [hadm, List.length_append, List.length_singleton]
    have hids : (s.submitBulk (group reqs (i :: idx))).2 =
        s.admitted.length :: ((s.push reqs[i] false 0).submitBulk (group reqs idx)).2 := by
      show (List.range (group reqs (i :: idx)).length).map (fun k => s.admitted.length + k) =
        s.admitted.length :: (List.range (group reqs idx).length).map
          (fun k => (s.push reqs[i] false 0).admitted.length + k)
      rw [hgroup, List.length_cons, List.range_succ_eq_map, List.map_cons, List.map_map, hlen]
      congr 1
      refine List.map_congr_left (fun k _ => ?_)
      show s.admitted.length + (k + 1) = s.admitted.length + 1 + k
      omega
    have hlane : (s.submitBulk (group reqs (i :: idx))).1 =
        ((s.push reqs[i] false 0).submitBulk (group reqs idx)).1 := by
      rw [hgroup]
      rfl
    have hrest := ih (s := s.push reqs[i] false 0) hd (fun j hj => hidx j (List.mem_cons_of_mem i hj))
      (ordered.set i (some (l, s.admitted.length)))
    rw [hids, hlane, List.foldl_cons, act_some hr]
    have hput : Admitted.put (Function.update adm l s.admitted) (lane i) reqs[i] false =
        Function.update adm l (s.push reqs[i] false 0).admitted := by
      unfold Admitted.put
      rw [hl, Function.update_self, Function.update_idem, hadm]
    rw [hput, hl]
    dsimp only
    rw [Function.update_self]
    exact hrest

/-- the batch under way has its effect when its lane calls are done -/
def Underway (e : Engine D) (r : Router D) (c : Enqueueing D) : Prop :=
  ∃ lane : Nat → Nat, ∃ futs, (∀ lc ∈ c.todo, lc.Fits lane c.reqs.length) ∧
    (c.todo.flatMap LaneCall.idx).foldl (act lane c.reqs) (e.adm, c.ordered) = (r.adm, futs) ∧
    r.log = e.log ++ [.batch c.reqs futs]

/-- the router that the engine stands for -/
structure Refines (e : Engine D) (r : Router D) : Prop where
  fifo : ∀ l, (e.lanes l).Fifo
  diag : ∀ l, (e.lanes l).diag = false
  popped : ∀ l, (e.lanes l).popped = r.popped l
  rr : e.rr = r.rr
  idle : e.call = none → e.adm = r.adm ∧ e.log = r.log
  busy : ∀ c, e.call = some c → e.Underway r c

variable {e e' : Engine D} {r : Router D}

/-- what a lane shows of its queue -/
theorem Refines.depth (h : e.Refines r) (hadm : e.adm = r.adm) (l : Nat) :
    (e.lanes l).queue.length = (r.adm l).length - r.popped l := by
  rw [(h.fifo l).queue, List.length_drop, h.popped l, ← hadm]
  rfl

/-- a lane that changes: the others stay -/
theorem Refines.setLane_lanes (h : e.Refines r) {l : Nat} {s : ServiceLane D} (hf : s.Fifo)
    (hd : s.diag = false) :
    (∀ l', (Function.update e.lanes l s l').Fifo) ∧
      ∀ l', (Function.update e.lanes l s l').diag = false :=
  ⟨update_all (P := fun _ x => ServiceLane.Fifo x) h.fifo hf,
    update_all (P := fun _ x => ServiceLane.diag x = false) h.diag hd⟩

theorem Refines.setLane_popped (h : e.Refines r) {l : Nat} {s : ServiceLane D}
    (hp : s.popped = (e.lanes l).popped) (l' : Nat) :
    (Function.update e.lanes l s l').popped = r.popped l' :=
  update_all (P := fun l' x => ServiceLane.popped x = r.popped l') h.popped (hp.trans (h.popped l)) l'

theorem Refines.submit (h : e.Refines r) (hc : e.call = none) (req : Request D) :
    (e.submit req).Refines (r.submit e.numLanes e.maxQdPerLane req) := by
  obtain ⟨hadm, hlog⟩ := h.idle hc
  have hrr := h.rr
  have hdep := h.depth hadm (e.rr % e.numLanes)
  have hadmitted : (e.lanes (e.rr % e.numLanes)).admitted = r.adm (e.rr % e.numLanes) :=
    congrFun hadm (e.rr % e.numLanes)
  -- an admission, by either way in
  have hpush : ∀ e' : Engine D, e'.lanes = Function.update e.lanes (e.rr % e.numLanes)
      ((e.lanes (e.rr % e.numLanes)).push req true 0) → e'.rr = (e.rr + 1) % sizeMod →
      e'.call = none → e'.log = e.log ++
        [.submit req (e.rr % e.numLanes) (some (e.lanes (e.rr % e.numLanes)).admitted.length)] →
      e'.Refines { r with
        adm := r.adm.put (e.rr % e.numLanes) req true
        rr := (e.rr + 1) % sizeMod
        log := r.log ++
          [.submit req (e.rr % e.numLanes) (some (r.adm (e.rr % e.numLanes)).length)] } := by
    intro e' hlanes hrr' hcall hlog'
    obtain ⟨hf, hd⟩ := h.setLane_lanes ((h.fifo (e.rr % e.numLanes)).push req true 0)
      (h.diag (e.rr % e.numLanes))
    refine ⟨?_, ?_, ?_, ?_, ?_, ?_⟩
    · rw [hlanes]
      exact hf
    · rw [hlanes]
      exact hd
    · rw [hlanes]
      exact h.setLane_popped rfl
    · exact hrr'
    · intro _
      refine ⟨?_, ?_⟩
      · have hset := adm_setLane e (e.rr % e.numLanes)
          ((e.lanes (e.rr % e.numLanes)).push req true 0)
        have hsame : e'.adm = (e.setLane (e.rr % e.numLanes)
            ((e.lanes (e.rr % e.numLanes)).push req true 0)).adm := by
          unfold adm
          rw [hlanes]
          rfl
        rw [hsame, hset, ServiceLane.push_admitted (h.diag _), hadmitted, hadm]
        rfl
      · rw [hlog', hlog, hadmitted]
    · intro c hc'
      rw [hcall] at hc'
      cases hc'
  unfold Engine.submit Router.submit
  rw [← hrr]
  dsimp only
  by_cases hcap : 0 ≤ e.maxQdPerLane
  · rw [if_pos hcap]
    by_cases hfull : e.maxQdPerLane ≤ intOfSize (e.lanes (e.rr % e.numLanes)).queue.length
    · rw [if_pos ⟨hcap, by rw [← hdep]; exact hfull⟩]
      have htry : (e.lanes (e.rr % e.numLanes)).trySubmit req e.maxQdPerLane true 0 =
          (e.lanes (e.rr % e.numLanes), none) := if_pos hfull
      rw [htry]
      have hsame : e.setLane (e.rr % e.numLanes) (e.lanes (e.rr % e.numLanes)) = e := by
        unfold setLane
        rw [Function.update_eq_self]
      rw [hsame]
      refine ⟨h.fifo, h.diag, h.popped, rfl, ?_, ?_⟩
      · intro _
        exact ⟨hadm, by rw [hlog]⟩
      · intro c hc'
        rw [show e.call = some c from hc'] at hc
        cases hc
    · rw [if_neg (by rw [← hdep]; exact fun hh => hfull hh.2)]
      have htry : (e.lanes (e.rr % e.numLanes)).trySubmit req e.maxQdPerLane true 0 =
          ((e.lanes (e.rr % e.numLanes)).push req true 0,
            some (e.lanes (e.rr % e.numLanes)).admitted.length) := if_neg hfull
      rw [htry]
      exact hpush _ rfl rfl hc rfl
  · rw [if_neg hcap, if_neg (fun hh => hcap hh.1)]
    exact hpush _ rfl rfl hc rfl

theorem Refines.enqueueRoundRobin (h : e.Refines r) (hc : e.call = none) (reqs : List (Request D)) :
    (e.enqueueRoundRobin reqs).Refines (r.batch e.numLanes reqs) := by
  obtain ⟨hadm, hlog⟩ := h.idle hc
  refine ⟨h.fifo, h.diag, h.popped, ?_, fun hn => (nomatch hn), ?_⟩
  · show (e.rr + reqs.length) % sizeMod = (r.rr + reqs.length) % sizeMod
    rw [h.rr]
  intro c hcall
  cases hcall
  refine ⟨laneOf e.numLanes e.rr, (r.routed e.numLanes reqs reqs.length).2, ?_, ?_, ?_⟩
  · show ∀ lc ∈ (if e.useBulkEnqueue then bulkCalls e.numLanes e.rr reqs.length
      else singleCalls e.numLanes e.rr reqs.length), lc.Fits (laneOf e.numLanes e.rr) reqs.length
    split
    · exact bulkCalls_fit
    · exact singleCalls_fit
  · -- one by one or lane by lane
    have hone : (List.range reqs.length).foldl (act (laneOf e.numLanes e.rr) reqs)
        (e.adm, List.replicate reqs.length none) = r.routed e.numLanes reqs reqs.length := by
      unfold Router.routed
      rw [hadm, h.rr]
    show ((if e.useBulkEnqueue then bulkCalls e.numLanes e.rr reqs.length
      else singleCalls e.numLanes e.rr reqs.length).flatMap LaneCall.idx).foldl _
        (e.adm, List.replicate reqs.length none) = r.routed e.numLanes reqs reqs.length
    rw [← hone]
    split
    · exact acts_congr _ (bulkCalls_filter e.one_lane)
    · rw [singleCalls_idx]
  · show r.log ++ _ = e.log ++ _
    rw [hlog]

/-- one lane call -/
theorem Refines.laneCall (h : e.Refines r) {c : Enqueueing D} (hc : e.call = some c) {lc : LaneCall}
    {todo : List LaneCall} (ht : c.todo = lc :: todo) {s : ServiceLane D}
    {ordered : List (Option Future)} {l : Nat} (hf : s.Fifo) (hd : s.diag = false)
    (hp : s.popped = (e.lanes l).popped)
    (hact : ∀ lane : Nat → Nat, lc.Fits lane c.reqs.length →
      (Function.update e.adm l s.admitted, ordered) =
        lc.idx.foldl (act lane c.reqs) (e.adm, c.ordered)) :
    Refines { e.setLane l s with call := some { c with ordered := ordered, todo := todo } } r := by
  obtain ⟨lane, futs, hfit, hdone, hlog⟩ := h.busy c hc
  obtain ⟨hlf, hld⟩ := h.setLane_lanes hf hd
  refine ⟨hlf, hld, h.setLane_popped hp, h.rr, fun hn => (nomatch hn), ?_⟩
  intro c' hcall
  cases hcall
  rw [ht] at hfit hdone
  refine ⟨lane, futs, fun lc' hlc' => hfit lc' (List.mem_cons_of_mem lc hlc'), ?_, hlog⟩
  rw [List.flatMap_cons, List.foldl_append, ← hact lane (hfit lc List.mem_cons_self)] at hdone
  rw [← hdone]
  show (todo.flatMap LaneCall.idx).foldl (act lane c.reqs) ((e.setLane l s).adm, ordered) = _
  rw [adm_setLane]

/-- the batch returns -/
theorem Refines.ret (h : e.Refines r) {c : Enqueueing D} (hc : e.call = some c) (ht : c.todo = []) :
    Refines { e with call := none, log := e.log ++ [.batch c.reqs c.ordered] } r := by
  obtain ⟨lane, futs, _, hdone, hlog⟩ := h.busy c hc
  rw [ht] at hdone
  obtain ⟨hadm, hord⟩ := Prod.mk.inj hdone
  refine ⟨h.fifo, h.diag, h.popped, h.rr, fun _ => ⟨hadm, ?_⟩, fun _ hn => (nomatch hn)⟩
  show e.log ++ [.batch c.reqs c.ordered] = r.log
  rw [hlog, hord]

/-- a step of the consumer of a lane -/
theorem Refines.consumer (h : e.Refines r) {l : Nat} {a : Act D} (ha : a.inner = true)
    {s : ServiceLane D} (hs : (e.lanes l).step a = some s) :
    Refines (e.setLane l s) { r with popped := Function.update r.popped l (r.popped l + a.pops) } := by
  have hsound := ServiceLane.step_sound hs
  obtain ⟨hadm, hdiag, hpop⟩ := ServiceLane.inner_kept hsound ha
  obtain ⟨hlf, hld⟩ := h.setLane_lanes ((h.fifo l).step hsound) (hdiag.trans (h.diag l))
  have hsame : (e.setLane l s).adm = e.adm := by
    rw [adm_setLane, hadm]
    exact Function.update_eq_self l e.adm
  refine ⟨hlf, hld, ?_, h.rr, ?_, ?_⟩
  · intro l'
    show (Function.update e.lanes l s l').popped = Function.update r.popped l (r.popped l + a.pops) l'
    by_cases hl : l' = l
    · rw [hl, Function.update_self, Function.update_self, hpop, h.popped l]
    · rw [Function.update_of_ne hl, Function.update_of_ne hl]
      exact h.popped l'
  · intro hc
    rw [hsame]
    exact h.idle hc
  · intro c hc
    obtain ⟨lane, futs, hfit, hdone, hlog⟩ := h.busy c hc
    refine ⟨lane, futs, hfit, ?_, hlog⟩
    rw [hsame]
    exact hdone

/-- **Every step of the engine is a step of the router, or one that it does not see.** -/
theorem Refines.step (h : e.Refines r) {a : EngineAct D} (hs : e.step a = some e') :
    e'.Refines (r.step e.numLanes e.maxQdPerLane a) ∧ e'.numLanes = e.numLanes ∧
      e'.maxQdPerLane = e.maxQdPerLane := by
  cases a with
  | submit serviceMs workMode chunks chunkDelayMs now =>
    simp only [Engine.step] at hs
    split at hs
    · rename_i hc
      cases hs
      refine ⟨h.submit hc _, ?_, ?_⟩
      · unfold Engine.submit
        dsimp only
        split <;> rfl
      · unfold Engine.submit
        dsimp only
        split <;> rfl
    · cases hs
  | submitBatch serviceMs workMode nows =>
    simp only [Engine.step] at hs
    split at hs
    · rename_i hc
      split at hs
      · rename_i hn
        cases hs
        refine ⟨?_, rfl, rfl⟩
        rw [Router.step, if_pos hn]
        exact h
      · rename_i hn
        cases hs
        refine ⟨?_, rfl, rfl⟩
        rw [Router.step, if_neg hn]
        exact h.enqueueRoundRobin hc _
    · cases hs
  | submitBatchVaried serviceMsList workMode =>
    simp only [Engine.step] at hs
    split at hs
    · rename_i hc
      split at hs
      · rename_i hn
        cases hs
        refine ⟨?_, rfl, rfl⟩
        rw [Router.step, if_pos hn]
        exact h
      · rename_i hn
        cases hs
        refine ⟨?_, rfl, rfl⟩
        rw [Router.step, if_neg hn]
        exact h.enqueueRoundRobin hc _
    · cases hs
  | enqueue =>
    simp only [Engine.step] at hs
    split at hs
    · rename_i c hc
      split at hs
      · cases hs
      · rename_i l idx todo ht
        cases hs
        obtain ⟨hpop, hdiag⟩ := ServiceLane.pushAll_kept (s := e.lanes l) (group c.reqs idx)
        refine ⟨h.laneCall hc ht ((h.fifo l).pushAll _) (hdiag.trans (h.diag l)) hpop ?_, rfl, rfl⟩
        intro lane hfit
        have hself : Function.update e.adm l (e.lanes l).admitted = e.adm :=
          Function.update_eq_self l e.adm
        have hacts := submitBulk_acts e.adm (h.diag l) hfit c.ordered
        rw [hself] at hacts
        exact hacts
      · rename_i l i todo ht
        split at hs
        · rename_i req hreq
          cases hs
          refine ⟨h.laneCall hc ht ((h.fifo l).push _ _ _) (h.diag l) rfl ?_, rfl, rfl⟩
          rintro lane ⟨hl, _⟩
          show (_, _) = act lane c.reqs (e.adm, c.ordered) i
          rw [act_some hreq, hl]
          refine Prod.ext ?_ rfl
          show Function.update e.adm l _ = Function.update e.adm l _
          rw [ServiceLane.submit, ServiceLane.push_admitted (h.diag l)]
          rfl
        · cases hs
    · cases hs
  | ret =>
    simp only [Engine.step] at hs
    split at hs
    · rename_i c hc
      split at hs
      · rename_i ht
        cases hs
        exact ⟨h.ret hc ht, rfl, rfl⟩
      · cases hs
    · cases hs
  | lane l a =>
    simp only [Engine.step, Option.ite_none_right_eq_some] at hs
    obtain ⟨⟨ha, _⟩, hs⟩ := hs
    obtain ⟨s, hstep, rfl⟩ := Option.map_eq_some_iff.mp hs
    exact ⟨h.consumer ha hstep, rfl, rfl⟩
  | setBulkEnqueue on =>
    cases hs
    exact ⟨⟨h.fifo, h.diag, h.popped, h.rr, h.idle, h.busy⟩, rfl, rfl⟩

/-- **The engine refines the router.** -/
theorem Refines.run {as : List (EngineAct D)} (h : e.Refines r) (hr : run Engine.step e as = some e') :
    e'.Refines (as.foldl (Router.step e.numLanes e.maxQdPerLane) r) := by
  induction as generalizing e r with
  | nil =>
    cases hr
    exact h
  | cons a as ih =>
    obtain ⟨m, hm, hr⟩ := run_cons.mp hr
    obtain ⟨hrm, hl, hcap⟩ := h.step hm
    have := ih hrm hr
    rw [hl, hcap] at this
    exact this

end Engine

/-! ## what a router has done -/

/-- a request with the lane it went to and its place there, `none` for a rejection -/
structure Offer (D : Type) [Millis D] where
  req : Request D
  cancelable : Bool
  lane : Nat
  id : Option Nat

def batchOffers (reqs : List (Request D)) (futs : List Future) : List (Offer D) :=
  (reqs.zip futs).map (fun x => { req := x.1, cancelable := false, lane := x.2.1, id := some x.2.2 })

def Called.offers : Called D → List (Offer D)
  | .submit req lane id => [{ req := req, cancelable := true, lane := lane, id := id }]
  | .batch reqs futs => batchOffers reqs (futs.filterMap (fun f => f))

/-- the requests of all calls in their order -/
def offers (log : List (Called D)) : List (Offer D) := log.flatMap Called.offers

/-- the item of a request, if it is on lane `l` -/
def Offer.itemOn (l : Nat) (o : Offer D) : Option (Item D) :=
  if o.lane = l then o.id.map (itemAt o.req o.cancelable) else none

/-- an offer on its own lane -/
theorem Offer.items_self {o : Offer D} {l : Nat} (h : o.lane = l) :
    [o].filterMap (Offer.itemOn l) = (o.id.map (itemAt o.req o.cancelable)).toList := by
  rw [List.filterMap_cons, List.filterMap_nil]
  unfold Offer.itemOn
  rw [if_pos h]
  cases o.id <;> rfl

theorem Offer.items_other {o : Offer D} {l : Nat} (h : o.lane ≠ l) :
    [o].filterMap (Offer.itemOn l) = [] := by
  rw [List.filterMap_cons, List.filterMap_nil]
  unfold Offer.itemOn
  rw [if_neg h]

structure Routed (numLanes c : Nat) (r : Router D) : Prop where
  count : r.rr = (c + (offers r.log).length) % sizeMod
  lanes : ∀ k o, (offers r.log)[k]? = some o → o.lane = (c + k) % sizeMod % numLanes
  order : ∀ l, r.adm l = (offers r.log).filterMap (Offer.itemOn l)
  whole : ∀ reqs futs, .batch reqs futs ∈ r.log →
    ∃ fs : List Future, futs = fs.map some ∧ fs.length = reqs.length

section
variable {numLanes c : Nat} {cap : Int} {r : Router D} {reqs : List (Request D)}

theorem offers_append (log : List (Called D)) (call : Called D) :
    offers (log ++ [call]) = offers log ++ call.offers := by
  rw [offers, List.flatMap_append, List.flatMap_singleton]
  rfl

theorem zip_concat {α β : Type} {xs : List α} {ys : List β} {x : α} {y : β}
    (h : xs[ys.length]? = some x) : xs.zip (ys ++ [y]) = xs.zip ys ++ [(x, y)] := by
  induction ys generalizing xs with
  | nil =>
    cases xs with
    | nil => cases h
    | cons a xs =>
      cases h
      cases xs <;> rfl
  | cons b ys ih =>
    cases xs with
    | nil => cases h
    | cons a xs =>
      rw [List.cons_append, List.zip_cons_cons, List.zip_cons_cons, List.cons_append]
      congr 1
      exact ih h

/-- the first `k` requests of a batch -/
theorem routed_prefix (r : Router D) (numLanes : Nat) (reqs : List (Request D)) (k : Nat)
    (hk : k ≤ reqs.length) :
    ∃ futs : List Future, futs.length = k ∧
      (r.routed numLanes reqs k).2 = futs.map some ++ List.replicate (reqs.length - k) none ∧
      (∀ i f, futs[i]? = some f → f.1 = Engine.laneOf numLanes r.rr i) ∧
      ∀ l, (r.routed numLanes reqs k).1 l =
        r.adm l ++ (batchOffers reqs futs).filterMap (Offer.itemOn l) := by
  induction k with
  | zero =>
    refine ⟨[], rfl, rfl, fun _ _ h => (nomatch h), fun l => ?_⟩
    rw [batchOffers, List.zip_nil_right]
    exact (List.append_nil _).symm
  | succ k ih =>
    obtain ⟨futs, hlen, hfuts, hlane, hadm⟩ := ih (by omega)
    have hr : reqs[k]? = some reqs[k] := List.getElem?_eq_getElem (by omega)
    have hstep : r.routed numLanes reqs (k + 1) =
        act (Engine.laneOf numLanes r.rr) reqs (r.routed numLanes reqs k) k := by
      rw [Router.routed, List.range_succ, List.foldl_append]
      rfl
    rw [hstep, act_some hr]
    refine ⟨futs ++ [(Engine.laneOf numLanes r.rr k,
      ((r.routed numLanes reqs k).1 (Engine.laneOf numLanes r.rr k)).length)], ?_, ?_, ?_, ?_⟩
    · rw [List.length_append, List.length_singleton, hlen]
    · have hrep : reqs.length - k = reqs.length - (k + 1) + 1 := by omega
      dsimp only
      rw [hfuts, hrep, List.replicate_succ, List.map_append, List.append_assoc,
        List.set_append_right k _ (by rw [List.length_map]; omega), List.length_map, hlen, Nat.sub_self]
      rfl
    · intro i f hf
      by_cases hi : i < futs.length
      · rw [List.getElem?_append_left hi] at hf
        exact hlane i f hf
      · have hik : i = futs.length := by
          have := (List.getElem?_eq_some_iff.mp hf).1
          rw [List.length_append, List.length_singleton] at this
          omega
        rw [hik, List.getElem?_concat_length] at hf
        cases hf
        rw [hik, hlen]
    · intro l
      have hz : batchOffers reqs (futs ++ [(Engine.laneOf numLanes r.rr k,
          ((r.routed numLanes reqs k).1 (Engine.laneOf numLanes r.rr k)).length)]) =
          batchOffers reqs futs ++ [{
            req := reqs[k], cancelable := false, lane := Engine.laneOf numLanes r.rr k
            id := some ((r.routed numLanes reqs k).1 (Engine.laneOf numLanes r.rr k)).length }] := by
        unfold batchOffers
        rw [zip_concat (by rw [hlen]; exact hr), List.map_append]
        rfl
      rw [hz, List.filterMap_append, ← List.append_assoc, ← hadm l]
      dsimp only
      by_cases hl : Engine.laneOf numLanes r.rr k = l
      · subst hl
        rw [put_self, Offer.items_self (o := ⟨_, _, _, _⟩) rfl]
        rfl
      · rw [put_other (Ne.symm hl), Offer.items_other hl]
        exact (List.append_nil _).symm

theorem sizeMod_mod (a b : Nat) : (a % sizeMod + b) % sizeMod = (a + b) % sizeMod :=
  Nat.mod_add_mod a sizeMod b

theorem Routed.submit (h : Routed numLanes c r) (req : Request D) :
    Routed numLanes c (r.submit numLanes cap req) := by
  -- the new offer, admitted or rejected
  have hone : ∀ (id : Option Nat) (r' : Router D), r'.rr = (r.rr + 1) % sizeMod →
      r'.log = r.log ++ [.submit req (r.rr % numLanes) id] →
      (∀ l, r'.adm l = r.adm l ++ [(⟨req, true, r.rr % numLanes, id⟩ : Offer D)].filterMap (Offer.itemOn l)) →
      Routed numLanes c r' := by
    intro id r' hrr hlog hadm
    have hoff : offers r'.log = offers r.log ++ [⟨req, true, r.rr % numLanes, id⟩] := by
      rw [hlog, offers_append]
      rfl
    refine ⟨?_, ?_, ?_, ?_⟩
    · rw [hrr, hoff, List.length_append, List.length_singleton, h.count, sizeMod_mod, Nat.add_assoc]
    · intro k o hk
      rw [hoff] at hk
      by_cases hlt : k < (offers r.log).length
      · rw [List.getElem?_append_left hlt] at hk
        exact h.lanes k o hk
      · have hkl : k = (offers r.log).length := by
          have := (List.getElem?_eq_some_iff.mp hk).1
          rw [List.length_append, List.length_singleton] at this
          omega
        rw [hkl, List.getElem?_concat_length] at hk
        cases hk
        rw [hkl, ← h.count]
    · intro l
      rw [hoff, List.filterMap_append, ← h.order l]
      exact hadm l
    · intro reqs futs hmem
      rw [hlog] at hmem
      rcases List.mem_append.mp hmem with hmem | hmem
      · exact h.whole reqs futs hmem
      · cases List.mem_singleton.mp hmem
  unfold Router.submit
  dsimp only
  split
  · refine hone none _ rfl rfl (fun l => ?_)
    by_cases hl : r.rr % numLanes = l
    · rw [Offer.items_self hl]
      exact (List.append_nil _).symm
    · rw [Offer.items_other hl]
      exact (List.append_nil _).symm
  · refine hone _ _ rfl rfl (fun l => ?_)
    by_cases hl : r.rr % numLanes = l
    · subst hl
      rw [Offer.items_self (o := ⟨_, _, _, _⟩) rfl]
      exact put_self _ _ _ _
    · rw [Offer.items_other hl, List.append_nil]
      exact put_other (Ne.symm hl) _ _ _

theorem batch_offers (reqs : List (Request D)) (futs : List Future) :
    (Called.batch reqs (futs.map some)).offers = batchOffers reqs futs := by
  show batchOffers reqs ((futs.map some).filterMap (fun f => f)) = batchOffers reqs futs
  rw [List.filterMap_map]
  exact congrArg _ List.filterMap_some

theorem Routed.batch (h : Routed numLanes c r) (reqs : List (Request D)) :
    Routed numLanes c (r.batch numLanes reqs) := by
  obtain ⟨futs, hlen, hfuts, hlane, hadm⟩ := routed_prefix r numLanes reqs reqs.length
    (Nat.le_refl _)
  rw [Nat.sub_self, List.replicate_zero, List.append_nil] at hfuts
  have hlog : (r.batch numLanes reqs).log = r.log ++ [.batch reqs (futs.map some)] := by
    show r.log ++ [.batch reqs (r.routed numLanes reqs reqs.length).2] = _
    rw [hfuts]
  have hoff : offers (r.batch numLanes reqs).log = offers r.log ++ batchOffers reqs futs := by
    rw [hlog, offers_append, batch_offers]
  have hblen : (batchOffers reqs futs).length = reqs.length := by
    rw [batchOffers, List.length_map, List.length_zip, hlen, Nat.min_self]
  refine ⟨?_, ?_, ?_, ?_⟩
  · show (r.rr + reqs.length) % sizeMod = _
    rw [hoff, List.length_append, hblen, h.count, sizeMod_mod, Nat.add_assoc]
  · intro k o hk
    rw [hoff] at hk
    by_cases hlt : k < (offers r.log).length
    · rw [List.getElem?_append_left hlt] at hk
      exact h.lanes k o hk
    · rw [List.getElem?_append_right (Nat.not_lt.mp hlt), batchOffers, List.getElem?_map] at hk
      obtain ⟨x, hx, rfl⟩ := Option.map_eq_some_iff.mp hk
      have hf := (List.getElem?_zip_eq_some.mp hx).2
      show x.2.1 = _
      rw [hlane _ _ hf, Engine.laneOf, h.count, sizeMod_mod]
      congr 2
      omega
  · intro l
    rw [hoff, List.filterMap_append, ← h.order l]
    exact hadm l
  · intro reqs' futs' hmem
    rw [hlog] at hmem
    rcases List.mem_append.mp hmem with hmem | hmem
    · exact h.whole reqs' futs' hmem
    · cases List.mem_singleton.mp hmem
      exact ⟨futs, rfl, hlen⟩

theorem Routed.step (h : Routed numLanes c r) (a : EngineAct D) :
    Routed numLanes c (r.step numLanes cap a) := by
  cases a with
  | submit serviceMs workMode chunks chunkDelayMs now => exact h.submit _
  | submitBatch serviceMs workMode nows =>
    rw [Router.step]
    split
    · exact h
    · exact h.batch _
  | submitBatchVaried serviceMsList workMode =>
    rw [Router.step]
    split
    · exact h
    · exact h.batch _
  | lane l a => exact ⟨h.count, h.lanes, h.order, h.whole⟩
  | enqueue => exact h
  | ret => exact h
  | setBulkEnqueue on => exact h

theorem Routed.foldl (as : List (EngineAct D)) (h : Routed numLanes c r) :
    Routed numLanes c (as.foldl (Router.step numLanes cap) r) := by
  induction as generalizing r with
  | nil => exact h
  | cons a as ih => exact ih (h.step a)

end

namespace Engine

/-- an engine whose cursor stands at `c` -/
def start (impl : LaneImpl) (hex : Nat → String) (numLanes : Nat) (hL : 0 < numLanes) (cap : Int)
    (c : UInt64) (bulk : Bool) : Engine D :=
  { create impl hex numLanes hL cap with rr := c.toNat, useBulkEnqueue := bulk }

/-- each future of a call is the one of the item with its request -/
def Owns (e : Engine D) : Called D → Prop
  | .submit req l id => ∀ k : Nat, id = some k →
      ∃ it : Item D, (e.lanes l).admitted[k]? = some it ∧ it.req = req
  | .batch reqs futs => futs.length = reqs.length ∧
    ∀ (i : Nat) (req : Request D), reqs[i]? = some req →
      ∃ (l k : Nat) (it : Item D), futs[i]? = some (some (l, k)) ∧
        (e.lanes l).admitted[k]? = some it ∧ it.req = req

section
variable {impl : LaneImpl} {hex : Nat → String} {numLanes : Nat} {hL : 0 < numLanes} {cap : Int}
  {c : UInt64} {bulk : Bool} {e : Engine D}

theorem start_refines : (start impl hex numLanes hL cap c bulk : Engine D).Refines { rr := c.toNat } where
  fifo := fun l => ServiceLane.fifo_create impl (hex l) false
  diag := fun _ => rfl
  popped := fun _ => rfl
  rr := rfl
  idle := fun _ => ⟨rfl, rfl⟩
  busy := fun _ h => nomatch h

theorem start_routed : Routed numLanes c.toNat ({ rr := c.toNat } : Router D) where
  count := (Nat.mod_eq_of_lt c.toNat_lt).symm
  lanes := fun _ _ h => nomatch h
  order := fun _ => rfl
  whole := fun _ _ h => nomatch h

/-- the engine and its router after any run -/
theorem start_run {as : List (EngineAct D)}
    (h : run Engine.step (start impl hex numLanes hL cap c bulk) as = some e) :
    e.Refines (as.foldl (Router.step numLanes cap) { rr := c.toNat }) ∧
      Routed numLanes c.toNat (as.foldl (Router.step numLanes cap) ({ rr := c.toNat } : Router D)) :=
  ⟨Refines.run start_refines h, start_routed.foldl as⟩

/-- the item of an offer is where its future says -/
theorem offer_item {r : Router D} (hf : e.Refines r) (hr : Routed numLanes c.toNat r)
    (hadm : e.adm = r.adm) {o : Offer D} (ho : o ∈ offers r.log) {k : Nat} (hk : o.id = some k) :
    ∃ it : Item D, (e.lanes o.lane).admitted[k]? = some it ∧ it.req = o.req := by
  have hitem : o.itemOn o.lane = some (itemAt o.req o.cancelable k) := by
    rw [Offer.itemOn, if_pos rfl, hk]
    rfl
  have hmem : itemAt o.req o.cancelable k ∈ (e.lanes o.lane).admitted := by
    have hin := List.mem_filterMap.mpr ⟨o, ho, hitem⟩
    rw [← hr.order o.lane, ← hadm] at hin
    exact hin
  obtain ⟨j, hj⟩ := List.mem_iff_getElem?.mp hmem
  have hid : k = j := (hf.fifo o.lane).ids j _ hj
  rw [hid]
  exact ⟨_, hj, rfl⟩

theorem owns_of_mem {r : Router D} (hf : e.Refines r) (hr : Routed numLanes c.toNat r)
    (hadm : e.adm = r.adm) {call : Called D} (hc : call ∈ r.log) : e.Owns call := by
  have hoff : ∀ o ∈ call.offers, o ∈ offers r.log :=
    fun o ho => List.mem_flatMap.mpr ⟨call, hc, ho⟩
  cases call with
  | submit req l id =>
    intro k hk
    exact offer_item hf hr hadm (hoff ⟨req, true, l, id⟩ (List.mem_singleton_self _)) hk
  | batch reqs futs =>
    obtain ⟨fs, rfl, hlen⟩ := hr.whole reqs futs hc
    refine ⟨by rw [List.length_map, hlen], ?_⟩
    intro i req hi
    have hlt := (List.getElem?_eq_some_iff.mp hi).1
    have hf' : fs[i]? = some fs[i] := List.getElem?_eq_getElem (by omega)
    have hzip : (req, fs[i]) ∈ reqs.zip fs :=
      List.mem_iff_getElem?.mpr ⟨i, List.getElem?_zip_eq_some.mpr ⟨hi, hf'⟩⟩
    have hmem : (⟨req, false, fs[i].1, some fs[i].2⟩ : Offer D) ∈
        (Called.batch reqs (fs.map some)).offers := by
      rw [batch_offers]
      exact List.mem_map.mpr ⟨_, hzip, rfl⟩
    obtain ⟨it, hit, hreq⟩ := offer_item hf hr hadm (hoff _ hmem) rfl
    refine ⟨fs[i].1, fs[i].2, it, ?_, hit, hreq⟩
    rw [List.getElem?_map, hf']
    rfl

/-- **Routing.**  A cursor at `c` has counted `c` requests, so the `k`-th from there on is number
`c + k` of all.  After any calls that have returned: the cursor counts the requests, request number
`m` goes to lane `m mod L`, the items of a lane are its admitted requests in the order of the calls,
each future of a call is the one of its own request, and any other choice of strategies with the
same calls and pops gives the same queues, cursor and results. -/
theorem engine_routing {as : List (EngineAct D)}
    (hrun : run Engine.step (start impl hex numLanes hL cap c bulk) as = some e)
    (hidle : e.call = none) :
    e.rr = (c.toNat + (offers e.log).length) % sizeMod ∧
    (∀ k o, (offers e.log)[k]? = some o → o.lane = (c.toNat + k) % sizeMod % numLanes) ∧
    (c.toNat + (offers e.log).length ≤ sizeMod → ∀ k o, (offers e.log)[k]? = some o →
      o.lane = (c.toNat + k) % numLanes) ∧
    (∀ l, (e.lanes l).admitted = (offers e.log).filterMap (Offer.itemOn l)) ∧
    (∀ call ∈ e.log, e.Owns call) ∧
    ∀ (bulk' : Bool) (as' : List (EngineAct D)) (e' : Engine D),
      run Engine.step (start impl hex numLanes hL cap c bulk') as' = some e' → e'.call = none →
      as'.filter EngineAct.visible = as.filter EngineAct.visible →
      (∀ l, (e'.lanes l).admitted = (e.lanes l).admitted ∧ (e'.lanes l).queue = (e.lanes l).queue) ∧
        e'.rr = e.rr ∧ e'.log = e.log := by
  obtain ⟨hf, hr⟩ := start_run hrun
  obtain ⟨hadm, hlog⟩ := hf.idle hidle
  rw [hlog]
  refine ⟨hf.rr.trans hr.count, hr.lanes, ?_, ?_, ?_, ?_⟩
  · intro htotal k o ho
    have hk := (List.getElem?_eq_some_iff.mp ho).1
    rw [hr.lanes k o ho, Nat.mod_eq_of_lt (show c.toNat + k < sizeMod by omega)]
  · intro l
    rw [← hr.order l, ← hadm]
    rfl
  · exact fun call hc => owns_of_mem hf hr hadm hc
  · intro bulk' as' e' hrun' hidle' hvis
    have hf' := (start_run hrun').1
    rw [Router.foldl_visible, hvis, ← Router.foldl_visible] at hf'
    obtain ⟨hadm', hlog'⟩ := hf'.idle hidle'
    refine ⟨fun l => ?_, hf'.rr.trans hf.rr.symm, hlog'⟩
    have hsame : (e'.lanes l).admitted = (e.lanes l).admitted := congrFun (hadm'.trans hadm.symm) l
    refine ⟨hsame, ?_⟩
    rw [(hf'.fifo l).queue, (hf.fifo l).queue, hsame, hf'.popped l, hf.popped l]

end

end Engine

end

namespace Engine

/-- a request and a batch of three over two lanes of cap one, from cursor five, with a request that
finds its lane full -/
def routeRun : List (EngineAct Int) :=
  [.submit 1 "sleep" 1 0 0, .submitBatch 2 "sleep" [1, 2, 3], .enqueue, .lane 1 .pop, .enqueue, .ret,
    .submit 3 "spin" 1 0 4]

theorem routeRun_returns : ∃ e, run Engine.step
    (start .std (fun _ => "00000000") 2 (by decide) 1 5 true) routeRun = some e ∧ e.call = none ∧
    (offers e.log).length = 5 ∧ (offers e.log).map Offer.id = [some 0, some 0, some 1, some 1, none] :=
  ⟨_, rfl, rfl, rfl, rfl⟩

/-- the requests five to nine, the last one turned away -/
theorem engine_routing_five : ∃ e : Engine Int, run Engine.step
    (start .std (fun _ => "00000000") 2 (by decide) 1 5 true) routeRun = some e ∧ e.rr = 10 ∧
      ∀ call ∈ e.log, e.Owns call := by
  obtain ⟨e, hrun, hidle, hlen, _⟩ := routeRun_returns
  obtain ⟨hrr, _, _, _, howns, _⟩ := engine_routing hrun hidle
  refine ⟨e, hrun, ?_, howns⟩
  rw [hrr, hlen]
  rfl

end Engine

end Harness

end RayX
