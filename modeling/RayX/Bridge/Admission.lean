import RayX.Bridge.Call
import RayX.Lane.Drain

/-!
# Bounded admission with the bridge attached

The operation lanes of a live Runtime with a cap, between the Python driver, which holds the GIL in
`submit_operation`, and the threads in `bridge_dispatch`: the accept thread and the Python threads in
`_Connection::call_op`, which have released it.

* `OpConfig`           the checked arguments of the constructor, and the number of bridge callers;
* `OpEngine.step`      a cursor step, an enqueue, a row, a release, or a step of a lane;
* `Tracked`            every queued bridge item is awaited by the caller that dispatched it;
* `Bounded`            one caller at a time: the cap, or one item more with a bridge item queued;
* `bounded_admission`  **the bound `K + 1` holds of all runs exactly for a single bridge caller**.
-/

namespace RayX
open Sys

/-! ## the two ways in, up to the lane -/

/-- the registry lookup and the arity check of a dispatch -/
def entryOf (opId : String) (nargs : Nat) : Except Exc (OpEntry Unit) :=
  match findOp opId with
  | none => .error (.invalidArgument ("unknown operation id: " ++ opId))
  | some e =>
    if nargs ≠ e.arity then
      .error (.invalidArgument ("wrong number of arguments for operation: " ++ opId))
    else .ok e

theorem dispatchOpTyped_eq (lanes : OpLanes) (opId : String) (args : OpArgs) :
    dispatchOpTyped lanes opId args =
      (entryOf opId args.length).map (fun e => lanes.row e args) := by
  unfold dispatchOpTyped entryOf
  cases findOp opId with
  | none => rfl
  | some e =>
    dsimp only
    split <;> rfl

/-- `bridge_dispatch` before the slot -/
def bridgeRequest (opCode : Int) (args : List CallOpArg) : Except CallResult (String × OpArgs) :=
  match bridgeOpOf opCode with
  | none => .error (callStatus callOpUnknown)
  | some (opId, arity) =>
    if args.length ≠ arity then .error (callStatus callOpBadargs)
    else if overCap opCode args then .error (callStatus callOpBadargs)
    else
      match bridgeArgs args with
      | none => .error (callStatus callOpBadargs)
      | some oa => .ok (opId, oa)

theorem bridgeDispatch_eq (slot : Slot) (lanes : Nat → OpLanes) (opCode : Int)
    (args : List CallOpArg) :
    bridgeDispatch slot lanes opCode args =
      match bridgeRequest opCode args with
      | .error cr => (cr, slot)
      | .ok (opId, oa) =>
        match slot.acquire with
        | (.error why, slot) => (callStatus why.status, slot)
        | (.ok r, slot) => (callOfRow (dispatchOpTyped (lanes r) opId oa), slot.release) := by
  unfold bridgeDispatch bridgeRequest
  cases bridgeOpOf opCode with
  | none => rfl
  | some op =>
    dsimp only
    split
    · rfl
    · split
      · rfl
      · cases bridgeArgs args <;> rfl

theorem Slot.acquire_cases (s : Slot) : (∃ why, s.acquire = (.error why, s)) ∨
    ∃ r, s.acquire = (.ok r, { s with inFlight := s.inFlight + 1 }) := by
  unfold Slot.acquire
  cases s.bridge with
  | none => exact Or.inl ⟨_, rfl⟩
  | some r => exact Or.inr ⟨r, rfl⟩

/-! ## the engine -/

/-- a Runtime with a cap; `bridgeCallers` threads call its bridge -/
structure OpConfig where
  numLanes : Nat
  one_lane : 1 ≤ numLanes
  maxQdPerLane : Int
  capped : 1 ≤ maxQdPerLane
  cap_int : maxQdPerLane ≤ intMax.toInt
  nonblockingOpLanes : Bool := false
  maxInflightPerLane : Int := 1
  bridgeCallers : Nat

/-- a thread in `bridge_dispatch`, past the slot -/
inductive BridgeCall where
  | acquired (opId : String) (oa : OpArgs)
  | routed (l : Nat) (e : OpEntry Unit) (oa : OpArgs)
  | awaiting (l i : Nat)
  | leaving

/-- `driver`: between the cursor and the lane; `bridged`: the items of the bridge on each lane -/
structure OpEngine where
  lanes : Nat → Lane Unit
  rr : Nat := 0
  slot : Slot
  driver : Option (Nat × OpEntry Unit × OpArgs) := none
  caller : Nat → Option BridgeCall := fun _ => none
  bridged : Nat → List Nat := fun _ => []

inductive OpAct where
  | submitOperation (opId : String) (args : List PyObj)
  | trySubmit
  | call (c : Nat) (opCode : Int) (args : List CallOpArg)
  | route (c : Nat)
  | submit (c : Nat)
  | get (c : Nat)
  | release (c : Nat)
  | lane (l : Nat) (a : Act Unit)

/-- the steps of a live lane that are no admission: its consumer, its bodies, the cancels -/
def Act.live {σ : Type} : Act σ → Bool
  | .submit _ _ _ => false
  | .trySubmit _ _ _ _ => false
  | .collect => false
  | .cpCancel => false
  | .cpFulfil _ => false
  | .cpReturn => false
  | .stopBegin => false
  | .join => false
  | .awaitInflight => false
  | _ => true

namespace OpEngine

def lane (cfg : OpConfig) (l : Nat) : Lane Unit :=
  Lane.create ("rt-hpx-" ++ toString l)
    (if cfg.nonblockingOpLanes then .asyncNonBlocking else .serialBlocking) cfg.maxInflightPerLane ()

/-- after the constructor: the lanes are live and the bridge is published -/
def start (cfg : OpConfig) : OpEngine := { lanes := lane cfg, slot := ({} : Slot).publish 0 }

def setLane (s : OpEngine) (l : Nat) (x : Lane Unit) : OpEngine :=
  { s with lanes := Function.update s.lanes l x }

def setCaller (s : OpEngine) (c : Nat) (x : Option BridgeCall) : OpEngine :=
  { s with caller := Function.update s.caller c x }

/-- `rr_.fetch_add(1)` -/
def next (s : OpEngine) : Nat := (s.rr + 1) % 2 ^ 64

/-- the check of `submit_operation` before the cursor -/
def operationOf (opId : String) (args : List PyObj) : Option (OpEntry Unit × OpArgs) :=
  match entryOf opId args.length, marshalArgs ("operation '" ++ opId ++ "'") args with
  | .ok e, .ok targs => some (e, targs)
  | _, _ => none

/-- the item of a dispatch, for the lane's `submit` and `try_submit` -/
def taskOf (s : OpEngine) (l : Nat) (e : OpEntry Unit) (args : OpArgs) : Prog Unit Exc RuntimeResult :=
  makeOpTask e.fn args (s.lanes l).actorId

/-- no token of a bridge item is handed out -/
def mayCancel (s : OpEngine) (l : Nat) : Act Unit → Bool
  | .cancel i => !(s.bridged l).contains i
  | _ => true

def step (cfg : OpConfig) (s : OpEngine) : OpAct → Option OpEngine
  | .submitOperation opId args =>
    match s.driver, operationOf opId args with
    | none, some (e, targs) =>
      some { s with rr := s.next, driver := some (s.rr % cfg.numLanes, e, targs) }
    -- the exceptions
    | none, none => some s
    | some _, _ => none
  | .trySubmit =>
    match s.driver with
    | some (l, e, args) =>
      ((s.lanes l).step (.trySubmit (s.taskOf l e args) cfg.maxQdPerLane (e.checkpointCount args)
        e.policy)).map (fun x => { s.setLane l x with driver := none })
    | none => none
  | .call c opCode args =>
    if c < cfg.bridgeCallers then
      match s.caller c, bridgeRequest opCode args with
      | none, .ok (opId, oa) =>
        match s.slot.acquire with
        | (.ok _, slot) => some { s.setCaller c (some (.acquired opId oa)) with slot := slot }
        | (.error _, slot) => some { s with slot := slot }
      | none, .error _ => some s
      | some _, _ => none
    else none
  | .route c =>
    match s.caller c with
    | some (.acquired opId oa) =>
      match entryOf opId oa.length with
      | .ok e =>
        some { s.setCaller c (some (.routed (s.rr % cfg.numLanes) e oa)) with rr := s.next }
      | .error _ => some (s.setCaller c (some .leaving))
    | _ => none
  | .submit c =>
    match s.caller c with
    | some (.routed l e oa) =>
      ((s.lanes l).step (.submit (s.taskOf l e oa) (e.checkpointCount oa) e.policy)).map
        (fun x => { (s.setLane l x).setCaller c (some (.awaiting l (s.lanes l).admitted.length)) with
          bridged := Function.update s.bridged l
            (s.bridged l ++ [(s.lanes l).admitted.length]) })
    | _ => none
  | .get c =>
    match s.caller c with
    | some (.awaiting l i) =>
      match (s.lanes l).prom i with
      | [] => none
      | _ :: _ => some (s.setCaller c (some .leaving))
    | _ => none
  | .release c =>
    match s.caller c with
    | some .leaving => some { s.setCaller c none with slot := s.slot.release }
    | _ => none
  | .lane l a =>
    if a.live = true ∧ s.mayCancel l a = true then ((s.lanes l).step a).map (s.setLane l) else none

/-! ## the branches as a relation -/

inductive Step (cfg : OpConfig) (s : OpEngine) : OpAct → OpEngine → Prop where
  | refused {a} : Step cfg s a s
  | routes {opId args e targs} (hd : s.driver = none) :
    Step cfg s (.submitOperation opId args)
      { s with rr := s.next, driver := some (s.rr % cfg.numLanes, e, targs) }
  | tries {l e args x} (hd : s.driver = some (l, e, args))
      (hx : (s.lanes l).step (.trySubmit (s.taskOf l e args) cfg.maxQdPerLane
        (e.checkpointCount args) e.policy) = some x) :
    Step cfg s .trySubmit { s.setLane l x with driver := none }
  | acquires {c opCode args opId oa} (hlt : c < cfg.bridgeCallers) (hc : s.caller c = none) :
    Step cfg s (.call c opCode args) { s.setCaller c (some (.acquired opId oa)) with
      slot := { s.slot with inFlight := s.slot.inFlight + 1 } }
  | bridgeRoutes {c opId oa e} (hc : s.caller c = some (.acquired opId oa)) :
    Step cfg s (.route c)
      { s.setCaller c (some (.routed (s.rr % cfg.numLanes) e oa)) with rr := s.next }
  | bridgeFails {c opId oa} (hc : s.caller c = some (.acquired opId oa)) :
    Step cfg s (.route c) (s.setCaller c (some .leaving))
  | enqueues {c l e oa x} (hc : s.caller c = some (.routed l e oa))
      (hx : (s.lanes l).step (.submit (s.taskOf l e oa) (e.checkpointCount oa) e.policy) = some x) :
    Step cfg s (.submit c)
      { (s.setLane l x).setCaller c (some (.awaiting l (s.lanes l).admitted.length)) with
        bridged := Function.update s.bridged l (s.bridged l ++ [(s.lanes l).admitted.length]) }
  | gets {c l i} (hc : s.caller c = some (.awaiting l i)) (hp : (s.lanes l).prom i ≠ []) :
    Step cfg s (.get c) (s.setCaller c (some .leaving))
  | releases {c} (hc : s.caller c = some .leaving) :
    Step cfg s (.release c) { s.setCaller c none with slot := s.slot.release }
  | lane {l a x} (ha : a.live = true) (hm : s.mayCancel l a = true)
      (hx : (s.lanes l).step a = some x) :
    Step cfg s (.lane l a) (s.setLane l x)

variable {cfg : OpConfig} {s s' : OpEngine} {a : OpAct}

theorem step_sound (h : s.step cfg a = some s') : Step cfg s a s' := by
  cases a with
  | submitOperation opId args =>
    simp only [step] at h
    split at h
    · rename_i e targs hd ho
      cases h
      exact .routes hd
    · cases h
      exact .refused
    · cases h
  | trySubmit =>
    simp only [step] at h
    split at h
    · rename_i l e args hd
      obtain ⟨x, hx, rfl⟩ := Option.map_eq_some_iff.mp h
      exact .tries hd hx
    · cases h
  | call c opCode args =>
    simp only [step, Option.ite_none_right_eq_some] at h
    obtain ⟨hlt, h⟩ := h
    split at h
    · rename_i opId oa hc hreq
      rcases s.slot.acquire_cases with ⟨why, ha⟩ | ⟨r, ha⟩
      · rw [ha] at h
        cases h
        exact .refused
      · rw [ha] at h
        cases h
        exact .acquires hlt hc
    · cases h
      exact .refused
    · cases h
  | route c =>
    simp only [step] at h
    split at h
    · rename_i opId oa hc
      split at h
      · cases h
        exact .bridgeRoutes hc
      · cases h
        exact .bridgeFails hc
    · cases h
  | submit c =>
    simp only [step] at h
    split at h
    · rename_i l e oa hc
      obtain ⟨x, hx, rfl⟩ := Option.map_eq_some_iff.mp h
      exact .enqueues hc hx
    · cases h
  | get c =>
    simp only [step] at h
    split at h
    · rename_i l i hc
      split at h
      · cases h
      · rename_i r rs hp
        cases h
        exact .gets hc (by rw [hp]; exact List.cons_ne_nil r rs)
    · cases h
  | release c =>
    simp only [step] at h
    split at h
    · rename_i hc
      cases h
      exact .releases hc
    · cases h
  | lane l a =>
    simp only [step, Option.ite_none_right_eq_some] at h
    obtain ⟨⟨ha, hm⟩, h⟩ := h
    obtain ⟨x, hx, rfl⟩ := Option.map_eq_some_iff.mp h
    exact .lane ha hm hx

end OpEngine

/-! ## an untouched item -/

/-- an item that no cancel has touched has no row before it is popped -/
def Life.Untouched (l : Life Unit) : Prop :=
  l.loc = .absent ∨ l.loc = .queued → l.answers = [] → l.Unpaid

theorem Life.Untouched.step {l l' : Life Unit} {actorId : String} (h : l.Untouched)
    (hs : Step actorId l l') : l'.Untouched := by
  intro hl ha
  cases hs with
  | accept it hloc => exact h (Or.inl hloc) ha
  | cancel hloc => exact absurd ha (List.append_ne_nil_of_right_ne_nil _ (List.cons_ne_nil _ _))
  | cancelFulfil now ho =>
    have hu := h hl ha
    exact absurd hu.2 (Nat.pos_iff_ne_zero.mp ho)
  | pop hloc => rcases hl with hl | hl <;> cases hl
  | begins it hi hloc hb => rcases hl with hl | hl <;> cases hl
  | skips it hi hloc hb => rcases hl with hl | hl <;> cases hl
  | starts it hi hloc => rcases hl with hl | hl <;> cases hl
  | registers hloc => rcases hl with hl | hl <;> cases hl
  | launch it hi hloc => rcases hl with hl | hl <;> cases hl
  | ends t r hloc hr => rcases hl with hl | hl <;> cases hl
  | effect t t' now st st' tk hloc hr ht => rcases hl with hl | hl <;> cases hl
  | markFinished r hloc => rcases hl with hl | hl <;> cases hl
  | setHere r hloc => rcases hl with hl | hl <;> cases hl
  | setThere r hloc => rcases hl with hl | hl <;> cases hl
  | release hloc => rcases hl with hl | hl <;> cases hl

namespace Lane
variable {s s' : Lane Unit}

/-- the ids in the queue -/
def waiting (s : Lane Unit) : List Nat := s.queue.map Item.id

theorem untouched_unset {actorId : String} {mode : LaneMode} {maxInflight : Int}
    (h : Reach Lane.step (create actorId mode maxInflight ()) s) {i : Nat} (hi : i ∈ s.waiting)
    (ha : s.answers i = []) : s.prom i = [] := by
  have hl : (view i s).Untouched :=
    view_inv (fun _ _ => ⟨rfl, rfl⟩) (fun _ _ hl hs => hl.step hs) h i
  obtain ⟨hlt, hq⟩ := (wf_reach h).queued_iff.mp hi
  exact (hl (Or.inr (loc_queued hlt hq)) ha).1

/-- a step that is no admission pops the queue at most, and answers nobody but a cancel -/
theorem live_kept {a : Act Unit} (hs : Step s a s') (ha : a.live = true) :
    (s'.queue = s.queue ∨ ∃ it, s.queue = it :: s'.queue) ∧ s'.admitted = s.admitted ∧
      ∀ i, a ≠ .cancel i → s'.answers i = s.answers i := by
  cases hs with
  | submit hs => cases ha
  | accept hs hd => cases ha
  | reject hs hd => cases ha
  | collect hp => cases ha
  | cpCancel hp => cases ha
  | cpFulfil hp => cases ha
  | cpReturn hp => cases ha
  | stopBegin hs => cases ha
  | join hs hc => cases ha
  | awaitInflight hs hi => cases ha
  | @cancel j hj =>
    refine ⟨Or.inl rfl, rfl, ?_⟩
    intro i hne
    exact Function.update_of_ne (fun he => hne (by rw [he])) _ _
  | @pop it queue hc hq hp => exact ⟨Or.inr ⟨it, hq⟩, rfl, fun _ _ => rfl⟩
  | _ => exact ⟨Or.inl rfl, rfl, fun _ _ => rfl⟩

/-- an admission, by either way in -/
theorem push_waiting (s : Lane Unit) (task : Prog Unit Exc RuntimeResult) (cc : Int)
    (policy : DispatchPolicy) :
    (s.push task cc policy).waiting = s.waiting ++ [s.admitted.length] := by
  show (s.queue ++ [_]).map Item.id = _
  rw [List.map_append]
  rfl

end Lane

namespace OpEngine
variable {cfg : OpConfig} {s s' : OpEngine} {a : OpAct}

/-! ## who waits for a bridge item -/

/-- a caller in a call of the bridge -/
theorem busy {c : Nat} {x : BridgeCall} (hc : s.caller c = some x) : s.caller c ≠ none := by
  rw [hc]
  exact Option.some_ne_none x

structure Tracked (cfg : OpConfig) (s : OpEngine) : Prop where
  reach : ∀ l, Reach Lane.step (lane cfg l) (s.lanes l)
  ours : ∀ c l i, s.caller c = some (.awaiting l i) → i ∈ s.bridged l
  kept : ∀ l, ∀ i ∈ s.bridged l, i < (s.lanes l).admitted.length ∧ (s.lanes l).answers i = []
  awaited : ∀ l, ∀ i ∈ s.bridged l, i ∈ (s.lanes l).waiting → ∃ c, s.caller c = some (.awaiting l i)
  count : (holders s.caller).encard = s.slot.inFlight

theorem tracked_start (cfg : OpConfig) : Tracked cfg (start cfg) where
  reach := fun l => .refl (lane cfg l)
  ours := fun _ _ _ h => nomatch h
  kept := fun _ _ h => nomatch h
  awaited := fun _ _ h => nomatch h
  count := by
    show (holders (fun _ => (none : Option BridgeCall))).encard = ((0 : Nat) : ℕ∞)
    simp [holders]

/-- a caller moves on, away from a queued item at most -/
theorem Tracked.move (h : Tracked cfg s) (slot : Slot) (rr : Nat) {c : Nat} {y : Option BridgeCall}
    (hc : ∀ l i, s.caller c = some (.awaiting l i) → i ∉ (s.lanes l).waiting)
    (hy : ∀ l i, y ≠ some (.awaiting l i))
    (hcount : (holders (Function.update s.caller c y)).encard = slot.inFlight) :
    Tracked cfg { s.setCaller c y with slot := slot, rr := rr } where
  reach := h.reach
  ours := update_all (P := fun _ z => ∀ l i, z = some (BridgeCall.awaiting l i) → i ∈ s.bridged l) h.ours
    (fun l i hz => absurd hz (hy l i))
  kept := h.kept
  awaited := by
    intro l i hi hw
    obtain ⟨c', hc'⟩ := h.awaited l i hi hw
    have hcc : c' ≠ c := by
      intro he
      rw [he] at hc'
      exact hc l i hc' hw
    refine ⟨c', ?_⟩
    show Function.update s.caller c y c' = _
    rw [Function.update_of_ne hcc]
    exact hc'
  count := hcount

/-- a lane moves on without a new bridge item -/
theorem Tracked.lane (h : Tracked cfg s) {l : Nat} {x : Lane Unit}
    {d : Option (Nat × OpEntry Unit × OpArgs)} (hr : Reach Lane.step (s.lanes l) x)
    (hlen : (s.lanes l).admitted.length ≤ x.admitted.length)
    (hans : ∀ i ∈ s.bridged l, x.answers i = (s.lanes l).answers i)
    (hw : ∀ i ∈ s.bridged l, i ∈ x.waiting → i ∈ (s.lanes l).waiting) :
    Tracked cfg { s.setLane l x with driver := d } where
  reach := update_all (P := fun l' y => Reach Lane.step (OpEngine.lane cfg l') y) h.reach
    ((h.reach l).trans hr)
  ours := h.ours
  kept := by
    intro l' i hi
    show i < (Function.update s.lanes l x l').admitted.length ∧
      (Function.update s.lanes l x l').answers i = []
    by_cases hl : l' = l
    · subst hl
      obtain ⟨hlt, ha⟩ := h.kept l' i hi
      rw [Function.update_self]
      exact ⟨Nat.lt_of_lt_of_le hlt hlen, (hans i hi).trans ha⟩
    · rw [Function.update_of_ne hl]
      exact h.kept l' i hi
  awaited := by
    intro l' i hi hin
    have hin' : i ∈ (Function.update s.lanes l x l').waiting := hin
    by_cases hl : l' = l
    · subst hl
      rw [Function.update_self] at hin'
      exact h.awaited l' i hi (hw i hi hin')
    · rw [Function.update_of_ne hl] at hin'
      exact h.awaited l' i hi hin'
  count := h.count

/-- a bridge item is pushed -/
theorem Tracked.enqueue (h : Tracked cfg s) {c l : Nat} {e : OpEntry Unit} {oa : OpArgs}
    (hc : s.caller c = some (.routed l e oa)) {x : Lane Unit}
    (hx : (s.lanes l).step (.submit (s.taskOf l e oa) (e.checkpointCount oa) e.policy) = some x)
    (hpush : x = (s.lanes l).push (s.taskOf l e oa) (e.checkpointCount oa) e.policy) :
    Tracked cfg { (s.setLane l x).setCaller c (some (.awaiting l (s.lanes l).admitted.length)) with
      bridged := Function.update s.bridged l (s.bridged l ++ [(s.lanes l).admitted.length]) } where
  reach := update_all (P := fun l' y => Reach Lane.step (OpEngine.lane cfg l') y) h.reach
    ((h.reach l).trans (.one _ hx))
  ours := by
    intro c' l' i hc'
    have hc'' : Function.update s.caller c (some (.awaiting l (s.lanes l).admitted.length)) c' =
        some (.awaiting l' i) := hc'
    show i ∈ Function.update s.bridged l _ l'
    by_cases hcc : c' = c
    · rw [hcc, Function.update_self] at hc''
      cases hc''
      rw [Function.update_self]
      exact List.mem_append_right _ (List.mem_singleton_self _)
    · rw [Function.update_of_ne hcc] at hc''
      have hi := h.ours c' l' i hc''
      by_cases hl : l' = l
      · subst hl
        rw [Function.update_self]
        exact List.mem_append_left _ hi
      · rw [Function.update_of_ne hl]
        exact hi
  kept := by
    intro l' i hi
    have hi' : i ∈ Function.update s.bridged l (s.bridged l ++ [(s.lanes l).admitted.length]) l' := hi
    show i < (Function.update s.lanes l x l').admitted.length ∧
      (Function.update s.lanes l x l').answers i = []
    by_cases hl : l' = l
    · subst hl
      rw [Function.update_self] at hi' ⊢
      rw [hpush]
      show i < ((s.lanes l').admitted ++ [_]).length ∧ (s.lanes l').answers i = []
      rw [List.length_append, List.length_singleton]
      rcases List.mem_append.mp hi' with hi' | hi'
      · obtain ⟨hlt, ha⟩ := h.kept l' i hi'
        exact ⟨Nat.lt_succ_of_lt hlt, ha⟩
      · rw [List.mem_singleton.mp hi']
        exact ⟨Nat.lt_succ_self _, ((Lane.wf_reach (h.reach l')).fresh _ (Nat.le_refl _)).2.2⟩
    · rw [Function.update_of_ne hl] at hi' ⊢
      exact h.kept l' i hi'
  awaited := by
    intro l' i hi hin
    have hi' : i ∈ Function.update s.bridged l (s.bridged l ++ [(s.lanes l).admitted.length]) l' := hi
    have hin' : i ∈ (Function.update s.lanes l x l').waiting := hin
    show ∃ c', Function.update s.caller c (some (.awaiting l (s.lanes l).admitted.length)) c' = _
    -- a caller that waits already is not the one in between
    have hold : i ∈ s.bridged l' → i ∈ (s.lanes l').waiting →
        ∃ c', Function.update s.caller c (some (.awaiting l (s.lanes l).admitted.length)) c' =
          some (.awaiting l' i) := by
      intro hb hw
      obtain ⟨c', hc'⟩ := h.awaited l' i hb hw
      have hcc : c' ≠ c := by
        intro he
        rw [he, hc] at hc'
        cases hc'
      exact ⟨c', (Function.update_of_ne hcc _ _).trans hc'⟩
    by_cases hl : l' = l
    · subst hl
      rw [Function.update_self] at hi' hin'
      rw [hpush, Lane.push_waiting] at hin'
      by_cases hnew : i = (s.lanes l').admitted.length
      · rw [hnew]
        exact ⟨c, Function.update_self c _ _⟩
      · have hne : i ∉ [(s.lanes l').admitted.length] := fun hm => hnew (List.mem_singleton.mp hm)
        exact hold ((List.mem_append.mp hi').resolve_right hne)
          ((List.mem_append.mp hin').resolve_right hne)
    · rw [Function.update_of_ne hl] at hi' hin'
      exact hold hi' hin'
  count := by
    exact count_swap (busy hc) h.count

theorem Tracked.step (h : Tracked cfg s) (hs : Step cfg s a s') : Tracked cfg s' := by
  cases hs with
  | refused => exact h
  | routes hd => exact ⟨h.reach, h.ours, h.kept, h.awaited, h.count⟩
  | @tries l e args x hd hx =>
    cases Lane.step_sound hx with
    | accept hs hq =>
      refine h.lane (.one _ hx) (Nat.le_of_lt (by
        show _ < ((s.lanes l).admitted ++ [_]).length
        rw [List.length_append, List.length_singleton]
        exact Nat.lt_succ_self _)) (fun _ _ => rfl) ?_
      intro i hi hw
      rw [Lane.push_waiting] at hw
      refine (List.mem_append.mp hw).resolve_right (fun hm => ?_)
      have hlt := (h.kept l i hi).1
      rw [List.mem_singleton.mp hm] at hlt
      exact Nat.lt_irrefl _ hlt
    | reject hs hq => exact h.lane (.refl _) (Nat.le_refl _) (fun _ _ => rfl) (fun _ _ hw => hw)
  | acquires hlt hc =>
    refine h.move _ s.rr ?_ (fun _ _ hh => (nomatch hh)) (count_take hc h.count)
    intro l i hc'
    rw [hc] at hc'
    cases hc'
  | bridgeRoutes hc =>
    refine h.move s.slot s.next ?_ (fun _ _ hh => (nomatch hh))
      (count_swap (busy hc) h.count)
    intro l i hc'
    rw [hc] at hc'
    cases hc'
  | bridgeFails hc =>
    refine h.move s.slot s.rr ?_ (fun _ _ hh => (nomatch hh))
      (count_swap (busy hc) h.count)
    intro l i hc'
    rw [hc] at hc'
    cases hc'
  | enqueues hc hx =>
    refine h.enqueue hc hx ?_
    cases Lane.step_sound hx with
    | submit hs => rfl
  | @gets c l i hc hp =>
    refine h.move s.slot s.rr ?_ (fun _ _ hh => (nomatch hh))
      (count_swap (busy hc) h.count)
    intro l' i' hc' hw
    rw [hc] at hc'
    cases hc'
    exact hp (Lane.untouched_unset (h.reach l) hw (h.kept l i (h.ours c l i hc)).2)
  | releases hc =>
    obtain ⟨hpos, hgive⟩ := count_give (busy hc) h.count
    refine h.move _ s.rr ?_ (fun _ _ hh => (nomatch hh)) ?_
    · intro l i hc'
      rw [hc] at hc'
      cases hc'
    · rw [hgive, Slot.release, if_pos hpos]
  | @lane l a x ha hm hx =>
    obtain ⟨hq, hadm, hans⟩ := Lane.live_kept (Lane.step_sound hx) ha
    refine h.lane (d := s.driver) (.one _ hx) (Nat.le_of_eq (by rw [hadm])) ?_ ?_
    · intro i hi
      refine hans i ?_
      intro he
      rw [he] at hm
      simp [mayCancel, hi] at hm
    · intro i _ hw
      rcases hq with hq | ⟨it, hq⟩
      · unfold Lane.waiting at hw ⊢
        rw [hq] at hw
        exact hw
      · unfold Lane.waiting at hw ⊢
        rw [hq, List.map_cons]
        exact List.mem_cons_of_mem _ hw

/-! ## one caller at a time -/

/-- the cap, or one item more while a bridge item is queued -/
def Within (cfg : OpConfig) (bridged : List Nat) (x : Lane Unit) : Prop :=
  x.queue.length ≤ cfg.maxQdPerLane ∨
    (x.queue.length = cfg.maxQdPerLane + 1 ∧ ∃ i ∈ bridged, i ∈ x.waiting)

theorem Within.le {bridged : List Nat} {x : Lane Unit} (h : Within cfg bridged x) :
    x.queue.length ≤ cfg.maxQdPerLane + 1 := by
  rcases h with h | ⟨h, _⟩ <;> omega

/-- the size of a queue fits an `int` when the cap leaves room, or without bridge items -/
theorem Within.fits {bridged : List Nat} {x : Lane Unit} (h : Within cfg bridged x)
    (hK : cfg.maxQdPerLane < intMax.toInt ∨ bridged = []) :
    intOfSize x.queue.length = x.queue.length := by
  have hmax : intMax.toInt = 2147483647 := rfl
  have hcap := cfg.cap_int
  apply intOfSize_eq
  rcases h with h | ⟨h, i, hi, _⟩
  · omega
  · rcases hK with hK | hK
    · omega
    · rw [hK] at hi
      cases hi

theorem Within.live {bridged : List Nat} {x y : Lane Unit} (h : Within cfg bridged x)
    (hq : y.queue = x.queue ∨ ∃ it, x.queue = it :: y.queue) : Within cfg bridged y := by
  rcases hq with hq | ⟨it, hq⟩
  · unfold Within Lane.waiting at h ⊢
    rw [hq]
    exact h
  · have hle := h.le
    rw [hq, List.length_cons] at hle
    exact Or.inl (by omega)

theorem push_length (x : Lane Unit) (task : Prog Unit Exc RuntimeResult) (cc : Int)
    (policy : DispatchPolicy) : (x.push task cc policy).queue.length = x.queue.length + 1 := by
  show (x.queue ++ [_]).length = _
  rw [List.length_append, List.length_singleton]

structure Bounded (cfg : OpConfig) (s : OpEngine) : Prop where
  single : ∀ c c', s.caller c ≠ none → s.caller c' ≠ none → c = c'
  within : ∀ l, Within cfg (s.bridged l) (s.lanes l)

theorem bounded_start (cfg : OpConfig) : Bounded cfg (start cfg) where
  single := fun _ _ h => absurd rfl h
  within := by
    intro l
    have := cfg.capped
    exact Or.inl (by show ((0 : Nat) : Int) ≤ _; omega)

/-- no call of the bridge is in flight when one is let in -/
def Serial (s : OpEngine) : OpAct → Prop
  | .call _ _ _ => s.slot.inFlight = 0
  | _ => True

theorem Bounded.move (h : Bounded cfg s) {c : Nat} (hc : s.caller c ≠ none) (y : Option BridgeCall)
    (c₁ c₂ : Nat) (h₁ : Function.update s.caller c y c₁ ≠ none)
    (h₂ : Function.update s.caller c y c₂ ≠ none) : c₁ = c₂ := by
  have hold : ∀ c', Function.update s.caller c y c' ≠ none → s.caller c' ≠ none :=
    update_all (P := fun c z => z ≠ none → s.caller c ≠ none) (fun _ hc' => hc') (fun _ => hc)
  exact h.single c₁ c₂ (hold c₁ h₁) (hold c₂ h₂)

theorem Bounded.lane (h : Bounded cfg s) {l : Nat} {x : Lane Unit}
    (hx : Within cfg (s.bridged l) x) (l' : Nat) :
    Within cfg (s.bridged l') (Function.update s.lanes l x l') :=
  update_all (P := fun l' y => Within cfg (s.bridged l') y) h.within hx l'

theorem Bounded.step (ht : Tracked cfg s) (h : Bounded cfg s)
    (hK : cfg.maxQdPerLane < intMax.toInt ∨ ∀ l, s.bridged l = []) (hs : Step cfg s a s')
    (hser : s.Serial a) : Bounded cfg s' := by
  cases hs with
  | refused => exact h
  | routes hd => exact ⟨h.single, h.within⟩
  | @tries l e args x hd hx =>
    refine ⟨h.single, h.lane ?_⟩
    cases Lane.step_sound hx with
    | accept hs hq =>
      rw [(h.within l).fits (hK.imp_right (fun hb => hb l))] at hq
      refine Or.inl ?_
      rw [push_length]
      omega
    | reject hs hq => exact h.within l
  | @acquires c opCode args opId oa hlt hc =>
    have hcount := ht.count
    rw [show s.slot.inFlight = 0 from hser] at hcount
    -- nobody else is between acquire and release
    have hme : ∀ c', Function.update s.caller c (some (.acquired opId oa)) c' ≠ none → c' = c := by
      intro c' hc'
      by_contra hcc
      rw [Function.update_of_ne hcc] at hc'
      exact hc' (count_zero hcount c')
    exact ⟨fun c₁ c₂ h₁ h₂ => (hme c₁ h₁).trans (hme c₂ h₂).symm, h.within⟩
  | bridgeRoutes hc =>
    exact ⟨h.move (busy hc) _, h.within⟩
  | bridgeFails hc =>
    exact ⟨h.move (busy hc) _, h.within⟩
  | @enqueues c l e oa x hc hx =>
    refine ⟨h.move (busy hc) _, ?_⟩
    -- the caller in between is the only one, so no bridge item is queued
    have hle : (s.lanes l).queue.length ≤ cfg.maxQdPerLane := by
      rcases h.within l with hle | ⟨_, i, hi, hw⟩
      · exact hle
      · obtain ⟨c', hc'⟩ := ht.awaited l i hi hw
        have hcc := h.single c c' (busy hc) (busy hc')
        rw [← hcc, hc] at hc'
        cases hc'
    intro l'
    show Within cfg (Function.update s.bridged l _ l') (Function.update s.lanes l x l')
    by_cases hl : l' = l
    · subst hl
      rw [Function.update_self, Function.update_self]
      cases Lane.step_sound hx with
      | submit hs =>
        unfold Within
        rw [push_length, Lane.push_waiting]
        by_cases hroom : (s.lanes l').queue.length + 1 ≤ cfg.maxQdPerLane
        · exact Or.inl hroom
        · exact Or.inr ⟨by push_cast; omega, _, List.mem_append_right _ (List.mem_singleton_self _),
            List.mem_append_right _ (List.mem_singleton_self _)⟩
    · rw [Function.update_of_ne hl, Function.update_of_ne hl]
      exact h.within l'
  | gets hc hp => exact ⟨h.move (busy hc) _, h.within⟩
  | releases hc => exact ⟨h.move (busy hc) _, h.within⟩
  | @lane l a x ha hm hx =>
    exact ⟨h.single, h.lane ((h.within l).live (Lane.live_kept (Lane.step_sound hx) ha).1)⟩

/-- **One bridge call at a time adds one item.** -/
theorem serial_bounded (hK : cfg.maxQdPerLane < intMax.toInt) {as : List OpAct}
    (h : run (step cfg) (start cfg) as = some s) (hser : stepsMeet (step cfg) Serial (start cfg) as)
    (l : Nat) : (s.lanes l).queue.length ≤ cfg.maxQdPerLane + 1 := by
  have hinv : Tracked cfg s ∧ Bounded cfg s := by
    refine run_inv_of (P := fun s => Tracked cfg s ∧ Bounded cfg s) ?_ h hser
      ⟨tracked_start cfg, bounded_start cfg⟩
    intro s a s' ⟨ht, hb⟩ hC hs
    exact ⟨ht.step (step_sound hs), hb.step ht (Or.inl hK) (step_sound hs) hC⟩
  exact (hinv.2.within l).le

/-! ## at most one caller -/

/-- the callers are those of the configuration, and without callers there is no bridge item -/
structure Named (cfg : OpConfig) (s : OpEngine) : Prop where
  callers : ∀ c, s.caller c ≠ none → c < cfg.bridgeCallers
  none : cfg.bridgeCallers = 0 → ∀ l, s.bridged l = []

theorem Named.move (h : Named cfg s) {c : Nat} (hc : c < cfg.bridgeCallers) (y : Option BridgeCall)
    (c' : Nat) (hc' : Function.update s.caller c y c' ≠ .none) : c' < cfg.bridgeCallers :=
  update_all (P := fun c z => z ≠ Option.none → c < cfg.bridgeCallers) h.callers (fun _ => hc) c' hc'

theorem Named.step (h : Named cfg s) (hs : Step cfg s a s') : Named cfg s' := by
  have hlt : ∀ {c : Nat} {x : BridgeCall}, s.caller c = some x → c < cfg.bridgeCallers :=
    fun hc => h.callers _ (busy hc)
  cases hs with
  | refused => exact h
  | routes hd => exact ⟨h.callers, h.none⟩
  | tries hd hx => exact ⟨h.callers, h.none⟩
  | acquires hc _ => exact ⟨h.move hc _, h.none⟩
  | bridgeRoutes hc => exact ⟨h.move (hlt hc) _, h.none⟩
  | bridgeFails hc => exact ⟨h.move (hlt hc) _, h.none⟩
  | enqueues hc hx =>
    have hpos := hlt hc
    exact ⟨h.move hpos _, fun h0 => absurd hpos (by omega)⟩
  | gets hc hp => exact ⟨h.move (hlt hc) _, h.none⟩
  | releases hc => exact ⟨h.move (hlt hc) _, h.none⟩
  | lane ha hm hx => exact ⟨h.callers, h.none⟩

/-- a lone caller finds no call in flight -/
theorem serial_of_one (hn : cfg.bridgeCallers ≤ 1) (ht : Tracked cfg s) (h : Named cfg s)
    (hs : s.step cfg a = some s') : s.Serial a := by
  cases a with
  | call c opCode args =>
    simp only [OpEngine.step, Option.ite_none_right_eq_some] at hs
    obtain ⟨hlt, hs⟩ := hs
    have hfree : s.caller c = none := by
      cases hc : s.caller c with
      | none => rfl
      | some x => simp [hc] at hs
    have hempty : holders s.caller = ∅ := by
      ext c'
      refine ⟨fun hc' => ?_, fun hc' => absurd hc' (Set.notMem_empty c')⟩
      have hlt' := h.callers c' hc'
      have hcc : c' = c := by omega
      rw [hcc] at hc'
      exact absurd hfree hc'
    have hcount := ht.count
    rw [hempty, Set.encard_empty] at hcount
    exact_mod_cast hcount.symm
  | _ => trivial

/-- **With one bridge caller at most, the bound holds of every run.** -/
theorem lone_bounded (hn : cfg.bridgeCallers = 0 ∨
      cfg.bridgeCallers = 1 ∧ cfg.maxQdPerLane < intMax.toInt)
    (h : Reach (step cfg) (start cfg) s) (l : Nat) :
    (s.lanes l).queue.length ≤ cfg.maxQdPerLane + 1 := by
  have hinv : Tracked cfg s ∧ Bounded cfg s ∧ Named cfg s := by
    refine h.inv (P := fun s => Tracked cfg s ∧ Bounded cfg s ∧ Named cfg s) ?_
      ⟨tracked_start cfg, bounded_start cfg, fun _ hc => absurd rfl hc, fun _ _ => rfl⟩
    intro s a s' ⟨ht, hb, hw⟩ hs
    have hser := serial_of_one (by omega) ht hw hs
    have hK : cfg.maxQdPerLane < intMax.toInt ∨ ∀ l, s.bridged l = [] :=
      hn.elim (fun h0 => Or.inr (hw.none h0)) (fun h1 => Or.inl h1.2)
    exact ⟨ht.step (step_sound hs), hb.step ht hK (step_sound hs) hser, hw.step (step_sound hs)⟩
  exact (hinv.2.1.within l).le

/-! ## more callers -/

/-- a reachable engine whose driver is between two calls, with `q` items at least on lane 0 and the
callers from `c` on outside of the bridge -/
structure Filled (cfg : OpConfig) (q c : Nat) (s : OpEngine) : Prop where
  reach : Reach (step cfg) (start cfg) s
  driver : s.driver = none
  published : s.slot.bridge = some 0
  running : ∀ l, (s.lanes l).stop = false
  free : ∀ k, c ≤ k → s.caller k = none
  filled : q ≤ (s.lanes 0).queue.length
  cursor : s.rr < 2 ^ 64

theorem trySubmit_some {x : Lane Unit} (h : x.stop = false) (task : Prog Unit Exc RuntimeResult)
    (depth cc : Int) (policy : DispatchPolicy) :
    ∃ y, x.step (.trySubmit task depth cc policy) = some y ∧ y.stop = false ∧
      x.queue.length ≤ y.queue.length ∧
      (intOfSize x.queue.length < depth → y.queue.length = x.queue.length + 1) := by
  by_cases hd : depth ≤ intOfSize x.queue.length
  · refine ⟨x, ?_, h, Nat.le_refl _, fun hlt => absurd hd (by omega)⟩
    simp [Lane.step, h, hd]
  · refine ⟨x.push task cc policy, ?_, h, ?_, fun _ => push_length x task cc policy⟩
    · simp [Lane.step, h, hd]
    · rw [push_length]
      exact Nat.le_succ _

variable {q c : Nat}

theorem running_update (h : ∀ l, (s.lanes l).stop = false) {l : Nat} {x : Lane Unit}
    (hx : x.stop = false) (l' : Nat) : (Function.update s.lanes l x l').stop = false :=
  update_all (P := fun _ y => Lane.stop y = false) h hx l'

/-- the driver offers one more operation to the lane at the cursor -/
theorem Filled.offer (h : Filled cfg q c s) : ∃ s', Filled cfg q c s' ∧
    s'.rr = (s.rr + 1) % 2 ^ 64 ∧ (s.rr % cfg.numLanes = 0 →
      intOfSize (s.lanes 0).queue.length < cfg.maxQdPerLane →
      (s'.lanes 0).queue.length = (s.lanes 0).queue.length + 1) := by
  obtain ⟨e, targs, hop⟩ : ∃ e targs, operationOf "square" [.int 0] = some (e, targs) :=
    ⟨_, _, rfl⟩
  have h1 : s.step cfg (.submitOperation "square" [.int 0]) =
      some { s with rr := s.next, driver := some (s.rr % cfg.numLanes, e, targs) } := by
    rw [OpEngine.step, h.driver, hop]
  obtain ⟨y, hy, hstop, hle, hadd⟩ := trySubmit_some (h.running (s.rr % cfg.numLanes))
    (s.taskOf (s.rr % cfg.numLanes) e targs) cfg.maxQdPerLane (e.checkpointCount targs) e.policy
  have h2 : OpEngine.step cfg { s with
      rr := s.next, driver := some (s.rr % cfg.numLanes, e, targs) } .trySubmit =
      some { s.setLane (s.rr % cfg.numLanes) y with rr := s.next, driver := none } := by
    rw [OpEngine.step]
    exact congrArg (Option.map _) hy
  refine ⟨_, ⟨h.reach.trans ((Reach.one _ h1).trans (Reach.one _ h2)), rfl, h.published,
    running_update h.running hstop, h.free, ?_, Nat.mod_lt _ (by norm_num)⟩, rfl, ?_⟩
  · show q ≤ (Function.update s.lanes (s.rr % cfg.numLanes) y 0).queue.length
    by_cases hl : 0 = s.rr % cfg.numLanes
    · rw [← hl] at hle ⊢
      rw [Function.update_self]
      exact h.filled.trans hle
    · rw [Function.update_of_ne hl]
      exact h.filled
  · intro hl hroom
    show (Function.update s.lanes (s.rr % cfg.numLanes) y 0).queue.length = _
    rw [hl] at hadd ⊢
    rw [Function.update_self]
    exact hadd hroom

/-- offers move the cursor around, back to lane 0 -/
theorem Filled.home (h : Filled cfg q c s) : ∃ s', Filled cfg q c s' ∧ s'.rr = 0 := by
  have hround : ∀ k s, Filled cfg q c s → s.rr + k = 2 ^ 64 → ∃ s', Filled cfg q c s' ∧ s'.rr = 0 := by
    intro k
    induction k with
    | zero =>
      intro s hs hk
      have := hs.cursor
      omega
    | succ k ih =>
      intro s hs hk
      obtain ⟨s', hs', hrr, _⟩ := hs.offer
      by_cases hk0 : k = 0
      · refine ⟨s', hs', ?_⟩
        rw [hrr, show s.rr + 1 = 2 ^ 64 by omega, Nat.mod_self]
      · rw [Nat.mod_eq_of_lt (by omega)] at hrr
        exact ih s' hs' (by omega)
  have hlt := h.cursor
  exact hround (2 ^ 64 - s.rr) s h (by omega)

/-- lane 0 can be filled up to the cap -/
theorem fill (cfg : OpConfig) (q : Nat) (hq : q ≤ cfg.maxQdPerLane) :
    ∃ s, Filled cfg q 0 s ∧ s.rr = 0 := by
  induction q with
  | zero =>
    exact ⟨start cfg, ⟨.refl _, rfl, rfl, fun _ => rfl, fun _ _ => rfl, Nat.zero_le _,
      by show 0 < _; norm_num⟩, rfl⟩
  | succ q ih =>
    obtain ⟨s, hs, hrr⟩ := ih (by omega)
    by_cases hmore : q + 1 ≤ (s.lanes 0).queue.length
    · exact ⟨s, { hs with filled := hmore }, hrr⟩
    · have hlen : (s.lanes 0).queue.length = q := by
        have := hs.filled
        omega
      have hmax : intMax.toInt = 2147483647 := rfl
      have hcap := cfg.cap_int
      have hroom : intOfSize (s.lanes 0).queue.length < cfg.maxQdPerLane := by
        rw [hlen, intOfSize_eq (by omega)]
        omega
      obtain ⟨s', hs', _, hadd⟩ := hs.offer
      have hlen' := hadd (by rw [hrr, Nat.zero_mod]) hroom
      exact Filled.home { hs' with filled := by omega }

theorem step_route (cfg : OpConfig) {opId : String} {oa : OpArgs} {e : OpEntry Unit}
    (hc : s.caller c = some (.acquired opId oa)) (he : entryOf opId oa.length = .ok e) :
    s.step cfg (.route c) =
      some { s.setCaller c (some (.routed (s.rr % cfg.numLanes) e oa)) with rr := s.next } := by
  rw [OpEngine.step, hc]
  dsimp only
  rw [he]

theorem step_submit (cfg : OpConfig) {l : Nat} {e : OpEntry Unit} {oa : OpArgs}
    (hc : s.caller c = some (.routed l e oa)) (hs : (s.lanes l).stop = false) :
    s.step cfg (.submit c) =
      some { (s.setLane l ((s.lanes l).push (s.taskOf l e oa) (e.checkpointCount oa)
          e.policy)).setCaller c (some (.awaiting l (s.lanes l).admitted.length)) with
        bridged := Function.update s.bridged l
          (s.bridged l ++ [(s.lanes l).admitted.length]) } := by
  have hx : (s.lanes l).step (.submit (s.taskOf l e oa) (e.checkpointCount oa) e.policy) =
      some ((s.lanes l).push (s.taskOf l e oa) (e.checkpointCount oa) e.policy) := by
    rw [Lane.step, hs]
    rfl
  rw [OpEngine.step, hc]
  dsimp only
  rw [hx]
  rfl

/-- a bridge call adds an item to the lane at the cursor, whatever is queued there -/
theorem Filled.bridge (h : Filled cfg q c s) (hrr : s.rr = 0) (hc : c < cfg.bridgeCallers) :
    ∃ s', Filled cfg (q + 1) (c + 1) s' := by
  obtain ⟨oa, e, hreq, he⟩ : ∃ oa e, bridgeRequest bridgeOpSquare [argOf 0] = .ok ("square", oa) ∧
      entryOf "square" oa.length = .ok e := ⟨_, _, rfl, rfl⟩
  obtain ⟨slot, hacq, hpub⟩ : ∃ slot, s.slot.acquire = (.ok 0, slot) ∧ slot.bridge = some 0 := by
    unfold Slot.acquire
    rw [h.published]
    exact ⟨_, rfl, rfl⟩
  -- the three steps of the call up to its enqueue
  have h1 : s.step cfg (.call c bridgeOpSquare [argOf 0]) =
      some { s.setCaller c (some (.acquired "square" oa)) with slot := slot } := by
    rw [OpEngine.step, if_pos hc, h.free c (Nat.le_refl c), hreq]
    dsimp only
    rw [hacq]
  generalize hs₁ : ({ s.setCaller c (some (.acquired "square" oa)) with slot := slot } : OpEngine) =
    s₁ at h1
  have hc₁ : s₁.caller c = some (.acquired "square" oa) := by
    rw [← hs₁]
    exact Function.update_self c _ _
  have h2 := step_route cfg hc₁ he
  generalize hs₂ : ({ s₁.setCaller c (some (.routed (s₁.rr % cfg.numLanes) e oa)) with
    rr := s₁.next } : OpEngine) = s₂ at h2
  have hl : s₁.rr % cfg.numLanes = 0 := by
    rw [← hs₁]
    show s.rr % cfg.numLanes = 0
    rw [hrr, Nat.zero_mod]
  have hc₂ : s₂.caller c = some (.routed 0 e oa) := by
    rw [← hs₂, hl]
    exact Function.update_self c _ _
  have hlanes : s₂.lanes = s.lanes := by
    rw [← hs₂, ← hs₁]
    rfl
  have hstop : (s₂.lanes 0).stop = false := by
    rw [hlanes]
    exact h.running 0
  have h3 := step_submit cfg hc₂ hstop
  refine ⟨_, ⟨h.reach.trans ((Reach.one _ h1).trans ((Reach.one _ h2).trans (Reach.one _ h3))),
    ?_, ?_, ?_, ?_, ?_, ?_⟩⟩
  · show s₂.driver = none
    rw [← hs₂, ← hs₁]
    exact h.driver
  · show s₂.slot.bridge = some 0
    rw [← hs₂, ← hs₁]
    exact hpub
  · exact running_update (fun l => by rw [hlanes]; exact h.running l) hstop
  · intro k hk
    have hkc : k ≠ c := by omega
    show Function.update s₂.caller c _ k = none
    rw [Function.update_of_ne hkc, ← hs₂, ← hs₁]
    show Function.update (Function.update s.caller c _) c _ k = none
    rw [Function.update_of_ne hkc, Function.update_of_ne hkc]
    exact h.free k (by omega)
  · show q + 1 ≤ (Function.update s₂.lanes 0 ((s₂.lanes 0).push (s₂.taskOf 0 e oa)
      (e.checkpointCount oa) e.policy) 0).queue.length
    rw [Function.update_self, push_length, hlanes]
    exact Nat.succ_le_succ h.filled
  · show s₂.rr < 2 ^ 64
    rw [← hs₂]
    exact Nat.mod_lt _ (by norm_num)

/-- **Two bridge callers, or one and the largest cap, go beyond the bound.** -/
theorem exceeds (hn : ¬ (cfg.bridgeCallers = 0 ∨
      cfg.bridgeCallers = 1 ∧ cfg.maxQdPerLane < intMax.toInt)) :
    ∃ s, Reach (step cfg) (start cfg) s ∧ cfg.maxQdPerLane + 1 < (s.lanes 0).queue.length := by
  have hmax : intMax.toInt = 2147483647 := rfl
  have hcap := cfg.cap_int
  have hpos := cfg.capped
  obtain ⟨s, hs, hrr⟩ := fill cfg cfg.maxQdPerLane.toNat (by omega)
  obtain ⟨s₁, hs₁⟩ := hs.bridge hrr (by omega)
  obtain ⟨s₂, hs₂, hrr₂⟩ := hs₁.home
  by_cases htwo : 1 < cfg.bridgeCallers
  · obtain ⟨s₃, hs₃⟩ := hs₂.bridge hrr₂ (by omega)
    have hlen := hs₃.filled
    exact ⟨s₃, hs₃.reach, by omega⟩
  · by_cases hlen : cfg.maxQdPerLane + 1 < (s₂.lanes 0).queue.length
    · exact ⟨s₂, hs₂.reach, hlen⟩
    · -- the size no longer fits an int
      have hsize : (s₂.lanes 0).queue.length = 2147483648 := by
        have := hs₂.filled
        omega
      have hneg : intOfSize 2147483648 = -2147483648 := by decide
      obtain ⟨s₃, hs₃, _, hadd⟩ := hs₂.offer
      have hlen₃ := hadd (by rw [hrr₂, Nat.zero_mod]) (by rw [hsize, hneg]; omega)
      exact ⟨s₃, hs₃.reach, by omega⟩

/-- **Bounded admission.**  Below the largest cap, a run in which no bridge call starts while another
one is in flight keeps every queue at `K + 1` items; and all runs do so if and only if at most one
thread calls the bridge, which must not meet the largest cap. -/
theorem bounded_admission (cfg : OpConfig) :
    (cfg.maxQdPerLane < intMax.toInt → ∀ as s, run (step cfg) (start cfg) as = some s →
      stepsMeet (step cfg) Serial (start cfg) as →
      ∀ l, (s.lanes l).queue.length ≤ cfg.maxQdPerLane + 1) ∧
    ((∀ s, Reach (step cfg) (start cfg) s → ∀ l, (s.lanes l).queue.length ≤ cfg.maxQdPerLane + 1) ↔
      cfg.bridgeCallers = 0 ∨ cfg.bridgeCallers = 1 ∧ cfg.maxQdPerLane < intMax.toInt) := by
  refine ⟨fun hK as s hrun hser l => serial_bounded hK hrun hser l, ?_, ?_⟩
  · intro hall
    by_contra hn
    obtain ⟨s, hs, hlen⟩ := exceeds hn
    have := hall s hs 0
    omega
  · intro hn s hs l
    exact lone_bounded hn hs l

/-- one lane of cap one, the accept thread and a Python thread -/
def pairConfig : OpConfig where
  numLanes := 1
  one_lane := by decide
  maxQdPerLane := 1
  capped := by decide
  cap_int := by decide
  bridgeCallers := 2

/-- the lane is stalled, the driver fills it, both callers dispatch -/
def pairRun : List OpAct :=
  [.submitOperation "square" [.int 2], .trySubmit, .call 0 bridgeOpSquare [argOf 3],
    .call 1 bridgeOpAdd [argOf 4, argOf 5], .route 0, .route 1, .submit 0, .submit 1]

theorem pairRun_returns : ∃ s, run (step pairConfig) (start pairConfig) pairRun = some s ∧
    (s.lanes 0).queue.length = 3 := ⟨_, rfl, rfl⟩

/-- three items on a lane of cap one -/
theorem bounded_admission_pair : ¬ ∀ s, Reach (step pairConfig) (start pairConfig) s →
    ∀ l, (s.lanes l).queue.length ≤ pairConfig.maxQdPerLane + 1 := by
  intro h
  obtain ⟨s, hrun, hlen⟩ := pairRun_returns
  have := h s ⟨pairRun, hrun⟩ 0
  rw [hlen] at this
  exact absurd this (by decide)

end OpEngine

end RayX
