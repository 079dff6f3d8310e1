import RayX.Actor.Linear

/-!
# The local actors of a Runtime

`RuntimeEngine` as far as its actors go: the map of actor records, one `SerialBlocking` lane for
each actor, and the one driver thread that creates, calls, releases and shuts down.

* `Engine`, `Engine.step`   the driver's calls, the driver inside `release_actor` and `shutdown`,
                            and everything that lanes and clients do meanwhile;
* `Engine.Moves`, `Engine.step_moves`   what a step does;
* `Engine.Consistent`              every lane follows the replay of the calls it admitted;
* `actors_linearizable`     **every row and every counter is the one of the sequential fold, in
                            submission order, of the completed calls of that actor**.

A released lane stays in `lanes` as history: its futures live on.
-/

namespace RayX
open Sys

/-! ## the engine -/

/-- what the driver has still to do with lane `k` -/
inductive Chore where
  | cancelPending (k : Nat)
  | sweeping (k : Nat)
  | stopAndJoin (k : Nat)
  | joining (k : Nat)

def Chore.lane : Chore → Nat
  | .cancelPending k => k
  | .sweeping k => k
  | .stopAndJoin k => k
  | .joining k => k

/-- the driver thread -/
inductive Driver where
  | idle
  | releasing (actorId : String) (todo : List Chore)
  | shuttingDown (todo : List Chore)

structure ActorRecord where
  actorType : String
  lane : Nat

/-- a lane with the counter that its actor started from -/
structure ActorLane where
  init : Int64
  lane : Lane ActorState

structure Engine where
  maxQd : Int
  running : Bool := true
  actors : List (String × ActorRecord) := []
  lanes : List ActorLane := []
  driver : Driver := .idle
  calls : List (Nat × MethodCall) := []

/-- a C++ exception at the Python boundary -/
def native {α : Type} : Except Exc α → Except PyErr α
  | .ok a => .ok a
  | .error (.invalidArgument what) => valueError what
  | .error (.runtimeError what) => runtimeError what
  | .error .other => runtimeError "Caught an unknown exception!"

def require (ok : Bool) (raised : Except PyErr Unit) : Except PyErr Unit :=
  if ok then .ok () else raised

/-- the next lane operation of a chore, and what is left of it -/
def Chore.next (now : Int64) (l : Lane ActorState) : Chore → Option (Act ActorState × List Chore)
  | .cancelPending k => some (.collect, [.sweeping k])
  | .sweeping k =>
    match l.pending with
    | .cancelling (_ :: _) => some (.cpCancel, [.sweeping k])
    | .fulfilling _ _ => some (.cpFulfil now, [.sweeping k])
    | .cancelling [] => some (.cpReturn, [])
    | .idle => none
  | .stopAndJoin k => some (.stopBegin, [.joining k])
  | .joining _ => some (.join, [])

/-- the lane operations of the worker and of the holders of futures -/
def Act.free : Act ActorState → Bool
  | .cancel _ => true
  | .cancelFulfil _ _ => true
  | .pop => true
  | .exit => true
  | .beginService => true
  | .dispatch => true
  | .launch => true
  | .serve _ _ => true
  | .markFinished _ => true
  | .setValue _ => true
  | .release _ => true
  | .clearTok => true
  | .clearActive => true
  | _ => false

namespace Engine

inductive Act where
  | create (id actorType : String) (args : List PyObj)
  | call (actorId methodId : String) (args : List PyObj)
  | release (actorId : String)
  | shutdown
  | drive (now : Int64)
  | lane (k : Nat) (a : RayX.Act ActorState)

def create (maxQd : Int) : Engine := { maxQd := maxQd }

/-- the calls that lane `k` has admitted, in submission order -/
def log (e : Engine) (k : Nat) : List MethodCall :=
  (e.calls.filter fun c => c.1 == k).map Prod.snd

/-- `create_actor` up to the insertion of the record: the native state -/
def factory (e : Engine) (id actorType : String) (args : List PyObj) : Except PyErr ActorState := do
  require e.running (runtimeError "Runtime is shut down")
  match actorRegistry.lookup actorType with
  | none => valueError ("unknown actor type: " ++ actorType)
  | some entry =>
    require (args.length == entry.initArgTypes.length)
      (valueError ("wrong number of init arguments for actor type: " ++ actorType))
    let initArgs ← marshalArgs ("actor '" ++ actorType ++ "' init") args
    let state ← native (entry.factory initArgs)
    require (e.actors.lookup id).isNone
      (runtimeError ("actor_id collision on create_actor: " ++ id))
    .ok state

def insert (e : Engine) (id actorType : String) : ActorState → Engine
  | .counter c => { e with
    actors := e.actors ++ [(id, { actorType, lane := e.lanes.length })]
    lanes := e.lanes ++ [{ init := c.v, lane := Lane.create id .serialBlocking 1 (.counter c) }] }

/-- `call_actor_method` up to the lane: the lane, the call and the method entry -/
def target (e : Engine) (actorId methodId : String) (args : List PyObj) :
    Except PyErr (Nat × MethodCall × OpEntry ActorState) := do
  require e.running (runtimeError "Runtime is shut down")
  match e.actors.lookup actorId with
  | none => valueError ("unknown actor_id: " ++ actorId)
  | some record =>
    match actorRegistry.lookup record.actorType with
    | none => runtimeError "unordered_map::at"
    | some entry =>
      match entry.methods.lookup methodId with
      | none => valueError ("unknown method '" ++ methodId ++ "' for actor type '"
          ++ record.actorType ++ "'")
      | some method =>
        require (args.length == method.arity)
          (valueError ("wrong number of arguments for method '" ++ methodId ++ "'"))
        let targs ← marshalArgs ("method '" ++ methodId ++ "'") args
        .ok (record.lane, { method := methodId, args := targs }, method)

/-- `try_submit` under a cap, `submit` without -/
def admission (e : Engine) (l : Lane ActorState) (c : MethodCall) (method : OpEntry ActorState) :
    RayX.Act ActorState :=
  let task := makeMethodTask method.fn c.args l.actorId
  if 0 ≤ e.maxQd then .trySubmit task e.maxQd (method.checkpointCount c.args) method.policy
  else .submit task (method.checkpointCount c.args) method.policy

/-- the lane admits the call, or rejects it and nothing changes -/
def submit (e : Engine) (k : Nat) (c : MethodCall) (method : OpEntry ActorState) : Option Engine :=
  (e.lanes[k]?).bind fun al =>
    (al.lane.step (e.admission al.lane c method)).map fun l =>
      if l.admitted.length = al.lane.admitted.length then e
      else { e with lanes := e.lanes.set k { al with lane := l }, calls := e.calls ++ [(k, c)] }

def laneStep (e : Engine) (k : Nat) (a : RayX.Act ActorState) : Option Engine :=
  (e.lanes[k]?).bind fun al =>
    (al.lane.step a).map fun l => { e with lanes := e.lanes.set k { al with lane := l } }

/-- one operation of the first chore; `resume` is the driver with the chores that are left -/
def chore (e : Engine) (now : Int64) (resume : List Chore → Driver) (c : Chore)
    (todo : List Chore) : Option Engine :=
  (e.lanes[c.lane]?).bind fun al =>
    (c.next now al.lane).bind fun (a, rest) =>
      (e.laneStep c.lane a).map fun e' => { e' with driver := resume (rest ++ todo) }

/-- `cancel_pending` and `stop_and_join` of each lane; every cancel comes before the first join -/
def teardown (ks : List Nat) : List Chore := ks.map .cancelPending ++ ks.map .stopAndJoin

def step (e : Engine) : Act → Option Engine
  | .create id actorType args =>
    match e.driver with
    | .idle =>
      match e.factory id actorType args with
      | .ok state => some (e.insert id actorType state)
      | .error _ => some e
    | _ => none
  | .call actorId methodId args =>
    match e.driver with
    | .idle =>
      match e.target actorId methodId args with
      | .ok (k, c, method) => e.submit k c method
      | .error _ => some e
    | _ => none
  | .release actorId =>
    match e.driver with
    | .idle =>
      -- "Runtime is shut down" and "unknown actor_id" raise and change nothing
      if e.running then
        match e.actors.lookup actorId with
        | some record => some { e with driver := .releasing actorId (teardown [record.lane]) }
        | none => some e
      else some e
    | _ => none
  | .shutdown =>
    match e.driver with
    | .idle =>
      if e.running then
        some { e with
          running := false
          driver := .shuttingDown (teardown (e.actors.map fun p => p.2.lane)) }
      else some e
    | _ => none
  | .drive now =>
    match e.driver with
    | .idle => none
    | .releasing actorId [] =>
      some { e with actors := e.actors.filter (fun p => p.1 != actorId), driver := .idle }
    | .releasing actorId (c :: todo) => e.chore now (.releasing actorId) c todo
    | .shuttingDown [] => some { e with actors := [], driver := .idle }
    | .shuttingDown (c :: todo) => e.chore now .shuttingDown c todo
  | .lane k a => if a.free then e.laneStep k a else none

/-! ## what a step does -/

variable {e e' : Engine} {k : Nat}

theorem laneStep_spec {a : RayX.Act ActorState} (h : e.laneStep k a = some e') :
    ∃ al l, e.lanes[k]? = some al ∧ al.lane.step a = some l ∧
      e' = { e with lanes := e.lanes.set k { al with lane := l } } := by
  obtain ⟨al, hk, h⟩ := Option.bind_eq_some_iff.mp h
  obtain ⟨l, hl, rfl⟩ := Option.map_eq_some_iff.mp h
  exact ⟨al, l, hk, hl, rfl⟩

/-- the lane after it has admitted the call -/
def pushed (al : ActorLane) (c : MethodCall) (method : OpEntry ActorState) : ActorLane :=
  let task := makeMethodTask method.fn c.args al.lane.actorId
  { al with lane := al.lane.push task (method.checkpointCount c.args) method.policy }

/-- the engine after lane `k` has admitted the call -/
def accept (e : Engine) (k : Nat) (al : ActorLane) (c : MethodCall)
    (method : OpEntry ActorState) : Engine :=
  { e with lanes := e.lanes.set k (pushed al c method), calls := e.calls ++ [(k, c)] }

/-- the lane rejects the call and nothing changes, or admits it at the end of its queue -/
theorem submit_spec {c : MethodCall} {method : OpEntry ActorState}
    (h : e.submit k c method = some e') :
    e' = e ∨ ∃ al, e.lanes[k]? = some al ∧ al.lane.stop = false ∧
      e' = e.accept k al c method := by
  obtain ⟨al, hk, h⟩ := Option.bind_eq_some_iff.mp h
  obtain ⟨l, hl, hif⟩ := Option.map_eq_some_iff.mp h
  have hpush : ∀ task cc policy,
      (al.lane.push task cc policy).admitted.length ≠ al.lane.admitted.length := by
    intro task cc policy
    simp [Lane.push]
  have hs := Lane.step_sound hl
  unfold admission at hs
  split at hs
  · cases hs with
    | accept hstop hd =>
      rw [if_neg (hpush _ _ _)] at hif
      exact Or.inr ⟨al, hk, hstop, hif.symm⟩
    | reject hstop hd =>
      rw [if_pos rfl] at hif
      exact Or.inl hif.symm
  · cases hs with
    | submit hstop =>
      rw [if_neg (hpush _ _ _)] at hif
      exact Or.inr ⟨al, hk, hstop, hif.symm⟩

theorem target_ok {actorId methodId : String} {args : List PyObj} {c : MethodCall}
    {method : OpEntry ActorState} (h : e.target actorId methodId args = .ok (k, c, method)) :
    counterMethods.lookup c.method = some method ∧
      ∃ record, e.actors.lookup actorId = some record ∧ record.lane = k := by
  unfold target at h
  obtain ⟨_, _, h⟩ := bind_ok_iff.mp h
  split at h
  · cases h
  · rename_i record hrec
    split at h
    · cases h
    · rename_i entry hentry
      have hmethods : entry.methods = counterMethods := by
        unfold actorRegistry at hentry
        rw [List.lookup_cons] at hentry
        split at hentry
        · cases hentry
          rfl
        · cases hentry
      split at h
      · cases h
      · rename_i m hm
        obtain ⟨_, _, h⟩ := bind_ok_iff.mp h
        obtain ⟨targs, _, h⟩ := bind_ok_iff.mp h
        cases h
        rw [← hmethods]
        exact ⟨hm, record, hrec, rfl⟩

theorem next_internal {now : Int64} {l : Lane ActorState} {c : Chore} {a : RayX.Act ActorState}
    {rest : List Chore} (h : c.next now l = some (a, rest)) :
    a.internal = true ∧ ∀ i t, a ≠ .serve i t := by
  have hno : a = .collect ∨ a = .cpCancel ∨ a = .cpFulfil now ∨ a = .cpReturn ∨ a = .stopBegin ∨
      a = .join := by
    cases c with
    | cancelPending k =>
      cases h
      simp
    | sweeping k =>
      simp only [Chore.next] at h
      split at h <;> cases h <;> simp
    | stopAndJoin k =>
      cases h
      simp
    | joining k =>
      cases h
      simp
  rcases hno with rfl | rfl | rfl | rfl | rfl | rfl <;> exact ⟨rfl, by simp⟩

theorem chore_spec {now : Int64} {resume : List Chore → Driver} {c : Chore} {todo : List Chore}
    (h : e.chore now resume c todo = some e') : ∃ a e₁ d, a.internal = true ∧
      (∀ i t, a ≠ .serve i t) ∧ e.laneStep c.lane a = some e₁ ∧ e' = { e₁ with driver := d } := by
  obtain ⟨al, hk, h⟩ := Option.bind_eq_some_iff.mp h
  obtain ⟨⟨a, rest⟩, hnext, h⟩ := Option.bind_eq_some_iff.mp h
  obtain ⟨e₁, hl, rfl⟩ := Option.map_eq_some_iff.mp h
  obtain ⟨hint, hserve⟩ := next_internal hnext
  exact ⟨a, e₁, _, hint, hserve, hl, rfl⟩

/-! ## the invariant -/

structure Consistent (e : Engine) : Prop where
  lanes : ∀ k (al : ActorLane), e.lanes[k]? = some al → al.lane.Wf ∧ al.lane.Lin al.init (e.log k)
  calls : ∀ c ∈ e.calls, c.1 < e.lanes.length
  owns : ∀ p ∈ e.actors, ∃ al, e.lanes[p.2.lane]? = some al ∧ al.lane.actorId = p.1

theorem consistent_create (maxQd : Int) : Consistent (create maxQd) where
  lanes := by simp [create]
  calls := by simp [create]
  owns := by simp [create]

theorem log_nil (h : Consistent e) (hk : e.lanes.length ≤ k) : e.log k = [] := by
  unfold log
  rw [List.filter_eq_nil_iff.mpr ?_]
  · rfl
  · intro c hc
    have hlt := h.calls c hc
    simp only [beq_iff_eq]
    omega

/-- replacing one lane keeps the others, and the owner of each -/
theorem set_owns (h : Consistent e) {al : ActorLane} (hk : e.lanes[k]? = some al)
    (al' : ActorLane) (hid : al'.lane.actorId = al.lane.actorId) {p : String × ActorRecord}
    (hp : p ∈ e.actors) :
    ∃ al'', (e.lanes.set k al')[p.2.lane]? = some al'' ∧ al''.lane.actorId = p.1 := by
  obtain ⟨al₀, hget, howner⟩ := h.owns p hp
  by_cases hpk : k = p.2.lane
  · have hlt := (List.getElem?_eq_some_iff.mp hget).1
    rw [← hpk] at hget hlt ⊢
    rw [hk] at hget
    cases hget
    exact ⟨al', List.getElem?_set_self hlt, hid.trans howner⟩
  · exact ⟨al₀, (List.getElem?_set_ne hpk).trans hget, howner⟩

theorem Consistent.laneStep (h : Consistent e) {a : RayX.Act ActorState} (ha : a.internal = true)
    (hs : e.laneStep k a = some e') : Consistent e' := by
  obtain ⟨al, l, hk, hl, rfl⟩ := laneStep_spec hs
  have hstep := Lane.step_sound hl
  obtain ⟨hw, hlin⟩ := h.lanes k al hk
  refine { h with lanes := ?_, calls := ?_, owns := ?_ }
  · intro j al' hj
    have hj' : (e.lanes.set k { al with lane := l })[j]? = some al' := hj
    by_cases hjk : k = j
    · subst hjk
      rw [List.getElem?_set_self (List.getElem?_eq_some_iff.mp hk).1] at hj'
      cases hj'
      exact ⟨hw.step hstep, hlin.step hw hstep ha⟩
    · rw [List.getElem?_set_ne hjk] at hj'
      exact h.lanes j al' hj'
  · intro c hc
    show c.1 < (e.lanes.set k _).length
    rw [List.length_set]
    exact h.calls c hc
  · exact fun p hp => set_owns h hk { al with lane := l } (Lane.step_actorId hstep) hp

theorem log_accept (al : ActorLane) (c : MethodCall) (method : OpEntry ActorState) (j : Nat) :
    (e.accept k al c method).log j = if k = j then e.log j ++ [c] else e.log j := by
  show ((e.calls ++ [(k, c)]).filter fun c => c.1 == j).map Prod.snd = _
  rw [List.filter_append, List.map_append]
  by_cases hjk : k = j
  · have hself : [(k, c)].filter (fun c => c.1 == j) = [(k, c)] := by simp [hjk]
    rw [if_pos hjk, hself]
    rfl
  · have hother : [(k, c)].filter (fun c => c.1 == j) = [] := by simp [hjk]
    rw [if_neg hjk, hother]
    exact List.append_nil _

theorem Consistent.accept (h : Consistent e) {al : ActorLane} (hk : e.lanes[k]? = some al)
    (hstop : al.lane.stop = false) {c : MethodCall} {method : OpEntry ActorState}
    (hm : counterMethods.lookup c.method = some method) : Consistent (e.accept k al c method) := by
  obtain ⟨hw, hlin⟩ := h.lanes k al hk
  have hlt := (List.getElem?_eq_some_iff.mp hk).1
  refine { h with lanes := ?_, calls := ?_, owns := ?_ }
  · intro j al' hj
    have hj' : (e.lanes.set k _)[j]? = some al' := hj
    rw [log_accept]
    by_cases hjk : k = j
    · subst hjk
      rw [List.getElem?_set_self hlt] at hj'
      cases hj'
      rw [if_pos rfl]
      exact ⟨hw.push hstop _ _ _, hlin.push hm _ _⟩
    · rw [List.getElem?_set_ne hjk] at hj'
      rw [if_neg hjk]
      exact h.lanes j al' hj'
  · intro c' hc'
    show c'.1 < (e.lanes.set k _).length
    rw [List.length_set]
    rcases List.mem_append.mp hc' with hc' | hc'
    · exact h.calls c' hc'
    · rw [List.mem_singleton.mp hc']
      exact hlt
  · intro p hp
    exact set_owns h hk (pushed al c method) rfl hp

theorem Consistent.insert (h : Consistent e) (id actorType : String) (state : ActorState) :
    Consistent (e.insert id actorType state) := by
  obtain ⟨c⟩ := state
  refine { h with lanes := ?_, calls := ?_, owns := ?_ }
  · intro j al hj
    have hj' : (e.lanes ++ [_])[j]? = some al := hj
    rcases Nat.lt_trichotomy j e.lanes.length with hlt | heq | hgt
    · rw [List.getElem?_append_left hlt] at hj'
      exact h.lanes j al hj'
    · have hlog : e.log j = [] := log_nil h (by omega)
      rw [heq, List.getElem?_concat_length] at hj'
      cases hj'
      show _ ∧ Lane.Lin _ (e.log j) _
      rw [hlog]
      exact ⟨Lane.wf_create _ _ _ _, Lane.lin_create _ _ _⟩
    · rw [List.getElem?_eq_none (by simp; omega)] at hj'
      cases hj'
  · intro c' hc'
    show c'.1 < (e.lanes ++ [_]).length
    rw [List.length_append]
    exact Nat.lt_add_right _ (h.calls c' hc')
  · intro p hp
    show ∃ al, (e.lanes ++ [_])[p.2.lane]? = some al ∧ al.lane.actorId = p.1
    rcases List.mem_append.mp hp with hp | hp
    · obtain ⟨al, hget, howner⟩ := h.owns p hp
      exact ⟨al, (List.getElem?_append_left (List.getElem?_eq_some_iff.mp hget).1).trans hget, howner⟩
    · rw [List.mem_singleton.mp hp]
      exact ⟨_, List.getElem?_concat_length, rfl⟩

/-! ## the moves -/

/-- the calls of the thread that owns the engine -/
def Act.isCall : Act → Bool
  | .drive _ | .lane _ _ => false
  | _ => true

/-- what a step of the engine does; a call that raises changes nothing -/
inductive Moves (e : Engine) : Act → Engine → Prop
  | raises {a : Act} (ha : a.isCall = true) (hd : e.driver = .idle) : Moves e a e
  | creates {id actorType : String} {args : List PyObj} (state : ActorState) (hd : e.driver = .idle)
      (hf : e.factory id actorType args = .ok state) :
      Moves e (.create id actorType args) (e.insert id actorType state)
  | admits {actorId methodId : String} {args : List PyObj} {k : Nat} {c : MethodCall}
      {method : OpEntry ActorState} {al : ActorLane} (hd : e.driver = .idle)
      (ht : e.target actorId methodId args = .ok (k, c, method)) (hk : e.lanes[k]? = some al)
      (hstop : al.lane.stop = false) :
      Moves e (.call actorId methodId args) (e.accept k al c method)
  | releases {actorId : String} {record : ActorRecord} (hd : e.driver = .idle)
      (hr : e.running = true) (hrec : e.actors.lookup actorId = some record) :
      Moves e (.release actorId) { e with driver := .releasing actorId (teardown [record.lane]) }
  | shuts (hd : e.driver = .idle) (hr : e.running = true) : Moves e .shutdown { e with
      running := false
      driver := .shuttingDown (teardown (e.actors.map fun p => p.2.lane)) }
  | tears {now : Int64} {actorId : String} {c : Chore} {todo : List Chore} {e' : Engine}
      (hd : e.driver = .releasing actorId (c :: todo))
      (hs : e.chore now (.releasing actorId) c todo = some e') : Moves e (.drive now) e'
  | tearsAll {now : Int64} {c : Chore} {todo : List Chore} {e' : Engine}
      (hd : e.driver = .shuttingDown (c :: todo))
      (hs : e.chore now .shuttingDown c todo = some e') : Moves e (.drive now) e'
  | released {now : Int64} {actorId : String} (hd : e.driver = .releasing actorId []) :
      Moves e (.drive now) { e with
        actors := e.actors.filter (fun p => p.1 != actorId), driver := .idle }
  | emptied {now : Int64} (hd : e.driver = .shuttingDown []) :
      Moves e (.drive now) { e with actors := [], driver := .idle }
  | steps {k : Nat} {a : RayX.Act ActorState} {e' : Engine} (ha : a.free = true)
      (hs : e.laneStep k a = some e') : Moves e (.lane k a) e'

/-- **What a step of the engine does.** -/
theorem step_moves {a : Act} (hs : e.step a = some e') : Moves e a e' := by
  cases a with
  | create id actorType args =>
    simp only [Engine.step] at hs
    split at hs
    · rename_i hd
      split at hs
      · rename_i state hf
        cases hs
        exact .creates state hd hf
      · cases hs
        exact .raises rfl hd
    · cases hs
  | call actorId methodId args =>
    simp only [Engine.step] at hs
    split at hs
    · rename_i hd
      split at hs
      · rename_i j c method ht
        rcases submit_spec hs with rfl | ⟨al, hk, hstop, rfl⟩
        · exact .raises rfl hd
        · exact .admits hd ht hk hstop
      · cases hs
        exact .raises rfl hd
    · cases hs
  | release actorId =>
    simp only [Engine.step] at hs
    split at hs
    · rename_i hd
      split at hs
      · rename_i hr
        split at hs
        · rename_i record hrec
          cases hs
          exact .releases hd hr hrec
        · cases hs
          exact .raises rfl hd
      · cases hs
        exact .raises rfl hd
    · cases hs
  | shutdown =>
    simp only [Engine.step] at hs
    split at hs
    · rename_i hd
      split at hs
      · rename_i hr
        cases hs
        exact .shuts hd hr
      · cases hs
        exact .raises rfl hd
    · cases hs
  | drive now =>
    simp only [Engine.step] at hs
    split at hs
    · cases hs
    · rename_i actorId hd
      cases hs
      exact .released hd
    · rename_i actorId c todo hd
      exact .tears hd hs
    · rename_i hd
      cases hs
      exact .emptied hd
    · rename_i c todo hd
      exact .tearsAll hd hs
  | lane k a =>
    simp only [Engine.step, Option.ite_none_right_eq_some] at hs
    exact .steps hs.1 hs.2

/-- **Every step of the engine keeps the invariant.** -/
theorem Consistent.step (h : Consistent e) {a : Act} (hs : e.step a = some e') : Consistent e' := by
  have hchore : ∀ {now resume c todo}, e.chore now resume c todo = some e' → Consistent e' := by
    intro now resume c todo hs
    obtain ⟨a, e₁, d, ha, _, hl, rfl⟩ := chore_spec hs
    exact { (h.laneStep ha hl) with }
  cases step_moves hs with
  | raises => exact h
  | creates => exact h.insert _ _ _
  | admits _ ht hk hstop => exact h.accept hk hstop (target_ok ht).1
  | releases | shuts => exact { h with }
  | tears _ hs | tearsAll _ hs => exact hchore hs
  | released =>
    refine { h with owns := ?_ }
    exact fun p hp => h.owns p (List.mem_of_mem_filter hp)
  | emptied =>
    refine { h with owns := ?_ }
    exact fun p hp => absurd hp List.not_mem_nil
  | @steps k a _ ha hs =>
    refine h.laneStep ?_ hs
    cases a <;> first | rfl | cases ha

theorem consistent_reach {maxQd : Int} (h : Reach Engine.step (create maxQd) e) : Consistent e :=
  h.inv (fun _ _ _ hi hs => hi.step hs) (consistent_create maxQd)

/-! ## frame -/

/-- a step on one lane leaves the others alone, and only a body changes a counter -/
theorem laneStep_frame {j : Nat} {a : RayX.Act ActorState} (hs : e.laneStep j a = some e')
    {al : ActorLane} (hk : e.lanes[k]? = some al) : ∃ al', e'.lanes[k]? = some al' ∧
      al'.init = al.init ∧
      ((∀ i now, j = k → a ≠ .serve i now) → al'.lane.state = al.lane.state) := by
  obtain ⟨al₀, l, hj, hl, rfl⟩ := laneStep_spec hs
  by_cases hjk : j = k
  · subst hjk
    rw [hk] at hj
    cases hj
    refine ⟨{ al with lane := l }, ?_, rfl, ?_⟩
    · exact List.getElem?_set_self (List.getElem?_eq_some_iff.mp hk).1
    · intro ha
      exact Lane.step_state (Lane.step_sound hl) (fun i now => ha i now rfl)
  · exact ⟨al, (List.getElem?_set_ne hjk).trans hk, rfl, fun _ => rfl⟩

/-- **Only the bodies that lane `k` runs change its counter.** -/
theorem step_frame {a : Act} (hs : e.step a = some e') {al : ActorLane}
    (hk : e.lanes[k]? = some al) : ∃ al', e'.lanes[k]? = some al' ∧ al'.init = al.init ∧
      ((∀ i now, a ≠ .lane k (.serve i now)) → al'.lane.state = al.lane.state) := by
  have hlt := (List.getElem?_eq_some_iff.mp hk).1
  have hsame : e'.lanes = e.lanes → ∃ al', e'.lanes[k]? = some al' ∧ al'.init = al.init ∧
      ((∀ i now, a ≠ .lane k (.serve i now)) → al'.lane.state = al.lane.state) := by
    intro he
    rw [he]
    exact ⟨al, hk, rfl, fun _ => rfl⟩
  have hchore : ∀ {now resume c todo}, e.chore now resume c todo = some e' →
      ∃ al', e'.lanes[k]? = some al' ∧ al'.init = al.init ∧
        ((∀ i now, a ≠ .lane k (.serve i now)) → al'.lane.state = al.lane.state) := by
    intro now resume c todo hs
    obtain ⟨b, e₁, d, _, hb, hl, rfl⟩ := chore_spec hs
    obtain ⟨al', hget, hinit, hstate⟩ := laneStep_frame hl hk
    exact ⟨al', hget, hinit, fun _ => hstate (fun i now _ => hb i now)⟩
  cases step_moves hs with
  | raises | releases | shuts | released | emptied => exact hsame rfl
  | creates state =>
    obtain ⟨c⟩ := state
    exact ⟨al, (List.getElem?_append_left hlt).trans hk, rfl, fun _ => rfl⟩
  | @admits _ _ _ j c method _ _ _ hj _ =>
    by_cases hjk : j = k
    · subst hjk
      rw [hk] at hj
      cases hj
      exact ⟨pushed al c method, List.getElem?_set_self hlt, rfl, fun _ => rfl⟩
    · exact ⟨al, (List.getElem?_set_ne hjk).trans hk, rfl, fun _ => rfl⟩
  | tears _ hs | tearsAll _ hs => exact hchore hs
  | steps _ hs =>
    obtain ⟨al', hget, hinit, hstate⟩ := laneStep_frame hs hk
    refine ⟨al', hget, hinit, ?_⟩
    intro ha
    apply hstate
    intro i now hjk hb
    exact ha i now (by rw [hjk, hb])

/-- a call that is not admitted changes nothing -/
theorem rejected_frame {actorId methodId : String} {args : List PyObj}
    (hs : e.step (.call actorId methodId args) = some e') (hc : e'.calls = e.calls) : e' = e := by
  cases step_moves hs with
  | raises => rfl
  | admits =>
    have hlen := congrArg List.length hc
    simp [accept] at hlen

/-! ## linearization -/

/-- the counter of lane `k` over the integers after its completed calls among the first `n` -/
def sequential (e : Engine) (k : Nat) (al : ActorLane) (n : Nat) : Int :=
  replay Call.applyInt al.init.toInt (completedCalls (e.log k) al.lane.prom n)

/-- **Local actors are linearizable in submission order.**  Lane `k` admits the calls of one actor
only; as long as the sums stay inside `int64`, every completed row has the value of the sequential
fold of that actor's completed calls up to it, the counter of an idle lane is the whole fold, only
the bodies of the lane change it, and a rejected call changes nothing. -/
theorem actors_linearizable {maxQd : Int} (h : Reach Engine.step (create maxQd) e)
    {al : ActorLane} (hk : e.lanes[k]? = some al)
    (hr : ∀ n, n ≤ al.lane.admitted.length → InInt64 (e.sequential k al n)) :
    (∀ id record, e.actors.lookup id = some record → record.lane = k → id = al.lane.actorId) ∧
    (e.log k).length = al.lane.admitted.length ∧
    (∀ i r, r ∈ al.lane.prom i → r.status = .completed → r.hasValue = true ∧
      ∃ x, r.value = .int64 x ∧ x.toInt = e.sequential k al (i + 1)) ∧
    ((∀ i, al.lane.svc i = none) → ∃ x, al.lane.state = .counter ⟨x⟩ ∧
      x.toInt = e.sequential k al al.lane.admitted.length) ∧
    (∀ a e', e.step a = some e' → ∃ al', e'.lanes[k]? = some al' ∧ al'.init = al.init ∧
      ((∀ i now, a ≠ .lane k (.serve i now)) → al'.lane.state = al.lane.state)) ∧
    (∀ id m args e', e.step (.call id m args) = some e' → e'.calls = e.calls → e' = e) := by
  have hinv := consistent_reach h
  obtain ⟨hw, hlin⟩ := hinv.lanes k al hk
  refine ⟨?_, hlin.matched.length_eq.symm, ?_, ?_, fun a e' hs => step_frame hs hk,
    fun id m args e' hs hc => rejected_frame hs hc⟩
  · intro id record hl hrec
    obtain ⟨al₀, hget, howner⟩ := hinv.owns (id, record) (mem_of_lookup hl)
    rw [show (id, record).2.lane = k from hrec, hk] at hget
    cases hget
    exact howner.symm
  · intro i r hmem hcomp
    obtain ⟨c, hcall, hhas, hval⟩ := hlin.rows i r hmem hcomp
    have hdone := completedRow_iff.mpr ⟨r, hmem, hcomp⟩
    have hi := (hlin.fresh i hdone).1
    refine ⟨hhas, _, hval, ?_⟩
    rw [← counterAfter_done (n := i) hdone hcall]
    exact counterAfter_toInt (fun n hn => hr n (by omega))
  · intro hidle
    exact ⟨_, hlin.idle hidle, counterAfter_toInt hr⟩

/-! ## two actors -/

/-- the steps that serve item `i` of lane `k`, a body of `n` effects -/
def served (k i n : Nat) : List Act :=
  [.lane k .pop, .lane k .beginService, .lane k .dispatch] ++
    List.replicate (n + 1) (.lane k (.serve i 0)) ++
    [.lane k (.markFinished i), .lane k (.setValue i), .lane k .clearTok, .lane k .clearActive]

def skipped (k : Nat) : List Act :=
  [.lane k .pop, .lane k .beginService, .lane k .clearTok, .lane k .clearActive]

/-- a cap of two: the third call to the first actor is rejected, its second call is cancelled in
the queue -/
def twoActors : List Act :=
  [.create "rt-act-0" "counter" [.int 5], .create "rt-act-1" "counter" [.int 1],
    .call "rt-act-0" "add" [.int 3], .call "rt-act-0" "add" [.int 100],
    .call "rt-act-0" "get" [], .call "rt-act-1" "add" [.int 10],
    .lane 0 (.cancel 1), .lane 0 (.cancelFulfil 1 7)] ++
  served 0 0 4 ++ skipped 0 ++ [.call "rt-act-0" "get" []] ++ served 0 2 3

theorem twoActors_run : ∃ e al, run Engine.step (create 2) twoActors = some e ∧
    e.lanes[0]? = some al ∧ (∀ n, n ≤ al.lane.admitted.length → InInt64 (e.sequential 0 al n)) ∧
    e.sequential 0 al 3 = 8 ∧ ∃ r ∈ al.lane.prom 2, r.status = .completed :=
  ⟨_, _, rfl, rfl, by decide, rfl, _, List.mem_cons_self, rfl⟩

/-- the `get` after a completed `add(3)`, a cancelled and a rejected call reads `5 + 3` -/
theorem actors_linearizable_two : ∃ e al, Reach Engine.step (create 2) e ∧
    e.lanes[0]? = some al ∧ ∃ r ∈ al.lane.prom 2, ∃ x, r.value = .int64 x ∧ x.toInt = 8 := by
  obtain ⟨e, al, hrun, hk, hr, hseq, r, hmem, hcomp⟩ := twoActors_run
  obtain ⟨_, _, hrows, _⟩ := actors_linearizable ⟨twoActors, hrun⟩ hk hr
  obtain ⟨_, x, hval, hx⟩ := hrows 2 r hmem hcomp
  exact ⟨e, al, ⟨twoActors, hrun⟩, hk, r, hmem, x, hval, hx.trans hseq⟩

end Engine

end RayX
