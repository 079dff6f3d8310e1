import RayX.Ops.Validate

/-!
# The fixed actor registry

One actor type, `counter`, with the methods `add`, `get`, `reset` and the checkpointed `busy_get`.
A method body reads and writes the native state through `Prog.get` and `Prog.set`, so that two
bodies of one actor may interleave unless the lane forbids it.

* `actorRegistry`, `makeMethodTask`   the registry and the service-slot closure of a method;
* `validateActorCreate`, `validateActorCall`   the Python boundary of a creation and of a method call;
* `method_polls`                      every method body polls as its checkpoint count announces;
* `Call`, `Call.apply`                the sequential meaning of a counter method;
* `method_wp`                         **a method body that nothing disturbs ends as its sequential
                                      meaning says, and changes the state only when it completes**.
-/

namespace RayX
open Sys

/-! ## state -/

structure CounterState where
  v : Int64 := 0
  deriving DecidableEq, Repr

/-- the native states: one constructor for each registered type -/
inductive ActorState where
  | counter (c : CounterState)
  deriving DecidableEq, Repr

def ActorState.typeId : ActorState → String
  | .counter _ => "counter"

/-- the checked downcast; the caller reads the state through the reference it returns -/
def asCounter (method : String) : Prog ActorState Exc CounterState :=
  Prog.get >>= fun st =>
    if st.typeId ≠ "counter" then
      .throw (.invalidArgument ("method '" ++ method ++ "' called on non-counter actor state"))
    else
      match st with
      | .counter c => pure c

/-! ## methods -/

def counterAdd : OpFn ActorState := fun a => do
  let c ← asCounter "add"
  let delta ← asInt64 a 0 "add"
  Prog.set (.counter { c with v := c.v + delta })
  pure (.done (.int64 (c.v + delta)))

def counterGet : OpFn ActorState := fun _ => do
  let c ← asCounter "get"
  pure (.done (.int64 c.v))

def counterReset : OpFn ActorState := fun a => do
  let c ← asCounter "reset"
  let v ← asInt64 a 0 "reset"
  Prog.set (.counter { c with v := v })
  pure (.done (.int64 v))

/-- the value is read after the loop -/
def counterBusyGet : OpFn ActorState := fun a => do
  let _ ← asCounter "busy_get"
  let n ← asInt64 a 0 "busy_get"
  let acc ← runMaskedCheckpointLoop n
  match acc with
  | none => pure .cancelled
  | some _ => do
    let c ← asCounter "busy_get"
    pure (.done (.int64 c.v))

structure ActorTypeEntry where
  initArgTypes : List OpType
  factory : OpArgs → Except Exc ActorState
  methods : List (String × OpEntry ActorState)

def counterFactory (a : OpArgs) : Except Exc ActorState := do
  let v ← asInt64 a 0 "counter.init"
  .ok (.counter { v := v })

def counterMethods : List (String × OpEntry ActorState) :=
  [("add",
    { arity := 1, fn := counterAdd, checkpointCount := oneCheckpoint, argTypes := [.int64],
      policy := .inline }),
   ("get",
    { arity := 0, fn := counterGet, checkpointCount := oneCheckpoint, argTypes := [],
      policy := .inline }),
   ("reset",
    { arity := 1, fn := counterReset, checkpointCount := oneCheckpoint, argTypes := [.int64],
      policy := .inline }),
   ("busy_get",
    { arity := 1, fn := counterBusyGet, checkpointCount := countOf busySumCheckpoints 0,
      argTypes := [.int64] })]

def actorRegistry : List (String × ActorTypeEntry) :=
  [("counter",
    { initArgTypes := [.int64], factory := counterFactory, methods := counterMethods })]

def makeMethodTask (fn : OpFn ActorState) (args : OpArgs) (actor : String) :
    Prog ActorState Exc RuntimeResult :=
  serviceTask "actor method failed with a non-std::exception" actor (fn args)

/-! ## the Python boundary -/

def validateActorCreate (actorType : PyObj) (args : List PyObj) : Except PyErr (List PyObj) :=
  match actorType with
  | .str t =>
    match actorRegistry.lookup t with
    | none => valueError
        s!"unknown actor type {pyRepr t}; registered actor types: {pySorted (actorRegistry.map Prod.fst)}"
    | some entry => validateTypedArgs s!"actor {pyRepr t} init" args entry.initArgTypes
  | a => typeError s!"actor_type must be str, got {a.typeName}"

def validateActorCall (actorType methodId : PyObj) (args : List PyObj) :
    Except PyErr (List PyObj) :=
  match actorType, methodId with
  | .str t, .str m =>
    match actorRegistry.lookup t with
    | none => valueError
        s!"unknown actor type {pyRepr t}; registered actor types: {pySorted (actorRegistry.map Prod.fst)}"
    | some entry =>
      match entry.methods.lookup m with
      | none => valueError (s!"unknown method {pyRepr m} for actor type {pyRepr t}; "
          ++ s!"registered methods: {pySorted (entry.methods.map Prod.fst)}")
      | some method => do
        let label := s!"method {pyRepr m}"
        let out ← validateTypedArgs label args method.argTypes
        if m = "busy_get" then atLeast label 0 "work_n" 0 (argInt out 0)
        .ok out
  | .str _, a => typeError s!"method_id must be str, got {a.typeName}"
  | a, _ => typeError s!"actor_type must be str, got {a.typeName}"

/-! ## polls -/

section
variable {α : Type} {m : String} {f : CounterState → Prog ActorState Exc α}

/-- the downcast of a registered state never throws -/
theorem asCounter_bind : asCounter m >>= f = Prog.load (fun st => match st with
    | .counter c => f c) := rfl

theorem quiet_asCounter {D : Except Exc α → Prop} (hf : ∀ c, (f c).Quiet D) :
    (asCounter m >>= f).Quiet D := by
  rw [asCounter_bind]
  intro st
  cases st with
  | counter c => exact hf c

end

/-- a method found in the registry is one of the four -/
theorem counterMethods_cases {m : String} {e : OpEntry ActorState}
    (h : counterMethods.lookup m = some e) :
    (m = "add" ∧ e.fn = counterAdd ∧ e.checkpointCount = oneCheckpoint) ∨
    (m = "get" ∧ e.fn = counterGet ∧ e.checkpointCount = oneCheckpoint) ∨
    (m = "reset" ∧ e.fn = counterReset ∧ e.checkpointCount = oneCheckpoint) ∨
    (m = "busy_get" ∧ e.fn = counterBusyGet ∧ e.checkpointCount = countOf busySumCheckpoints 0) := by
  have hmem : (m, e) ∈ counterMethods := mem_of_lookup h
  simp only [counterMethods, List.mem_cons, List.not_mem_nil, or_false, Prod.mk.injEq] at hmem
  rcases hmem with ⟨rfl, rfl⟩ | ⟨rfl, rfl⟩ | ⟨rfl, rfl⟩ | ⟨rfl, rfl⟩
  · exact Or.inl ⟨rfl, rfl, rfl⟩
  · exact Or.inr (Or.inl ⟨rfl, rfl, rfl⟩)
  · exact Or.inr (Or.inr (Or.inl ⟨rfl, rfl, rfl⟩))
  · exact Or.inr (Or.inr (Or.inr ⟨rfl, rfl, rfl⟩))

theorem counterAdd_quiet (a : OpArgs) : (counterAdd a).Quiet notCancelled :=
  quiet_asCounter (fun _ => quiet_asInt64 (fun _ => notCancelled_done _) notCancelled_error)

theorem counterGet_quiet (a : OpArgs) : (counterGet a).Quiet notCancelled :=
  quiet_asCounter (fun _ => notCancelled_done _)

theorem counterReset_quiet (a : OpArgs) : (counterReset a).Quiet notCancelled :=
  quiet_asCounter (fun _ => quiet_asInt64 (fun _ => notCancelled_done _) notCancelled_error)

theorem counterBusyGet_polls (a : OpArgs) :
    PollsAs (countOf busySumCheckpoints 0 a) (counterBusyGet a) := by
  unfold counterBusyGet
  rw [asCounter_bind]
  intro st
  cases st with
  | counter c =>
    refine countOf_pollsAs (fun n _ => ?_)
    refine (runMaskedCheckpointLoop_polls n).bind ?_ ?_ ?_ ?_
    · intro x hx
      obtain ⟨acc, h⟩ := hx
      cases h
      exact quiet_asCounter (fun _ => notCancelled_done _)
    · intro e he
      obtain ⟨acc, h⟩ := he
      cases h
    · intro x hx
      cases hx
      rfl
    · intro e he
      cases he

/-- **Every method body polls as often as its checkpoint count announces.** -/
theorem method_polls {m : String} {e : OpEntry ActorState} (h : counterMethods.lookup m = some e)
    (a : OpArgs) : PollsAs (e.checkpointCount a) (e.fn a) := by
  rcases counterMethods_cases h with ⟨_, hf, hc⟩ | ⟨_, hf, hc⟩ | ⟨_, hf, hc⟩ | ⟨_, hf, hc⟩
  · rw [hf, hc]
    exact quiet_pollsAs (counterAdd_quiet a)
  · rw [hf, hc]
    exact quiet_pollsAs (counterGet_quiet a)
  · rw [hf, hc]
    exact quiet_pollsAs (counterReset_quiet a)
  · rw [hf, hc]
    exact counterBusyGet_polls a

/-! ## sequential meaning -/

inductive Call where
  | add (delta : Int64)
  | get
  | reset (v : Int64)
  | busyGet (workN : Int64)
  deriving DecidableEq, Repr

/-- the counter after the call; every method returns it -/
def Call.apply : Call → Int64 → Int64
  | .add delta, v => v + delta
  | .get, v => v
  | .reset w, _ => w
  | .busyGet _, v => v

/-- the call that a method name and its typed arguments stand for -/
def callOf (m : String) (a : OpArgs) : Option Call :=
  match m, a with
  | "add", .int64 d :: _ => some (.add d)
  | "get", _ => some .get
  | "reset", .int64 v :: _ => some (.reset v)
  | "busy_get", .int64 n :: _ => some (.busyGet n)
  | _, _ => none

/-- how a method body that starts at the counter value `v` may end -/
def methodPost (m : String) (a : OpArgs) (v : Int64) :
    Except Exc OpOutcome → ActorState → Prop
  | .ok o, st => (∃ c, callOf m a = some c ∧ o = .done (.int64 (c.apply v)) ∧
      st = .counter ⟨c.apply v⟩) ∨ (o = .cancelled ∧ st = .counter ⟨v⟩)
  | .error _, st => st = .counter ⟨v⟩

section
variable {a : OpArgs} {v : Int64} {op : String}

theorem wp_asInt64 {α : Type} {Q : Except Exc α → ActorState → Prop} {st : ActorState}
    {f : Int64 → Prog ActorState Exc α}
    (hf : ∀ x rest, a = .int64 x :: rest → (f x).wp Q st) (hQ : ∀ e, Q (.error e) st) :
    (liftM (asInt64 a 0 op) >>= f).wp Q st := by
  rcases a with _ | ⟨x, rest⟩
  · exact hQ _
  · cases x with
    | int64 x => exact hf x rest rfl
    | double x => exact hQ _

theorem counterAdd_wp : (counterAdd a).wp (methodPost "add" a v) (.counter ⟨v⟩) := by
  refine wp_asInt64 (fun d rest ha => ?_) (fun _ => rfl)
  rw [ha]
  exact Or.inl ⟨.add d, rfl, rfl, rfl⟩

theorem counterGet_wp : (counterGet a).wp (methodPost "get" a v) (.counter ⟨v⟩) :=
  Or.inl ⟨.get, rfl, rfl, rfl⟩

theorem counterReset_wp : (counterReset a).wp (methodPost "reset" a v) (.counter ⟨v⟩) := by
  refine wp_asInt64 (fun w rest ha => ?_) (fun _ => rfl)
  rw [ha]
  exact Or.inl ⟨.reset w, rfl, rfl, rfl⟩

theorem counterBusyGet_wp : (counterBusyGet a).wp (methodPost "busy_get" a v) (.counter ⟨v⟩) := by
  refine wp_asInt64 (fun n rest ha => ?_) (fun _ => rfl)
  refine Prog.wp_bind _ _ _ (runMaskedCheckpointLoop_wp n (fun x => ?_))
  cases x with
  | none => exact Or.inr ⟨rfl, rfl⟩
  | some acc =>
    rw [ha]
    exact Or.inl ⟨.busyGet n, rfl, rfl, rfl⟩

end

/-- **A method body that nothing disturbs ends as its sequential meaning says.** -/
theorem method_wp {m : String} {e : OpEntry ActorState} (h : counterMethods.lookup m = some e)
    (a : OpArgs) (v : Int64) : (e.fn a).wp (methodPost m a v) (.counter ⟨v⟩) := by
  rcases counterMethods_cases h with ⟨hm, hf, _⟩ | ⟨hm, hf, _⟩ | ⟨hm, hf, _⟩ | ⟨hm, hf, _⟩
  · rw [hm, hf]
    exact counterAdd_wp
  · rw [hm, hf]
    exact counterGet_wp
  · rw [hm, hf]
    exact counterReset_wp
  · rw [hm, hf]
    exact counterBusyGet_wp

/-- how the task of a method call that starts at the counter value `v` may end -/
def taskPost (m : String) (a : OpArgs) (v : Int64) :
    Except Exc RuntimeResult → ActorState → Prop
  | .ok r, st => (r.status = .completed ∧ ∃ c, callOf m a = some c ∧ r.hasValue = true ∧
      r.value = .int64 (c.apply v) ∧ st = .counter ⟨c.apply v⟩) ∨
      (r.status ≠ .completed ∧ st = .counter ⟨v⟩)
  | .error _, _ => False

theorem failure_status (unknown : String) (e : Exc) : (failure unknown e).status = .failed := by
  cases e <;> rfl

theorem makeMethodTask_wp {m : String} {e : OpEntry ActorState}
    (h : counterMethods.lookup m = some e) (a : OpArgs) (actor : String) (v : Int64) :
    (makeMethodTask e.fn a actor).wp (taskPost m a v) (.counter ⟨v⟩) := by
  refine serviceTask_wp (Prog.wp_mono ?_ _ _ (method_wp h a v))
  intro r st hr t₁ t₂
  cases r with
  | ok o =>
    rcases hr with ⟨c, hc, ho, hst⟩ | ⟨ho, hst⟩
    · rw [ho]
      exact Or.inl ⟨rfl, c, hc, rfl, rfl, hst⟩
    · rw [ho]
      refine Or.inr ⟨?_, hst⟩
      intro hs
      cases hs
  | error ex =>
    refine Or.inr ⟨?_, hr⟩
    show (failure _ ex).status ≠ .completed
    rw [failure_status]
    intro hs
    cases hs

end RayX
