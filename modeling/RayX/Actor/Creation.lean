import RayX.Lib.Unwind
import RayX.Actor.Engine

/-!
# The creation of an actor, step by step

`RuntimeEngine::create_actor` with every step that may throw, and who owns the lane and the native
state when it does.

* `World`             the map of actor records, and every lane and native state ever made;
* `Faults`            which allocations, and which calls of HPX, fail;
* `createActor`       the checks, the factory, and the hop with its `try`;
* `create_refines`    without a fault it is the creation of the engine of actors;
* `Undone`, `Created`     what is left after an exception, and what a return has added;
* `create_atomic_iff`     **a creation is atomic exactly when the copy of the `id` it returns does
                          not throw**.
-/

namespace RayX
namespace Creation
open Sys

/-! ## the engine -/

/-- the thread of a lane, and how its object ended: `freed` after the join, `terminated` when a
joinable thread was destroyed -/
inductive Worker where
  | running
  | joined
  | freed
  | terminated
  deriving DecidableEq

structure RuntimeLane where
  actorId : String
  worker : Worker
  deriving DecidableEq

def RuntimeLane.stopAndJoin (l : RuntimeLane) : RuntimeLane := { l with worker := .joined }

/-- the destructor does not join -/
def RuntimeLane.destroy (l : RuntimeLane) : RuntimeLane :=
  match l.worker with
  | .joined => { l with worker := .freed }
  | _ => { l with worker := .terminated }

/-- the pointers are numbers of lanes and of states -/
structure ActorRecord where
  lane : Option Nat := none
  state : Option Nat := none
  actorType : String := ""
  deriving DecidableEq

structure World where
  running : Bool := true
  actors : List (String × ActorRecord) := []
  lanes : List RuntimeLane := []
  /-- `none` once it is freed -/
  states : List (Option ActorState) := []
  deriving DecidableEq

/-- the engine with the locals of the call: two owning pointers -/
structure Frame where
  world : World
  lane : Option Nat := none
  state : Option Nat := none

/-- `rec` is a reference into the map -/
def World.record (id : String) (f : ActorRecord → ActorRecord) (w : World) : World :=
  { w with actors := w.actors.map fun p => if p.1 = id then (p.1, f p.2) else p }

def World.stopAndJoin (k : Nat) (w : World) : World :=
  { w with lanes := w.lanes.modify k RuntimeLane.stopAndJoin }

def World.destroyLane : Option Nat → World → World
  | none, w => w
  | some k, w => { w with lanes := w.lanes.modify k RuntimeLane.destroy }

def World.freeState : Option Nat → World → World
  | none, w => w
  | some k, w => { w with states := w.states.set k none }

/-- the locals go out of scope -/
def Frame.leave (f : Frame) : World := (f.world.destroyLane f.lane).freeState f.state

/-! ## the call -/

inductive Thrown where
  | python (e : PyErr)
  | badAlloc
  | hpx (what : String)
  deriving DecidableEq

/-- what fails: `none` does not -/
structure Faults where
  /-- the label of the arguments, and `targs.reserve` -/
  reserve : Option Thrown := none
  /-- the allocation of the native state -/
  state : Option Thrown := none
  /-- `run_as_hpx_thread` before it runs the body -/
  hop : Option Thrown := none
  /-- `make_unique<RuntimeLane>`: memory, the id, the thread -/
  lane : Option Thrown := none
  /-- `const std::string id = lane->actor_id()` -/
  id : Option Thrown := none
  /-- `std::string atype = actor_type` -/
  atype : Option Thrown := none
  /-- `actors_[id]` -/
  node : Option Thrown := none
  /-- the copy that `return id` makes of a `const` local -/
  result : Option Thrown := none

def mayFail {α : Type} (fault : Option Thrown) (x : Except Thrown α) : Except Thrown α :=
  match fault with
  | none => x
  | some e => .error e

def python {α : Type} : Except PyErr α → Except Thrown α
  | .ok a => .ok a
  | .error e => .error (.python e)

/-- the checks, the marshalling and the factory, before there is a lane -/
def prepare (fail : Faults) (running : Bool) (actorType : String) (args : List PyObj) :
    Except Thrown ActorState := do
  python (require running (runtimeError "Runtime is shut down"))
  match actorRegistry.lookup actorType with
  | none => python (valueError ("unknown actor type: " ++ actorType))
  | some entry =>
    python (require (args.length == entry.initArgTypes.length)
      (valueError ("wrong number of init arguments for actor type: " ++ actorType)))
    let initArgs ← mayFail fail.reserve
      (python (marshalArgs ("actor '" ++ actorType ++ "' init") args))
    mayFail fail.state (python (native (entry.factory initArgs)))

/-- `id` is the random identifier that the lane gets -/
def construct (fail : Faults) (id : String) : Throws Frame Thrown Unit := do
  Throws.mayRaise fail.lane
  Throws.modify fun f => { f with
    world := { f.world with lanes := f.world.lanes ++ [{ actorId := id, worker := .running }] }
    lane := some f.world.lanes.length }

/-- the body of the `try` -/
def register (fail : Faults) (id actorType : String) : Throws Frame Thrown String := do
  Throws.mayRaise fail.id
  Throws.mayRaise fail.atype
  let known ← Throws.read fun f => (f.world.actors.lookup id).isSome
  Throws.mayRaise
    (if known then
      some (.python ⟨.runtimeError, "actor_id collision on create_actor: " ++ id⟩)
    else none)
  Throws.mayRaise fail.node
  Throws.modify fun f => { f with world := { f.world with actors := f.world.actors ++ [(id, {})] } }
  Throws.modify fun f => { f with
    world := f.world.record id fun rec => { rec with state := f.state }
    state := none }
  Throws.modify fun f => { f with
    world := f.world.record id fun rec => { rec with actorType := actorType } }
  Throws.modify fun f => { f with
    world := f.world.record id fun rec => { rec with lane := f.lane }
    lane := none }
  Throws.mayRaise fail.result
  pure id

/-- `if (lane) lane->stop_and_join()` -/
def Frame.join (f : Frame) : Frame :=
  match f.lane with
  | some k => { f with world := f.world.stopAndJoin k }
  | none => f

def hop (fail : Faults) (id actorType : String) : Throws Frame Thrown String := do
  Throws.mayRaise fail.hop
  construct fail id
  Throws.protect Frame.join (register fail id actorType)

def createActor (fail : Faults) (id actorType : String) (args : List PyObj) :
    Throws World Thrown String := fun w =>
  match prepare fail w.running actorType args with
  | .error e => (.error e, w)
  | .ok st =>
    Throws.scope (fun w => ⟨{ w with states := w.states ++ [some st] }, none, some w.states.length⟩)
      Frame.leave (hop fail id actorType) w

/-! ## what is left -/

/-- an exception: the map is the one before, nothing older was touched, and what the call made is
gone, a lane after its thread was joined -/
structure Undone (w w' : World) : Prop where
  running : w'.running = w.running
  actors : w'.actors = w.actors
  lanes : ∃ own, w'.lanes = w.lanes ++ own ∧ ∀ l ∈ own, l.worker = .freed
  states : ∃ own, w'.states = w.states ++ own ∧ ∀ s ∈ own, s = none

/-- the factory on the marshalled arguments -/
def InitialState (actorType : String) (args : List PyObj) (st : ActorState) : Prop :=
  ∃ entry a, actorRegistry.lookup actorType = some entry ∧
    marshalArgs ("actor '" ++ actorType ++ "' init") args = .ok a ∧ entry.factory a = .ok st

/-- the world with one actor more: it owns the next lane, which runs, and the next state -/
def World.add (w : World) (id actorType : String) (st : ActorState) : World :=
  { w with
    actors := w.actors ++
      [(id, { lane := some w.lanes.length, state := some w.states.length, actorType })]
    lanes := w.lanes ++ [{ actorId := id, worker := .running }]
    states := w.states ++ [some st] }

/-- a return -/
structure Created (id actorType : String) (args : List PyObj) (w w' : World) : Prop where
  fresh : w.actors.lookup id = none
  added : ∃ st, InitialState actorType args st ∧ w' = w.add id actorType st

def Atomic (id actorType : String) (args : List PyObj) (w : World)
    (out : Except Thrown String × World) : Prop :=
  match out with
  | (.ok id', w') => id' = id ∧ Created id actorType args w w'
  | (.error _, w') => Undone w w'

/-! ## the steps -/

section
variable {fail : Faults} {id actorType : String} {args : List PyObj} {w : World} {f : Frame}

theorem prepare_ok {st : ActorState} {r : Bool} (h : prepare fail r actorType args = .ok st) :
    InitialState actorType args st := by
  unfold prepare at h
  obtain ⟨_, _, h⟩ := bind_ok_iff.mp h
  cases hentry : actorRegistry.lookup actorType with
  | none =>
    rw [hentry] at h
    cases h
  | some entry =>
    rw [hentry] at h
    obtain ⟨_, _, h⟩ := bind_ok_iff.mp h
    obtain ⟨a, ha, h⟩ := bind_ok_iff.mp h
    refine ⟨entry, a, hentry, ?_, ?_⟩
    · cases hr : fail.reserve with
      | none =>
        rw [hr, mayFail] at ha
        cases hm : marshalArgs ("actor '" ++ actorType ++ "' init") args with
        | ok b =>
          rw [hm] at ha
          cases ha
          rfl
        | error e =>
          rw [hm] at ha
          cases ha
      | some e =>
        rw [hr] at ha
        cases ha
    · cases hs : fail.state with
      | none =>
        rw [hs, mayFail] at h
        cases hf : entry.factory a with
        | ok b =>
          rw [hf] at h
          cases h
          rfl
        | error e =>
          rw [hf] at h
          cases e with
          | invalidArgument what => cases h
          | runtimeError what => cases h
          | other => cases h
      | some e =>
        rw [hs] at h
        cases h

/-- a write through the reference to the record that was inserted last -/
theorem record_last (h : w.actors.lookup id = none) (r : ActorRecord)
    (g : ActorRecord → ActorRecord) :
    World.record id g { w with actors := w.actors ++ [(id, r)] }
      = { w with actors := w.actors ++ [(id, g r)] } := by
  have hmap : (w.actors ++ [(id, r)]).map (fun p => if p.1 = id then (p.1, g p.2) else p)
      = w.actors ++ [(id, g r)] := by
    rw [List.map_append, List.map_singleton, if_pos rfl]
    congr 1
    refine (List.map_congr_left fun p hp => ?_).trans (List.map_id _)
    have hne := List.lookup_eq_none_iff.mp h p hp
    rw [if_neg fun heq => by simp [heq] at hne]
    rfl
  rw [World.record, hmap]

/-- nothing in the body of the `try` fails before the map owns the lane -/
structure Registers (fail : Faults) (id : String) (actors : List (String × ActorRecord)) : Prop
    where
  copied : fail.id = none
  atype : fail.atype = none
  fresh : actors.lookup id = none
  node : fail.node = none

/-- the frame with the record in place -/
def Frame.filled (f : Frame) (id actorType : String) : Frame :=
  ⟨{ f.world with
    actors := f.world.actors ++ [(id, { lane := f.lane, state := f.state, actorType })] },
    none, none⟩

/-- the insertion and the three moves -/
theorem filled_eq (h : f.world.actors.lookup id = none) :
    (⟨((({ f.world with actors := f.world.actors ++ [(id, {})] } : World).record id
      fun rec => { rec with state := f.state }).record id
      fun rec => { rec with actorType := actorType }).record id
      fun rec => { rec with lane := f.lane }, none, none⟩ : Frame) = f.filled id actorType := by
  rw [record_last h, record_last h, record_last h]
  rfl

theorem register_wp : (register fail id actorType).wp
    (fun id' f' => id' = id ∧ f' = f.filled id actorType ∧ Registers fail id f.world.actors ∧
      fail.result = none)
    (fun _ f' => (f' = f ∧ ¬ Registers fail id f.world.actors) ∨
      (f' = f.filled id actorType ∧ Registers fail id f.world.actors ∧ fail.result ≠ none)) f := by
  refine Throws.wp_bind (Throws.wp_mayRaise (fun hid => ?_) fun e he => ?_)
  swap
  · exact Or.inl ⟨rfl, fun h => by rw [h.copied] at he; cases he⟩
  refine Throws.wp_bind (Throws.wp_mayRaise (fun hatype => ?_) fun e he => ?_)
  swap
  · exact Or.inl ⟨rfl, fun h => by rw [h.atype] at he; cases he⟩
  refine Throws.wp_bind (Throws.wp_read ?_)
  refine Throws.wp_bind (Throws.wp_mayRaise (fun hfresh => ?_) fun e he => ?_)
  swap
  · refine Or.inl ⟨rfl, fun h => ?_⟩
    rw [h.fresh] at he
    cases he
  have hlookup : f.world.actors.lookup id = none := by
    cases hl : f.world.actors.lookup id with
    | none => rfl
    | some r =>
      rw [hl] at hfresh
      cases hfresh
  refine Throws.wp_bind (Throws.wp_mayRaise (fun hnode => ?_) fun e he => ?_)
  swap
  · exact Or.inl ⟨rfl, fun h => by rw [h.node] at he; cases he⟩
  have hreg : Registers fail id f.world.actors := ⟨hid, hatype, hlookup, hnode⟩
  refine Throws.wp_bind (Throws.wp_modify ?_)
  refine Throws.wp_bind (Throws.wp_modify ?_)
  refine Throws.wp_bind (Throws.wp_modify ?_)
  refine Throws.wp_bind (Throws.wp_modify ?_)
  refine Throws.wp_bind (Throws.wp_mayRaise (fun hres => Throws.wp_pure ?_) fun e he => ?_)
  · exact ⟨rfl, filled_eq hlookup, hreg, hres⟩
  · exact Or.inr ⟨filled_eq hlookup, hreg, by rw [he]; exact Option.some_ne_none e⟩

theorem modify_last {α : Type} (l : List α) (x : α) (g : α → α) :
    (l ++ [x]).modify l.length g = l ++ [g x] := by
  induction l with
  | nil => rfl
  | cons a l ih => exact congrArg (a :: ·) ih

theorem set_last {α : Type} (l : List α) (x y : α) : (l ++ [x]).set l.length y = l ++ [y] := by
  rw [List.set_append_right _ _ (Nat.le_refl _), Nat.sub_self]
  rfl

/-- the frame in which the hop starts -/
def World.enter (st : ActorState) (w : World) : Frame :=
  ⟨{ w with states := w.states ++ [some st] }, none, some w.states.length⟩

/-- no lane was made: the state is freed -/
theorem undone_enter (st : ActorState) (w : World) : Undone w (w.enter st).leave where
  running := rfl
  actors := rfl
  lanes := ⟨[], (List.append_nil _).symm, fun _ hl => absurd hl List.not_mem_nil⟩
  states := ⟨[none], set_last _ _ _, fun _ hs => List.mem_singleton.mp hs⟩

/-- the frame once the lane runs -/
def World.started (st : ActorState) (id : String) (w : World) : Frame :=
  ⟨{ w with
    states := w.states ++ [some st]
    lanes := w.lanes ++ [{ actorId := id, worker := .running }] },
    some w.lanes.length, some w.states.length⟩

/-- the handler joins the lane, which its owner then destroys -/
theorem undone_started (st : ActorState) (id : String) (w : World) :
    Undone w (w.started st id).join.leave where
  running := rfl
  actors := rfl
  lanes := by
    refine ⟨[{ actorId := id, worker := .freed }], ?_, fun l hl => ?_⟩
    · show ((w.lanes ++ [(⟨id, .running⟩ : RuntimeLane)]).modify w.lanes.length
        RuntimeLane.stopAndJoin).modify w.lanes.length RuntimeLane.destroy = _
      rw [modify_last, modify_last]
      rfl
    · rw [List.mem_singleton.mp hl]
  states := ⟨[none], set_last _ _ _, fun _ hs => List.mem_singleton.mp hs⟩

theorem leave_filled (st : ActorState) (w : World) :
    ((w.started st id).filled id actorType).leave = w.add id actorType st := rfl

/-- the call comes to the `return` -/
structure Reaches (fail : Faults) (id actorType : String) (args : List PyObj) (w : World) : Prop
    where
  prepared : ∃ st, prepare fail w.running actorType args = .ok st
  hop : fail.hop = none
  lane : fail.lane = none
  registers : Registers fail id w.actors

theorem hop_wp (st : ActorState) : (hop fail id actorType).wp
    (fun id' f' => id' = id ∧ f'.leave = w.add id actorType st ∧ Registers fail id w.actors ∧
      fail.result = none)
    (fun _ f' => (Undone w f'.leave ∧
        ¬ (fail.hop = none ∧ fail.lane = none ∧ Registers fail id w.actors)) ∨
      (f'.leave = w.add id actorType st ∧ fail.hop = none ∧ fail.lane = none ∧
        Registers fail id w.actors ∧ fail.result ≠ none)) (w.enter st) := by
  refine Throws.wp_bind (Throws.wp_mayRaise (fun hhop => ?_) fun e he => ?_)
  swap
  · refine Or.inl ⟨undone_enter st w, fun h => ?_⟩
    rw [h.1] at he
    cases he
  refine Throws.wp_bind (Throws.wp_bind (Throws.wp_mayRaise (fun hlane => ?_) fun e he => ?_))
  swap
  · refine Or.inl ⟨undone_enter st w, fun h => ?_⟩
    rw [h.2.1] at he
    cases he
  refine Throws.wp_modify (Throws.wp_protect ?_)
  refine Throws.wp_mono ?_ ?_ (register_wp (f := w.started st id))
  · rintro id' f' ⟨hid, rfl, hreg, hres⟩
    exact ⟨hid, leave_filled st w, hreg, hres⟩
  · rintro e f' (⟨rfl, hno⟩ | ⟨rfl, hreg, hres⟩)
    · exact Or.inl ⟨undone_started st id w, fun h => hno h.2.2⟩
    · exact Or.inr ⟨leave_filled st w, hhop, hlane, hreg, hres⟩

/-- the call once its checks have passed -/
theorem create_wp (id : String) {st : ActorState}
    (hprep : prepare fail w.running actorType args = .ok st) :
    (createActor fail id actorType args).wp
      (fun id' w' => id' = id ∧ w' = w.add id actorType st ∧ Registers fail id w.actors ∧
        fail.result = none)
      (fun _ w' => (Undone w w' ∧
          ¬ (fail.hop = none ∧ fail.lane = none ∧ Registers fail id w.actors)) ∨
        (w' = w.add id actorType st ∧ fail.hop = none ∧ fail.lane = none ∧
          Registers fail id w.actors ∧ fail.result ≠ none)) w := by
  have hcreate : createActor fail id actorType args w
      = Throws.scope (World.enter st) Frame.leave (hop fail id actorType) w := by
    unfold createActor
    rw [hprep]
    rfl
  unfold Throws.wp
  rw [hcreate]
  exact Throws.wp_scope (hop_wp st)

theorem undone_refl (w : World) : Undone w w where
  running := rfl
  actors := rfl
  lanes := ⟨[], (List.append_nil _).symm, fun _ hl => absurd hl List.not_mem_nil⟩
  states := ⟨[], (List.append_nil _).symm, fun _ hs => absurd hs List.not_mem_nil⟩

theorem not_undone_add (st : ActorState) : ¬ Undone w (w.add id actorType st) := by
  intro h
  have hlen := congrArg List.length h.actors
  rw [World.add, List.length_append, List.length_singleton] at hlen
  omega

end

/-- **A creation is atomic**, in every state of the map and with every choice of what fails, exactly
when it does not come to the `return` with a copy of the `id` that throws. -/
theorem create_atomic_iff (fail : Faults) (id actorType : String) (args : List PyObj) (w : World) :
    Atomic id actorType args w (createActor fail id actorType args w) ↔
      ¬ (Reaches fail id actorType args w ∧ fail.result ≠ none) := by
  cases hprep : prepare fail w.running actorType args with
  | error e =>
    have hcreate : createActor fail id actorType args w = (.error e, w) := by
      unfold createActor
      rw [hprep]
    rw [hcreate]
    refine iff_of_true (undone_refl w) fun h => ?_
    obtain ⟨st, hst⟩ := h.1.prepared
    rw [hprep] at hst
    cases hst
  | ok st =>
    have hwp := create_wp id hprep
    unfold Throws.wp at hwp
    rcases hout : createActor fail id actorType args w with ⟨r, w'⟩
    rw [hout] at hwp
    cases r with
    | ok id' =>
      obtain ⟨hid, hw, hreg, hres⟩ := hwp
      exact iff_of_true ⟨hid, hreg.fresh, st, prepare_ok hprep, hw⟩ fun h => h.2 hres
    | error e =>
      rcases hwp with ⟨hundone, hno⟩ | ⟨hw, hhop, hlane, hreg, hres⟩
      · exact iff_of_true hundone fun h => hno ⟨h.1.hop, h.1.lane, h.1.registers⟩
      · refine iff_of_false (fun h => ?_) fun h => h ⟨⟨⟨st, hprep⟩, hhop, hlane, hreg⟩, hres⟩
        have hu : Undone w w' := h
        rw [hw] at hu
        exact not_undone_add st hu

/-- memory runs out at `return id`: the call throws, and the map has an actor more -/
theorem create_strands :
    (createActor { result := some .badAlloc } "rt-act-0123456789abcdef" "counter" [.int 5] {}).1
        = .error .badAlloc ∧
    ¬ Atomic "rt-act-0123456789abcdef" "counter" [.int 5] {}
      (createActor { result := some .badAlloc } "rt-act-0123456789abcdef" "counter" [.int 5] {}) := by
  refine ⟨rfl, fun h => ?_⟩
  have hu : Undone {} (createActor { result := some .badAlloc } "rt-act-0123456789abcdef" "counter"
    [.int 5] {}).2 := h
  exact absurd (congrArg List.length hu.actors) (by decide)

/-! ## without a fault -/

/-- the engine of actors and this world hold the same records -/
structure Mirrors (e : Engine) (w : World) : Prop where
  running : e.running = w.running
  actors : e.actors.map (fun p => (p.1, p.2.actorType)) = w.actors.map fun p => (p.1, p.2.actorType)

section
variable {e : Engine} {w : World}

theorem Mirrors.known (h : Mirrors e w) (id : String) :
    (e.actors.lookup id).isNone = (w.actors.lookup id).isNone := by
  have hmap := congrArg (List.lookup id) h.actors
  rw [lookup_map RayX.ActorRecord.actorType, lookup_map ActorRecord.actorType] at hmap
  cases he : e.actors.lookup id with
  | none =>
    rw [he] at hmap
    rw [Option.map_eq_none_iff.mp hmap.symm]
    rfl
  | some r =>
    rw [he] at hmap
    obtain ⟨r', hr', _⟩ := Option.map_eq_some_iff.mp hmap.symm
    rw [hr']
    rfl

theorem python_bind {α β : Type} (x : Except PyErr α) (f : α → Except PyErr β) :
    python (x >>= f) = python x >>= fun a => python (f a) := by
  cases x with
  | ok a => rfl
  | error e => rfl

/-- `factory` of the engine of actors: the checks, the factory and the look at the map -/
theorem factory_eq (h : Mirrors e w) (id actorType : String) (args : List PyObj) :
    python (e.factory id actorType args) = prepare {} w.running actorType args >>= fun st =>
      python (require (w.actors.lookup id).isNone
        (runtimeError ("actor_id collision on create_actor: " ++ id))) >>= fun _ => .ok st := by
  unfold Engine.factory prepare
  rw [python_bind, h.running, bind_assoc]
  congr 1
  funext _
  cases hentry : actorRegistry.lookup actorType with
  | none => rfl
  | some entry =>
    dsimp only
    rw [python_bind, bind_assoc]
    congr 1
    funext _
    rw [python_bind, bind_assoc]
    congr 1
    funext a
    rw [python_bind]
    congr 1
    funext st
    rw [python_bind, h.known id]
    rfl

theorem Mirrors.insert (h : Mirrors e w) (id actorType : String) (st : ActorState) :
    Mirrors (e.insert id actorType st) (w.add id actorType st) where
  running := by
    cases st
    exact h.running
  actors := by
    cases st
    show (e.actors ++ [_]).map _ = (w.actors ++ [_]).map _
    rw [List.map_append, List.map_append, h.actors]
    rfl

theorem Mirrors.undone {w' : World} (h : Mirrors e w) (hu : Undone w w') : Mirrors e w' where
  running := h.running.trans hu.running.symm
  actors := by rw [hu.actors, h.actors]

theorem python_ok {α : Type} {x : Except PyErr α} {a : α} (h : python x = .ok a) : x = .ok a := by
  cases x with
  | ok b =>
    cases h
    rfl
  | error e => cases h

theorem python_error {α : Type} {x : Except PyErr α} {t : Thrown} (h : python x = .error t) :
    ∃ e, x = .error e := by
  cases x with
  | ok b => cases h
  | error e => exact ⟨e, rfl⟩

theorem step_ok (hidle : e.driver = .idle) {id actorType : String} {args : List PyObj}
    {st : ActorState} (h : e.factory id actorType args = .ok st) :
    e.step (.create id actorType args) = some (e.insert id actorType st) := by
  simp only [Engine.step, hidle, h]

theorem step_error (hidle : e.driver = .idle) {id actorType : String} {args : List PyObj}
    {err : PyErr} (h : e.factory id actorType args = .error err) :
    e.step (.create id actorType args) = some e := by
  simp only [Engine.step, hidle, h]

/-- **A creation without a fault is the creation of the engine of actors.** -/
theorem create_refines (h : Mirrors e w) (hidle : e.driver = .idle) (id actorType : String)
    (args : List PyObj) :
    ∃ e', e.step (.create id actorType args) = some e' ∧
      Mirrors e' (createActor {} id actorType args w).2 ∧
      (createActor {} id actorType args w).1.toOption
        = (e.factory id actorType args).toOption.map fun _ => id := by
  have hfac := factory_eq h id actorType args
  cases hprep : prepare {} w.running actorType args with
  | error t =>
    rw [hprep] at hfac
    obtain ⟨err, herr⟩ := python_error hfac
    have hcreate : createActor {} id actorType args w = (.error t, w) := by
      unfold createActor
      rw [hprep]
    rw [step_error hidle herr, herr, hcreate]
    exact ⟨e, rfl, h, rfl⟩
  | ok st =>
    rw [hprep] at hfac
    have hwp := create_wp id hprep
    unfold Throws.wp at hwp
    rcases hout : createActor {} id actorType args w with ⟨r, w'⟩
    rw [hout] at hwp
    cases r with
    | ok id' =>
      obtain ⟨rfl, rfl, hreg, -⟩ := hwp
      rw [hreg.fresh] at hfac
      have hok := python_ok hfac
      rw [step_ok hidle hok, hok]
      exact ⟨_, rfl, h.insert _ _ _, rfl⟩
    | error t =>
      rcases hwp with ⟨hundone, hno⟩ | ⟨-, -, -, -, hres⟩
      · have hknown : (w.actors.lookup id).isNone = false := by
          cases hl : w.actors.lookup id with
          | none => exact absurd ⟨rfl, rfl, rfl, rfl, hl, rfl⟩ hno
          | some r => rfl
        rw [hknown] at hfac
        obtain ⟨err, herr⟩ := python_error hfac
        rw [step_error hidle herr, herr]
        exact ⟨e, rfl, h.undone hundone, rfl⟩
      · exact absurd rfl hres

end

end Creation
end RayX
