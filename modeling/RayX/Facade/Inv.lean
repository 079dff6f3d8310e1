import RayX.Facade.Moves

/-!
# The invariant of the Runtime

* `Lane.Born`       a lane of some run of its own: the results on single lanes apply to it;
* `Engine.lane_moves`   what a step of the engine does to a lane of an actor;
* `Runtime.Sound`   the lanes are born, every future stands for an item of a validated call, and no
                    two for the same, and what was read is what the promise holds;
* `Sound.step`      **every move keeps it**.
-/

namespace RayX
open Sys

/-! ## lanes -/

namespace Lane

/-- the lane is one that a run of the lane alone reaches -/
def Born {σ : Type} (s : Lane σ) : Prop :=
  ∃ mode maxInflight st, Reach Lane.step (create s.actorId mode maxInflight st) s

section
variable {σ : Type} {s s' : Lane σ} {a : Act σ}

theorem born_create (actorId : String) (mode : LaneMode) (maxInflight : Int) (st : σ) :
    (create actorId mode maxInflight st).Born := ⟨mode, maxInflight, st, Reach.refl _⟩

theorem Born.step (h : s.Born) (hs : s.step a = some s') : s'.Born := by
  obtain ⟨mode, maxInflight, st, hr⟩ := h
  rw [Born, step_actorId (step_sound hs)]
  exact ⟨mode, maxInflight, st, hr.trans (Reach.one a hs)⟩

theorem Born.wf (h : s.Born) : Wf s := by
  obtain ⟨mode, maxInflight, st, hr⟩ := h
  exact wf_reach hr

theorem Born.once (h : s.Born) (i : Nat) : (view i s).Once := by
  obtain ⟨mode, maxInflight, st, hr⟩ := h
  exact once_reach hr i

theorem Born.kept (h : s.Born) (i : Nat) : (view i s).Kept := by
  obtain ⟨mode, maxInflight, st, hr⟩ := h
  exact kept_reach hr i

/-- an admitted item stays where it is -/
theorem step_admitted (hs : s.step a = some s') {i : Nat} {it : Item σ}
    (hi : s.admitted[i]? = some it) : s'.admitted[i]? = some it := by
  have hpush : ∀ task cc policy, (s.push task cc policy).admitted[i]? = some it := fun _ _ _ =>
    (List.getElem?_append_left (List.getElem?_eq_some_iff.mp hi).1).trans hi
  cases step_sound hs with
  | submit _ => exact hpush _ _ _
  | accept _ _ => exact hpush _ _ _
  | _ => exact hi

/-- a promise only grows -/
theorem step_prom (hs : s.step a = some s') (i : Nat) : ∃ rs, s'.prom i = s.prom i ++ rs := by
  have hsame : ∃ rs, s.prom i = s.prom i ++ rs := ⟨[], (List.append_nil _).symm⟩
  have hset : ∀ j r, ∃ rs, (s.fulfil j r).prom i = s.prom i ++ rs := by
    intro j r
    by_cases hj : i = j
    · subst hj
      exact ⟨[r], Function.update_self _ _ _⟩
    · exact ⟨[], (Function.update_of_ne hj _ _).trans (List.append_nil _).symm⟩
  cases step_sound hs with
  | cancelFulfil _ => exact hset _ _
  | setHere _ _ => exact hset _ _
  | setThere _ _ => exact hset _ _
  | cpFulfil _ => exact hset _ _
  | _ => exact hsame

/-- a promise that is set stays as it is -/
theorem Born.settled (h : s.Born) (hs : s.step a = some s') {i : Nat} {r : RuntimeResult}
    (hp : s.prom i = [r]) : s'.prom i = [r] := by
  obtain ⟨rs, hrs⟩ := step_prom hs i
  have hle : (s'.prom i).length ≤ 1 := ((h.step hs).once i).prom_le
  rw [hrs, hp] at hle ⊢
  cases rs with
  | nil => rfl
  | cons r' rs =>
    simp at hle

end

end Lane

/-! ## the lanes of the engine -/

namespace Engine
variable {e e' : Engine} {k : Nat}

/-- the lane of an actor stays as it is or makes one step of its own -/
theorem lane_moves {a : Act} (hs : e.step a = some e') {al : ActorLane}
    (hk : e.lanes[k]? = some al) : ∃ al', e'.lanes[k]? = some al' ∧
      (al'.lane = al.lane ∨ ∃ b, al.lane.step b = some al'.lane) := by
  have hlt := (List.getElem?_eq_some_iff.mp hk).1
  have hsame : e'.lanes = e.lanes → ∃ al', e'.lanes[k]? = some al' ∧
      (al'.lane = al.lane ∨ ∃ b, al.lane.step b = some al'.lane) := by
    intro he
    rw [he]
    exact ⟨al, hk, Or.inl rfl⟩
  have hstep : ∀ {j b e₁}, e.laneStep j b = some e₁ → ∃ al', e₁.lanes[k]? = some al' ∧
      (al'.lane = al.lane ∨ ∃ b, al.lane.step b = some al'.lane) := by
    intro j b e₁ hl
    obtain ⟨al₀, l, hj, hb, rfl⟩ := laneStep_spec hl
    by_cases hjk : j = k
    · subst hjk
      rw [hk] at hj
      cases hj
      exact ⟨{ al with lane := l }, List.getElem?_set_self hlt, Or.inr ⟨b, hb⟩⟩
    · exact ⟨al, (List.getElem?_set_ne hjk).trans hk, Or.inl rfl⟩
  have hchore : ∀ {now resume c todo}, e.chore now resume c todo = some e' →
      ∃ al', e'.lanes[k]? = some al' ∧
        (al'.lane = al.lane ∨ ∃ b, al.lane.step b = some al'.lane) := by
    intro now resume c todo hs
    obtain ⟨b, e₁, d, _, _, hl, rfl⟩ := chore_spec hs
    obtain ⟨al', hal', hmove⟩ := hstep hl
    exact ⟨al', hal', hmove⟩
  cases step_moves hs with
  | raises | releases | shuts | released | emptied => exact hsame rfl
  | creates st =>
    obtain ⟨c⟩ := st
    exact ⟨al, (List.getElem?_append_left hlt).trans hk, Or.inl rfl⟩
  | @admits _ _ _ j c method _ _ _ hj hstop =>
    by_cases hjk : j = k
    · subst hjk
      rw [hk] at hj
      cases hj
      refine ⟨pushed al c method, List.getElem?_set_self hlt, Or.inr ⟨.submit
        (makeMethodTask method.fn c.args al.lane.actorId) (method.checkpointCount c.args)
        method.policy, ?_⟩⟩
      simp [Lane.step, hstop, pushed]
    · exact ⟨al, (List.getElem?_set_ne hjk).trans hk, Or.inl rfl⟩
  | tears _ hs | tearsAll _ hs => exact hchore hs
  | steps _ hs => exact hstep hs

/-- only `create_actor` makes a lane -/
theorem step_length {a : Act} (hs : e.step a = some e')
    (ha : ∀ id actorType args, a ≠ .create id actorType args) :
    e'.lanes.length = e.lanes.length := by
  have hstep : ∀ {j b e₁}, e.laneStep j b = some e₁ → e₁.lanes.length = e.lanes.length := by
    intro j b e₁ hl
    obtain ⟨al, l, _, _, rfl⟩ := laneStep_spec hl
    exact List.length_set
  have hchore : ∀ {now resume c todo}, e.chore now resume c todo = some e' →
      e'.lanes.length = e.lanes.length := by
    intro now resume c todo hs
    obtain ⟨b, e₁, d, _, _, hl, rfl⟩ := chore_spec hs
    have hlen : e₁.lanes.length = e.lanes.length := hstep hl
    exact hlen
  cases step_moves hs with
  | creates => exact absurd rfl (ha _ _ _)
  | admits => exact List.length_set
  | tears _ hs | tearsAll _ hs => exact hchore hs
  | steps _ hs => exact hstep hs
  | raises | releases | shuts | released | emptied => rfl

end Engine

namespace Facade
namespace Runtime
variable {cfg : RuntimeConfig} {rt rt' : Runtime} {m : Move} {p : Place} {l : Lane ActorState}

/-! ## the lanes of the Runtime -/

/-- a lane of the Runtime stays or makes one step of its own -/
def Evolves (rt rt' : Runtime) : Prop :=
  ∀ p l, rt.laneAt p = some l →
    ∃ l', rt'.laneAt p = some l' ∧ (l' = l ∨ ∃ a, l.step a = some l')

theorem Evolves.same (ho : rt'.ops = rt.ops) (he : rt'.engine.lanes = rt.engine.lanes) :
    Evolves rt rt' := by
  intro p l hl
  refine ⟨l, ?_, Or.inl rfl⟩
  cases p with
  | op k =>
    rw [← hl]
    exact congrArg (fun ops => ops[k]?) ho
  | actor k =>
    rw [← hl]
    exact congrArg (fun lanes => (lanes[k]?).map ActorLane.lane) he

theorem Evolves.setOp {k : Nat} {l₀ l₁ : Lane ActorState} (h : rt.ops[k]? = some l₀)
    (hs : ∃ a, l₀.step a = some l₁) (ho : rt'.ops = rt.ops.set k l₁)
    (he : rt'.engine.lanes = rt.engine.lanes) : Evolves rt rt' := by
  intro p l hl
  cases p with
  | op j =>
    show ∃ l', rt'.ops[j]? = some l' ∧ _
    rw [ho]
    by_cases hj : k = j
    · subst hj
      have hl' : rt.ops[k]? = some l := hl
      rw [h] at hl'
      cases hl'
      exact ⟨l₁, List.getElem?_set_self (List.getElem?_eq_some_iff.mp h).1, Or.inr hs⟩
    · exact ⟨l, (List.getElem?_set_ne hj).trans hl, Or.inl rfl⟩
  | actor j =>
    refine ⟨l, ?_, Or.inl rfl⟩
    rw [← hl]
    exact congrArg (fun lanes => (lanes[j]?).map ActorLane.lane) he

theorem Evolves.engine {b : Engine.Act} {e : Engine} (he : rt.engine.step b = some e)
    (ho : rt'.ops = rt.ops) (hl : rt'.engine.lanes = e.lanes) : Evolves rt rt' := by
  intro p l hp
  cases p with
  | op j =>
    refine ⟨l, ?_, Or.inl rfl⟩
    rw [← hp]
    exact congrArg (fun ops => ops[j]?) ho
  | actor j =>
    obtain ⟨al, hal, rfl⟩ := laneAt_actor hp
    obtain ⟨al', hal', hmove⟩ := Engine.lane_moves he hal
    refine ⟨al'.lane, ?_, hmove⟩
    show (rt'.engine.lanes[j]?).map ActorLane.lane = _
    rw [hl, hal']
    rfl

theorem Evolves.setLane {a : Act ActorState} (h : rt.stepLane p a = some rt') :
    Evolves rt rt' := by
  obtain ⟨l₀, l₁, hl₀, hs, rfl⟩ := stepLane_spec h
  intro q l hl
  by_cases hq : p = q
  · subst hq
    rw [hl₀] at hl
    cases hl
    exact ⟨l₁, laneAt_setLane_self hl₀, Or.inr ⟨a, hs⟩⟩
  · exact ⟨l, (laneAt_setLane_ne hq).trans hl, Or.inl rfl⟩

theorem step_push (hs : l.stop = false) (task : Prog ActorState Exc RuntimeResult) (cc : Int)
    (policy : DispatchPolicy) : l.step (.submit task cc policy) = some (l.push task cc policy) := by
  simp [Lane.step, hs]

/-- **Every move leaves a lane as it is or is one step of it.** -/
theorem Step.evolves (h : Step rt m rt') : Evolves rt rt' := by
  cases h with
  | refused n => exact .same rfl rfl
  | admitsOp _ _ _ _ hl hs => exact .setOp hl ⟨_, step_push hs _ _ _⟩ rfl rfl
  | @creates _ _ _ _ st _ _ _ _ _ =>
    obtain ⟨c⟩ := st
    intro p l hp
    cases p with
    | op j => exact ⟨l, hp, Or.inl rfl⟩
    | actor j =>
      obtain ⟨al, hal, rfl⟩ := laneAt_actor hp
      refine ⟨al.lane, ?_, Or.inl rfl⟩
      show ((rt.engine.lanes ++ [_])[j]?).map ActorLane.lane = _
      rw [List.getElem?_append_left (List.getElem?_eq_some_iff.mp hal).1, hal]
      rfl
  | @admitsCall _ _ _ _ _ k c method al _ _ _ _ _ _ _ hl hs =>
    intro p l hp
    cases p with
    | op j => exact ⟨l, hp, Or.inl rfl⟩
    | actor j =>
      obtain ⟨al', hal', rfl⟩ := laneAt_actor hp
      show ∃ l', ((rt.engine.lanes.set k (Engine.pushed al c method))[j]?).map ActorLane.lane =
        some l' ∧ _
      by_cases hj : k = j
      · subst hj
        rw [hl] at hal'
        cases hal'
        rw [List.getElem?_set_self (List.getElem?_eq_some_iff.mp hl).1]
        exact ⟨_, rfl, Or.inr ⟨_, step_push hs _ _ _⟩⟩
      · rw [List.getElem?_set_ne hj, hal']
        exact ⟨_, rfl, Or.inl rfl⟩
  | releases _ _ _ _ _ he => exact .engine he rfl rfl
  | shuts _ _ he => exact .engine he rfl rfl
  | reads _ _ _ => exact .same rfl rfl
  | cancels _ _ hl => exact fun p l hp => Evolves.setLane hl p l hp
  | cancelReturns _ hl => exact fun p l hp => Evolves.setLane hl p l hp
  | drives _ _ he => exact .engine he rfl rfl
  | released _ _ _ => exact .same rfl rfl
  | unpublishes _ => exact .same rfl rfl
  | drained _ _ _ _ => exact .same rfl rfl
  | actorsGone _ _ => exact .same rfl rfl
  | chores _ hl _ hs => exact .setOp hl ⟨_, hs⟩ rfl rfl
  | returns _ _ => exact .same rfl rfl
  | acquires _ => exact .same rfl rfl
  | picks _ _ _ => exact .same rfl rfl
  | enqueues _ hl hs => exact .setOp hl ⟨_, step_push hs _ _ _⟩ rfl rfl
  | leaves _ => exact .same rfl rfl
  | works _ hl => exact .setLane hl

theorem laneAt_of_lengths (h : rt'.laneAt p = some l) (ho : rt'.ops.length = rt.ops.length)
    (he : rt'.engine.lanes.length = rt.engine.lanes.length) :
    ∃ l₀, rt.laneAt p = some l₀ := by
  cases p with
  | op k =>
    have hlt := (List.getElem?_eq_some_iff.mp h).1
    rw [ho] at hlt
    exact ⟨_, List.getElem?_eq_getElem hlt⟩
  | actor k =>
    obtain ⟨al, hal, _⟩ := laneAt_actor h
    have hlt := (List.getElem?_eq_some_iff.mp hal).1
    rw [he] at hlt
    refine ⟨(rt.engine.lanes[k]).lane, ?_⟩
    show (rt.engine.lanes[k]?).map ActorLane.lane = _
    rw [List.getElem?_eq_getElem hlt]
    rfl

theorem stepLane_lengths {a : Act ActorState} (h : rt.stepLane p a = some rt') :
    rt'.ops.length = rt.ops.length ∧ rt'.engine.lanes.length = rt.engine.lanes.length := by
  cases p with
  | op k =>
    obtain ⟨l, _, h⟩ := Option.bind_eq_some_iff.mp h
    obtain ⟨l', _, rfl⟩ := Option.map_eq_some_iff.mp h
    exact ⟨List.length_set, rfl⟩
  | actor k =>
    obtain ⟨e, he, rfl⟩ := Option.map_eq_some_iff.mp h
    exact ⟨rfl, Engine.step_length he (fun _ _ _ => Engine.Act.noConfusion)⟩

/-- only `create_actor` makes a lane -/
theorem Step.lengths (h : Step rt m rt')
    (hm : ∀ id actorType args, m ≠ .createActor id actorType args) :
    rt'.ops.length = rt.ops.length ∧ rt'.engine.lanes.length = rt.engine.lanes.length := by
  have hengine : ∀ {b e}, rt.engine.step b = some e →
      (∀ id actorType args, b ≠ .create id actorType args) →
      rt.ops.length = rt.ops.length ∧ e.lanes.length = rt.engine.lanes.length :=
    fun he hb => ⟨rfl, Engine.step_length he hb⟩
  cases h with
  | admitsOp _ _ _ _ _ _ => exact ⟨List.length_set, rfl⟩
  | creates _ _ _ _ _ => exact absurd rfl (hm _ _ _)
  | admitsCall _ _ _ _ _ _ _ _ => exact ⟨rfl, List.length_set⟩
  | releases _ _ _ _ _ he => exact hengine he (fun _ _ _ => Engine.Act.noConfusion)
  | shuts _ _ he => exact hengine he (fun _ _ _ => Engine.Act.noConfusion)
  | cancels _ _ hs => exact (stepLane_lengths hs :)
  | cancelReturns _ hs => exact (stepLane_lengths hs :)
  | drives _ _ he => exact hengine he (fun _ _ _ => Engine.Act.noConfusion)
  | chores _ _ _ _ => exact ⟨List.length_set, rfl⟩
  | enqueues _ _ _ => exact ⟨List.length_set, rfl⟩
  | works _ hs => exact stepLane_lengths hs
  | _ => exact ⟨rfl, rfl⟩

/-- a lane was there before, or it is the new lane of an actor -/
theorem Step.lane_origin (h : Step rt m rt') (hl : rt'.laneAt p = some l) :
    (∃ l₀, rt.laneAt p = some l₀) ∨ l.Born := by
  have hold : (∀ id actorType args, m ≠ .createActor id actorType args) →
      (∃ l₀, rt.laneAt p = some l₀) ∨ l.Born :=
    fun hm => Or.inl (laneAt_of_lengths hl (h.lengths hm).1 (h.lengths hm).2)
  cases h with
  | refused n => exact Or.inl ⟨l, hl⟩
  | @creates id _ _ _ st _ _ _ _ _ =>
    obtain ⟨c⟩ := st
    cases p with
    | op k => exact Or.inl ⟨l, hl⟩
    | actor k =>
      obtain ⟨al, hal, rfl⟩ := laneAt_actor hl
      have hal' : (rt.engine.lanes ++ [_])[k]? = some al := hal
      by_cases hk : k < rt.engine.lanes.length
      · rw [List.getElem?_append_left hk] at hal'
        exact Or.inl ⟨al.lane, by rw [laneAt, hal']; rfl⟩
      · rw [List.getElem?_append_right (by omega)] at hal'
        have hmem := List.mem_of_getElem? hal'
        rw [List.mem_singleton.mp hmem]
        exact Or.inr (Lane.born_create _ _ _ _)
  | _ => exact hold (fun _ _ _ => Move.noConfusion)

/-! ## the invariant -/

/-- the future stands for an item of a validated call -/
def Stands (rt : Runtime) (f : RuntimeFuture) : Prop :=
  ∃ l it, rt.laneAt f.place = some l ∧ l.admitted[f.id]? = some it ∧ Registered l.actorId it

structure Sound (rt : Runtime) : Prop where
  born : ∀ p l, rt.laneAt p = some l → l.Born
  consistent : rt.engine.Consistent
  stands : ∀ f ∈ rt.futures, rt.Stands f
  once : RuntimeFuture.handles.Once RuntimeFuture.Made rt.promise rt.futures

theorem sound_create (cfg : RuntimeConfig) : Sound (create cfg) where
  born := by
    intro p l hp
    cases p with
    | op k =>
      have hk : ((List.range cfg.numLanes).map cfg.opLane)[k]? = some l := hp
      rw [List.getElem?_map] at hk
      obtain ⟨j, _, rfl⟩ := Option.map_eq_some_iff.mp hk
      exact Lane.born_create _ _ _ _
    | actor k =>
      obtain ⟨al, hal, _⟩ := laneAt_actor hp
      cases hal
  consistent := Engine.consistent_create _
  stands := by simp [create]
  once := Handles.once_nil

/-! ## what evolving lanes keep -/

theorem Evolves.promise (h : Evolves rt rt') (hb : ∀ p l, rt.laneAt p = some l → l.Born)
    (key : Place × Nat) (r : RuntimeResult) (hp : rt.promise key = [r]) :
    rt'.promise key = [r] := by
  unfold Runtime.promise at hp ⊢
  rcases hl : rt.laneAt key.1 with _ | l
  · rw [hl] at hp
    cases hp
  · rw [hl] at hp
    obtain ⟨l', hl', rfl | ⟨a, hs⟩⟩ := h key.1 l hl
    · rw [hl']
      exact hp
    · rw [hl']
      exact (hb key.1 l hl).settled hs hp

theorem Evolves.stands (h : Evolves rt rt') {f : RuntimeFuture} (hf : rt.Stands f) :
    rt'.Stands f := by
  obtain ⟨l, it, hl, hi, hreg⟩ := hf
  obtain ⟨l', hl', rfl | ⟨a, hs⟩⟩ := h f.place l hl
  · exact ⟨l', it, hl', hi, hreg⟩
  · refine ⟨l', it, hl', Lane.step_admitted hs hi, ?_⟩
    rw [Lane.step_actorId (Lane.step_sound hs)]
    exact hreg

theorem Step.born (h : Step rt m rt') (hb : ∀ p l, rt.laneAt p = some l → l.Born) (p : Place)
    (l : Lane ActorState) (hl : rt'.laneAt p = some l) : l.Born := by
  rcases h.lane_origin hl with ⟨l₀, hl₀⟩ | hnew
  · obtain ⟨l', hl', hmove⟩ := h.evolves p l₀ hl₀
    rw [hl] at hl'
    cases hl'
    rcases hmove with rfl | ⟨a, hs⟩
    · exact hb p l hl₀
    · exact (hb p l₀ hl₀).step hs
  · exact hnew

/-! ## new futures -/

theorem nativeOperation_ok {opId : String} {args : List PyObj} {e : OpEntry ActorState} {a : OpArgs}
    (h : nativeOperation opId args = .ok (e, a)) : findOp opId = some e ∧
      args.length = e.arity ∧ marshalArgs ("operation '" ++ opId ++ "'") args = .ok a := by
  unfold nativeOperation at h
  split at h
  · cases h
  · rename_i e' he
    split at h
    · cases h
    · rename_i hlen
      rcases hm : marshalArgs ("operation '" ++ opId ++ "'") args with err | a'
      · rw [hm] at h
        cases h
      · rw [hm] at h
        cases h
        exact ⟨he, not_not.mp hlen, rfl⟩

/-- the item of an operation that has passed both validations -/
theorem pushOp_registered {opId : PyObj} {args validated : List PyObj} {e : OpEntry ActorState}
    {a : OpArgs} (hv : validateCall opId args opTable = .ok validated)
    (hn : nativeOperation (textOf opId) validated = .ok (e, a)) (l : Lane ActorState) :
    ∃ it, (pushOp l e a).admitted[l.admitted.length]? = some it ∧ Registered l.actorId it := by
  obtain ⟨op, sig, rfl, _, _⟩ := validateCall_ok hv
  obtain ⟨he, _, hm⟩ := nativeOperation_ok hn
  exact ⟨_, List.getElem?_concat_length, .op op args validated e a _ hv he hm⟩

theorem target_call {e : Engine} {actorId methodId : String} {args : List PyObj} {k : Nat}
    {c : MethodCall} {method : OpEntry ActorState}
    (h : e.target actorId methodId args = .ok (k, c, method)) :
    c.method = methodId ∧ marshalArgs ("method '" ++ methodId ++ "'") args = .ok c.args := by
  unfold Engine.target at h
  obtain ⟨_, _, h⟩ := bind_ok_iff.mp h
  split at h
  · cases h
  · split at h
    · cases h
    · split at h
      · cases h
      · obtain ⟨_, _, h⟩ := bind_ok_iff.mp h
        obtain ⟨targs, hm, h⟩ := bind_ok_iff.mp h
        cases h
        exact ⟨rfl, hm⟩

/-- what the boundary lets through to a method is a method name on a counter -/
theorem actorCall_counter {t : String} {methodId : PyObj} {args out : List PyObj}
    (h : validateActorCall (.str t) methodId args = .ok out) :
    t = "counter" ∧ methodId = .str (textOf methodId) := by
  cases methodId with
  | str m =>
    refine ⟨?_, rfl⟩
    rw [validateActorCall] at h
    split at h
    · cases h
    · rename_i entry hentry
      unfold actorRegistry at hentry
      rw [List.lookup_cons] at hentry
      split at hentry
      · rename_i heq
        exact eq_of_beq heq
      · cases hentry
  | _ => cases h

theorem pushed_registered {hd : ActorHandle} {methodId : PyObj} {args validated : List PyObj}
    {e : Engine} {k : Nat} {c : MethodCall} {method : OpEntry ActorState}
    (hv : validateActorCall (.str hd.actorType) methodId args = .ok validated)
    (ht : e.target hd.actorId (textOf methodId) validated = .ok (k, c, method)) (al : ActorLane) :
    ∃ it, (Engine.pushed al c method).lane.admitted[al.lane.admitted.length]? = some it ∧
      Registered al.lane.actorId it := by
  obtain ⟨hct, hm⟩ := actorCall_counter hv
  obtain ⟨hmeth, hargs⟩ := target_call ht
  have hlook := (Engine.target_ok ht).1
  rw [hmeth] at hlook
  rw [hct, hm] at hv
  exact ⟨_, List.getElem?_concat_length, .method _ args validated method c.args _ hv hlook hargs⟩

/-- no future stands for an item that is not admitted yet -/
theorem Sound.fresh (h : Sound rt) (hl : rt.laneAt p = some l) :
    (p, l.admitted.length) ∉ rt.futures.map RuntimeFuture.key := by
  intro hmem
  obtain ⟨f, hf, hkey⟩ := List.mem_map.mp hmem
  obtain ⟨l', it, hl', hi, _⟩ := h.stands f hf
  have hplace : f.place = p := congrArg Prod.fst hkey
  have hid : f.id = l.admitted.length := congrArg Prod.snd hkey
  rw [hplace, hl] at hl'
  cases hl'
  rw [hid, List.getElem?_eq_none (Nat.le_refl _)] at hi
  cases hi

theorem stepLane_futures {a : Act ActorState} (h : rt.stepLane p a = some rt') :
    rt'.futures = rt.futures := by
  cases p with
  | op k =>
    obtain ⟨l, _, h⟩ := Option.bind_eq_some_iff.mp h
    obtain ⟨l', _, rfl⟩ := Option.map_eq_some_iff.mp h
    rfl
  | actor k =>
    obtain ⟨e, _, rfl⟩ := Option.map_eq_some_iff.mp h
    rfl

theorem stepLane_consistent {a : Act ActorState} (hc : rt.engine.Consistent)
    (h : rt.stepLane p a = some rt') : rt'.engine.Consistent := by
  rcases stepLane_engine h with he | ⟨b, hb⟩
  · rw [he]
    exact hc
  · exact hc.step hb

theorem Step.consistent (h : Step rt m rt') (hc : rt.engine.Consistent) :
    rt'.engine.Consistent := by
  cases h with
  | creates _ _ _ _ _ => exact hc.insert _ _ _
  | admitsCall _ _ _ _ _ ht hl hs => exact hc.accept hl hs (Engine.target_ok ht).1
  | releases _ _ _ _ _ he => exact hc.step he
  | shuts _ _ he => exact hc.step he
  | cancels _ _ hl => exact (stepLane_consistent hc hl :)
  | cancelReturns _ hl => exact (stepLane_consistent hc hl :)
  | drives _ _ he => exact hc.step he
  | works _ hl => exact stepLane_consistent hc hl
  | _ => exact hc

/-- a move that leaves the futures alone keeps the invariant -/
theorem Sound.keep (h : Sound rt) (hs : Step rt m rt') (hf : rt'.futures = rt.futures) :
    Sound rt' where
  born := hs.born h.born
  consistent := hs.consistent h.consistent
  stands := by
    intro f hmem
    rw [hf] at hmem
    exact hs.evolves.stands (h.stands f hmem)
  once := by
    rw [hf]
    exact h.once.grow (hs.evolves.promise h.born)

/-- a move that makes a future for the item it admits -/
theorem Sound.alloc (h : Sound rt) (hs : Step rt m rt') {p : Place} {l l' : Lane ActorState}
    {submitNs : Int} (hl : rt.laneAt p = some l) (hl' : rt'.laneAt p = some l')
    (hid : l'.actorId = l.actorId)
    (hit : ∃ it, l'.admitted[l.admitted.length]? = some it ∧ Registered l.actorId it)
    (hf : rt'.futures =
      rt.futures ++ [{ place := p, id := l.admitted.length, submitNs := submitNs }]) :
    Sound rt' where
  born := hs.born h.born
  consistent := hs.consistent h.consistent
  stands := by
    intro f hmem
    rw [hf] at hmem
    rcases List.mem_append.mp hmem with hmem | hmem
    · exact hs.evolves.stands (h.stands f hmem)
    · rw [List.mem_singleton.mp hmem]
      obtain ⟨it, hi, hreg⟩ := hit
      refine ⟨l', it, hl', hi, ?_⟩
      rw [hid]
      exact hreg
  once := by
    rw [hf]
    exact (h.once.grow (hs.evolves.promise h.born)).alloc (h.fresh hl) rfl rfl

/-- a promise that is set holds one row -/
theorem Sound.promise_one (h : Sound rt) {key : Place × Nat} {r : RuntimeResult}
    {rest : List RuntimeResult} (hp : rt.promise key = r :: rest) : rt.promise key = [r] := by
  unfold promise at hp ⊢
  rcases hl : rt.laneAt key.1 with _ | l
  · rw [hl] at hp
    cases hp
  · rw [hl] at hp
    have hle : (l.prom key.2).length ≤ 1 := ((h.born key.1 l hl).once key.2).prom_le
    have hp' : l.prom key.2 = r :: rest := hp
    show l.prom key.2 = [r]
    rw [hp'] at hle ⊢
    cases rest with
    | nil => rfl
    | cons r' rest => simp at hle

/-- **Every move keeps the invariant.** -/
theorem Sound.step (h : Sound rt) (hs : Step rt m rt') : Sound rt' := by
  have hmove := hs
  cases hs with
  | @admitsOp _ _ _ _ _ _ k _ hin hc hv hn hl hstop =>
    exact h.alloc (p := .op k) hmove hl
      (List.getElem?_set_self (List.getElem?_eq_some_iff.mp hl).1) rfl (pushOp_registered hv hn _) rfl
  | @admitsCall _ _ _ _ _ k c method al _ hin hc hh hr hv ht hl hstop =>
    have hat : rt.laneAt (.actor k) = some al.lane := by
      rw [laneAt, hl]
      rfl
    refine h.alloc hmove hat (?_ : _ = some (Engine.pushed al c method).lane) rfl
      (pushed_registered hv ht al) rfl
    show ((rt.engine.lanes.set k _)[k]?).map ActorLane.lane = _
    rw [List.getElem?_set_self (List.getElem?_eq_some_iff.mp hl).1]
    rfl
  | @reads i f r rest recvNs hf hv hp =>
    refine { born := h.born, consistent := h.consistent, stands := ?_, once := ?_ }
    · intro g hg
      rcases List.mem_or_eq_of_mem_set hg with hg | rfl
      · exact h.stands g hg
      · exact h.stands f (List.mem_of_getElem? hf)
    · have hmem := List.mem_of_getElem? hf
      have hgot : f.got = [] := by
        rcases h.once.fair f hmem with ⟨_, hg⟩ | ⟨hn, _⟩
        · exact hg
        · exact absurd (hv.symm.trans hn) Bool.noConfusion
      refine h.once.take hf (h.promise_one hp) rfl rfl (g := f.operationResult r recvNs) ?_ ?_
      · show f.got ++ [_] = _
        rw [hgot]
        rfl
      · exact ⟨rfl, recvNs, rfl⟩
  | cancels _ _ hl => exact h.keep hmove (stepLane_futures hl :)
  | cancelReturns _ hl => exact h.keep hmove (stepLane_futures hl :)
  | works _ hl => exact h.keep hmove (stepLane_futures hl)
  | _ => exact h.keep hmove rfl

theorem sound_reach (h : Reach step (create cfg) rt) : Sound rt :=
  h.inv (fun _ _ _ hi hs => hi.step (step_sound hs)) (sound_create cfg)

end Runtime
end Facade
end RayX
