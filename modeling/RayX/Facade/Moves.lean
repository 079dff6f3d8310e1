import RayX.Facade.Runtime

/-!
# What a move of the Runtime does

* `Runtime.Step`    one constructor for each effect that a move can have;
* `step_sound`      every move has one of them;
* `stepLane_spec`   one step of one lane, and the other lanes as before.
-/

namespace RayX
open Sys
namespace Facade
namespace Runtime

/-! ## lanes -/

/-- the Runtime after lane `p` has become `l` -/
def setLane (rt : Runtime) (p : Place) (l : Lane ActorState) : Runtime :=
  match p with
  | .op k => { rt with ops := rt.ops.set k l }
  | .actor k =>
    match rt.engine.lanes[k]? with
    | some al => { rt with engine := { rt.engine with
        lanes := rt.engine.lanes.set k { al with lane := l } } }
    | none => rt

section
variable {rt rt' : Runtime} {p q : Place} {l l' : Lane ActorState} {a : Act ActorState}

theorem laneAt_actor {k : Nat} (h : rt.laneAt (.actor k) = some l) :
    ∃ al, rt.engine.lanes[k]? = some al ∧ al.lane = l :=
  Option.map_eq_some_iff.mp h

theorem laneAt_setLane_self (h : rt.laneAt p = some l) : (rt.setLane p l').laneAt p = some l' := by
  cases p with
  | op k => exact List.getElem?_set_self (List.getElem?_eq_some_iff.mp h).1
  | actor k =>
    obtain ⟨al, hal, rfl⟩ := laneAt_actor h
    simp only [setLane, laneAt, hal]
    rw [List.getElem?_set_self (List.getElem?_eq_some_iff.mp hal).1]
    rfl

theorem laneAt_setLane_ne (h : p ≠ q) : (rt.setLane p l').laneAt q = rt.laneAt q := by
  cases p with
  | op k =>
    cases q with
    | op j => exact List.getElem?_set_ne (fun e => h (congrArg Place.op e))
    | actor j => rfl
  | actor k =>
    cases hal : rt.engine.lanes[k]? with
    | none => simp only [setLane, hal]
    | some al =>
      simp only [setLane, hal]
      cases q with
      | op j => rfl
      | actor j =>
        show ((rt.engine.lanes.set k _)[j]?).map _ = _
        rw [List.getElem?_set_ne (fun e => h (congrArg Place.actor e))]
        rfl

/-- **One lane makes one step, and nothing else changes.** -/
theorem stepLane_spec (h : rt.stepLane p a = some rt') : ∃ l l', rt.laneAt p = some l ∧
    l.step a = some l' ∧ rt' = rt.setLane p l' := by
  cases p with
  | op k =>
    obtain ⟨l, hl, h⟩ := Option.bind_eq_some_iff.mp h
    obtain ⟨l', hs, rfl⟩ := Option.map_eq_some_iff.mp h
    exact ⟨l, l', hl, hs, rfl⟩
  | actor k =>
    obtain ⟨e, he, rfl⟩ := Option.map_eq_some_iff.mp h
    simp only [Engine.step, Option.ite_none_right_eq_some] at he
    obtain ⟨al, l', hal, hs, rfl⟩ := Engine.laneStep_spec he.2
    refine ⟨al.lane, l', by rw [laneAt, hal]; rfl, hs, ?_⟩
    simp only [setLane, hal]

/-- a lane step on an actor is a step of the engine -/
theorem stepLane_engine (h : rt.stepLane p a = some rt') :
    rt'.engine = rt.engine ∨ ∃ b, rt.engine.step b = some rt'.engine := by
  cases p with
  | op k =>
    obtain ⟨l, _, h⟩ := Option.bind_eq_some_iff.mp h
    obtain ⟨l', _, rfl⟩ := Option.map_eq_some_iff.mp h
    exact Or.inl rfl
  | actor k =>
    obtain ⟨e, he, rfl⟩ := Option.map_eq_some_iff.mp h
    exact Or.inr ⟨_, he⟩

end

/-! ## effects -/

/-- the driver is in the native teardown of actors -/
def tearsDown (rt : Runtime) : Prop :=
  (∃ h, rt.inside = .releasing h) ∨ rt.inside = .stoppingActors

/-- the lane after it has admitted an operation -/
def pushOp (l : Lane ActorState) (e : OpEntry ActorState) (a : OpArgs) : Lane ActorState :=
  l.push (makeOpTask e.fn a l.actorId) (e.checkpointCount a) e.policy

/-- `refused`: a call that raises, at most with the cursor moved -/
inductive Step (rt : Runtime) : Move → Runtime → Prop where
  | refused {m} (n : Nat) : Step rt m { rt with rr := n }
  | admitsOp {opId args validated e a submitNs k l} (hin : rt.inside = .python)
      (hc : rt.closed = false) (hv : validateCall opId args opTable = .ok validated)
      (hn : nativeOperation (textOf opId) validated = .ok (e, a)) (hl : rt.ops[k]? = some l)
      (hs : l.stop = false) :
    Step rt (.submitOperation opId args submitNs) { rt with
      rr := rt.next
      ops := rt.ops.set k (pushOp l e a)
      futures := rt.futures ++ [{ place := .op k, id := l.admitted.length, submitNs := submitNs }] }
  | creates {id actorType args validated st} (hin : rt.inside = .python) (hc : rt.closed = false)
      (hg : rt.cancelling = none)
      (hv : validateActorCreate actorType args = .ok validated)
      (hf : rt.engine.factory id (textOf actorType) validated = .ok st) :
    Step rt (.createActor id actorType args) { rt with
      engine := rt.engine.insert id (textOf actorType) st
      handles := rt.handles ++
        [{ actorId := id, actorType := textOf actorType, lane := rt.engine.lanes.length }] }
  | admitsCall {h hd methodId args validated k c method al submitNs} (hin : rt.inside = .python)
      (hc : rt.closed = false) (hh : rt.handles[h]? = some hd) (hr : hd.released = false)
      (hv : validateActorCall (.str hd.actorType) methodId args = .ok validated)
      (ht : rt.engine.target hd.actorId (textOf methodId) validated = .ok (k, c, method))
      (hl : rt.engine.lanes[k]? = some al) (hs : al.lane.stop = false) :
    Step rt (.call h methodId args submitNs) { rt with
      engine := rt.engine.accept k al c method
      futures := rt.futures ++
        [{ place := .actor k, id := al.lane.admitted.length, submitNs := submitNs }] }
  | releases {h hd e} (hin : rt.inside = .python) (hc : rt.closed = false)
      (hh : rt.handles[h]? = some hd) (hr : hd.released = false)
      (hk : (rt.engine.actors.lookup hd.actorId).isSome = true)
      (he : rt.engine.step (.release hd.actorId) = some e) :
    Step rt (.releaseActor (.handle h)) { rt with engine := e, inside := .releasing h }
  | shuts {e} (hin : rt.inside = .python) (hc : rt.closed = false)
      (he : rt.engine.step .shutdown = some e) :
    Step rt .shutdown { rt with closed := true, engine := e, inside := .draining }
  | reads {i f r rest recvNs} (hf : rt.futures[i]? = some f) (hv : f.fut = true)
      (hp : rt.promise f.key = r :: rest) :
    Step rt (.result i recvNs) { rt with
      futures := rt.futures.set i (f.retire (f.operationResult r recvNs)) }
  | cancels {i f rt'} (hg : rt.cancelling = none) (hf : rt.futures[i]? = some f)
      (hl : rt.stepLane f.place (.cancel f.id) = some rt') :
    Step rt (.cancel i) { rt' with
      cancelling := if (rt.token f.key).cancel.2 = .fulfil then some f.key else none }
  | cancelReturns {q i now rt'} (hg : rt.cancelling = some (q, i))
      (hl : rt.stepLane q (.cancelFulfil i now) = some rt') :
    Step rt (.cancelReturn now) { rt' with cancelling := none }
  | drives {now e} (hin : rt.tearsDown) (hd : rt.engine.driver ≠ .idle)
      (he : rt.engine.step (.drive now) = some e) : Step rt (.drive now) { rt with engine := e }
  | released {h now} (hin : rt.inside = .releasing h) (hd : rt.engine.driver = .idle)
      (hg : rt.cancelling = none) :
    Step rt (.drive now) { rt with
      handles := rt.handles.modify h fun hd => { hd with released := true }
      inside := .python }
  | unpublishes {now} (hin : rt.inside = .draining) :
    Step rt (.drive now) { rt with slot := rt.slot.drain }
  | drained {now} (hin : rt.inside = .draining) (hb : rt.slot.bridge = none)
      (hf : rt.slot.inFlight = 0) (hg : rt.cancelling = none) :
    Step rt (.drive now) { rt with inside := .stoppingActors }
  | actorsGone {now} (hin : rt.inside = .stoppingActors) (hd : rt.engine.driver = .idle) :
    Step rt (.drive now)
      { rt with inside := .stoppingOps (Engine.teardown (List.range rt.ops.length)) }
  | chores {now c todo l a rest l'} (hin : rt.inside = .stoppingOps (c :: todo))
      (hl : rt.ops[c.lane]? = some l) (hn : opChore now l c = some (a, rest))
      (hs : l.step a = some l') :
    Step rt (.drive now)
      { rt with ops := rt.ops.set c.lane l', inside := .stoppingOps (rest ++ todo) }
  | returns {now} (hin : rt.inside = .stoppingOps []) (hg : rt.cancelling = none) :
    Step rt (.drive now) { rt with inside := .python }
  | acquires {opId a r slot} (ha : rt.slot.acquire = (.ok r, slot)) :
    Step rt (.bridge opId a)
      { rt with slot := slot, requests := rt.requests ++ [.acquired opId a] }
  | picks {i opId a e} (hi : rt.requests[i]? = some (.acquired opId a)) (he : findOp opId = some e)
      (hn : a.length = e.arity) :
    Step rt (.bridged i)
      { rt with rr := rt.next, requests := rt.requests.set i (.picked (rt.rr % rt.ops.length) e a) }
  | enqueues {i k e a l} (hi : rt.requests[i]? = some (.picked k e a)) (hl : rt.ops[k]? = some l)
      (hs : l.stop = false) :
    Step rt (.bridged i) { rt with
      ops := rt.ops.set k (pushOp l e a)
      requests := rt.requests.set i (.waiting k l.admitted.length) }
  | leaves {i c} (hi : rt.requests[i]? = some c) : Step rt (.bridged i) (rt.leave i)
  | works {q a rt'} (hw : works a = true) (hl : rt.stepLane q a = some rt') : Step rt (.lane q a) rt'

section
variable {rt rt' : Runtime} {l l' : Lane ActorState}

theorem Step.same {m : Move} : Step rt m rt := .refused rt.rr

/-- a lane that takes an item in has pushed it at the end -/
theorem opAdmission_spec {e : OpEntry ActorState} {x : OpArgs} (h : l.step (rt.opAdmission l e x) = some l') :
    l' = l ∨ (l.stop = false ∧ l' = pushOp l e x) := by
  have hs := Lane.step_sound h
  unfold opAdmission at hs
  split at hs
  · cases hs with
    | accept hstop _ => exact Or.inr ⟨hstop, rfl⟩
    | reject _ _ => exact Or.inl rfl
  · cases hs with
    | submit hstop => exact Or.inr ⟨hstop, rfl⟩

theorem pushOp_length (l : Lane ActorState) (e : OpEntry ActorState) (x : OpArgs) :
    (pushOp l e x).admitted.length = l.admitted.length + 1 := by
  simp [pushOp, Lane.push]

theorem submitOperation_sound {opId : PyObj} {args : List PyObj} {submitNs : Int}
    {out : Except Raised Nat} (hin : rt.inside = .python)
    (h : rt.submitOperation opId args submitNs = some (out, rt')) :
    Step rt (.submitOperation opId args submitNs) rt' := by
  unfold submitOperation at h
  split at h
  · cases h
    exact .same
  · rename_i hc
    split at h
    · cases h
      exact .same
    · rename_i validated hv
      split at h
      · cases h
        exact .same
      · rename_i e x hn
        obtain ⟨l, hl, h⟩ := Option.bind_eq_some_iff.mp h
        obtain ⟨l', hs, h⟩ := Option.map_eq_some_iff.mp h
        rcases opAdmission_spec hs with rfl | ⟨hstop, rfl⟩
        · rw [if_pos rfl] at h
          cases h
          exact .refused _
        · rw [if_neg (by rw [pushOp_length]; omega)] at h
          cases h
          exact .admitsOp hin (by simpa using hc) hv hn hl hstop

theorem createActor_sound {id : String} {actorType : PyObj} {args : List PyObj}
    (hin : rt.inside = .python) (hg : rt.cancelling = none) :
    Step rt (.createActor id actorType args) (rt.createActor id actorType args).2 := by
  unfold createActor
  split
  · exact .same
  · rename_i hc
    split
    · exact .same
    · rename_i validated hv
      split
      · exact .same
      · rename_i st hf
        exact .creates hin (by simpa using hc) hg hv hf

theorem call_sound {h : Nat} {methodId : PyObj} {args : List PyObj} {submitNs : Int}
    {out : Except Raised Nat} (hin : rt.inside = .python)
    (hs : rt.call h methodId args submitNs = some (out, rt')) :
    Step rt (.call h methodId args submitNs) rt' := by
  obtain ⟨hd, hh, hs⟩ := Option.bind_eq_some_iff.mp hs
  split at hs
  · cases hs
    exact .same
  · rename_i hc
    split at hs
    · cases hs
      exact .same
    · rename_i hr
      split at hs
      · cases hs
        exact .same
      · rename_i validated hv
        split at hs
        · cases hs
          exact .same
        · rename_i k c method ht
          obtain ⟨e, he, hs⟩ := Option.map_eq_some_iff.mp hs
          rcases Engine.submit_spec he with rfl | ⟨al, hl, hstop, rfl⟩
          · rw [if_pos rfl] at hs
            cases hs
            exact .same
          · rw [if_neg (by simp [Engine.accept])] at hs
            cases hs
            have hat : admittedAt rt.engine k = al.lane.admitted.length := by
              simp only [admittedAt, hl]
            rw [hat]
            exact .admitsCall hin (by simpa using hc) hh (by simpa using hr) hv ht hl hstop

theorem releaseActor_sound {arg : ActorArg} {out : Except Raised Unit} (hin : rt.inside = .python)
    (h : rt.releaseActor arg = some (out, rt')) : Step rt (.releaseActor arg) rt' := by
  unfold releaseActor at h
  split at h
  · cases h
    exact .same
  · rename_i hc
    cases arg with
    | other typeName =>
      cases h
      exact .same
    | handle i =>
      obtain ⟨hd, hh, h⟩ := Option.bind_eq_some_iff.mp h
      split at h
      · cases h
        exact .same
      · rename_i hr
        split at h
        · cases h
          exact .same
        · rename_i rec hk
          obtain ⟨e, he, h⟩ := Option.map_eq_some_iff.mp h
          cases h
          exact .releases hin (by simpa using hc) hh (by simpa using hr) (by rw [hk]; rfl) he

theorem shutdown_sound (hin : rt.inside = .python) (h : rt.shutdown = some rt') :
    Step rt .shutdown rt' := by
  unfold shutdown at h
  split at h
  · cases h
    exact .same
  · rename_i hc
    obtain ⟨e, he, rfl⟩ := Option.map_eq_some_iff.mp h
    exact .shuts hin (by simpa using hc) he

theorem result_sound {i : Nat} {recvNs : Int} {out : Except PyErr OperationResult}
    (h : rt.result i recvNs = some (out, rt')) : Step rt (.result i recvNs) rt' := by
  obtain ⟨f, hf, h⟩ := Option.bind_eq_some_iff.mp h
  obtain ⟨⟨_, f'⟩, hr, h⟩ := Option.map_eq_some_iff.mp h
  cases h
  cases out with
  | error e =>
    obtain ⟨_, rfl⟩ := RuntimeFuture.result_error hr
    have hsame : rt.futures.set i f' = rt.futures := by
      obtain ⟨hlt, rfl⟩ := List.getElem?_eq_some_iff.mp hf
      exact List.set_getElem_self hlt
    rw [hsame]
    exact .same
  | ok o =>
    obtain ⟨hv, r, rest, hp, rfl, rfl⟩ := RuntimeFuture.result_ok hr
    exact .reads hf hv hp

theorem drive_sound {now : Int64} (h : rt.drive now = some rt') : Step rt (.drive now) rt' := by
  unfold drive at h
  split at h
  · cases h
  · rename_i i hin
    split at h
    · rename_i hd
      split at h
      · rename_i hg
        cases h
        exact .released hin hd hg
      · cases h
    · rename_i hd
      obtain ⟨e, he, rfl⟩ := Option.map_eq_some_iff.mp h
      exact .drives (Or.inl ⟨i, hin⟩) hd he
  · rename_i hin
    split at h
    · cases h
      exact .unpublishes hin
    · rename_i hb
      split at h
      · rename_i hdone
        cases h
        exact .drained hin (Option.not_isSome_iff_eq_none.mp hb) hdone.1 hdone.2
      · cases h
  · rename_i hin
    split at h
    · rename_i hd
      cases h
      exact .actorsGone hin hd
    · rename_i hd
      obtain ⟨e, he, rfl⟩ := Option.map_eq_some_iff.mp h
      exact .drives (Or.inr hin) hd he
  · rename_i hin
    split at h
    · rename_i hg
      cases h
      exact .returns hin hg
    · cases h
  · rename_i c todo hin
    obtain ⟨l, hl, h⟩ := Option.bind_eq_some_iff.mp h
    obtain ⟨⟨a, rest⟩, hn, h⟩ := Option.bind_eq_some_iff.mp h
    obtain ⟨l', hs, rfl⟩ := Option.map_eq_some_iff.mp h
    exact .chores hin hl hn hs

theorem bridge_sound {opId : String} {x : OpArgs} : Step rt (.bridge opId x) (rt.bridge opId x) := by
  unfold bridge
  split
  · exact .same
  · rename_i ha
    exact .acquires ha

theorem bridged_sound {i : Nat} (h : rt.bridged i = some rt') : Step rt (.bridged i) rt' := by
  obtain ⟨c, hi, h⟩ := Option.bind_eq_some_iff.mp h
  cases c with
  | acquired opId x =>
    dsimp only at h
    split at h
    · cases h
      exact .leaves hi
    · rename_i e he
      split at h
      · cases h
        exact .leaves hi
      · rename_i hn
        cases h
        exact .picks hi he (not_not.mp hn)
  | picked k e x =>
    obtain ⟨l, hl, h⟩ := Option.bind_eq_some_iff.mp h
    obtain ⟨l', hs, rfl⟩ := Option.map_eq_some_iff.mp h
    cases Lane.step_sound hs with
    | submit hstop => exact .enqueues hi hl hstop
  | waiting k j =>
    dsimp only at h
    split at h
    · cases h
    · cases h
      exact .leaves hi

/-- **Every move has one of the effects.** -/
theorem step_sound {m : Move} (h : rt.step m = some rt') : Step rt m rt' := by
  unfold step at h
  split at h
  · cases h
  · rename_i hdrive
    split at h
    · cases h
    · rename_i hgil
      have hin : m.driving = true → rt.inside = .python := by
        intro hm
        unfold inPython at hdrive
        split at hdrive
        · assumption
        · exact absurd ⟨hm, rfl⟩ hdrive
      have hfree : m.holdsGil = true → rt.cancelling = none := by
        intro hm
        by_contra hc
        exact hgil ⟨hm, hc⟩
      cases m with
      | submitOperation opId args submitNs =>
        obtain ⟨⟨out, _⟩, hs, rfl⟩ := Option.map_eq_some_iff.mp h
        exact submitOperation_sound (hin rfl) hs
      | createActor id actorType args =>
        cases h
        exact createActor_sound (hin rfl) (hfree rfl)
      | call i methodId args submitNs =>
        obtain ⟨⟨out, _⟩, hs, rfl⟩ := Option.map_eq_some_iff.mp h
        exact call_sound (hin rfl) hs
      | releaseActor arg =>
        obtain ⟨⟨out, _⟩, hs, rfl⟩ := Option.map_eq_some_iff.mp h
        exact releaseActor_sound (hin rfl) hs
      | shutdown => exact shutdown_sound (hin rfl) h
      | result i recvNs =>
        obtain ⟨⟨out, _⟩, hs, rfl⟩ := Option.map_eq_some_iff.mp h
        exact result_sound hs
      | cancel i =>
        obtain ⟨⟨out, _⟩, hs, rfl⟩ := Option.map_eq_some_iff.mp h
        obtain ⟨f, hf, hs⟩ := Option.bind_eq_some_iff.mp hs
        obtain ⟨rt₁, hl, hs⟩ := Option.map_eq_some_iff.mp hs
        cases hs
        exact .cancels (hfree rfl) hf hl
      | cancelReturn now =>
        simp only [perform] at h
        split at h
        · rename_i q i hg
          obtain ⟨rt₁, hl, rfl⟩ := Option.map_eq_some_iff.mp h
          exact .cancelReturns hg hl
        · cases h
      | drive now => exact drive_sound h
      | bridge opId x =>
        cases h
        exact bridge_sound
      | bridged i => exact bridged_sound h
      | lane q b =>
        simp only [perform, Option.ite_none_right_eq_some] at h
        exact .works h.1 h.2

end

end Runtime
end Facade
end RayX
