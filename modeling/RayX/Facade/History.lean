import RayX.Facade.Refusals

/-!
# The history of an actor

The futures of the calls through one handle, against the sequential counter.

* `history`          the promises of the futures of an actor, in the order of the calls;
* `Filed`            the invariant: the `n`-th future of an actor stands for the `n`-th call that its
                     lane has admitted, and no two handles have one lane;
* `Grows`            a lane of an actor keeps its initial value, and its log only grows;
* `actor_history`    **the values read through a handle are those of the sequential counter**.
-/

namespace RayX
open Sys

/-! ## the log of the engine -/

namespace Engine
variable {e e' : Engine} {k : Nat} {al : ActorLane}

theorem log_congr (h : e'.calls = e.calls) (k : Nat) : e'.log k = e.log k := by
  unfold log
  rw [h]

/-- only a call is put on a log -/
theorem step_calls {a : Act} (hs : e.step a = some e')
    (ha : ∀ actorId methodId args, a ≠ .call actorId methodId args) : e'.calls = e.calls := by
  have hlane : ∀ {j b e₁}, e.laneStep j b = some e₁ → e₁.calls = e.calls := by
    intro j b e₁ hl
    obtain ⟨al, l, _, _, rfl⟩ := laneStep_spec hl
    rfl
  have hchore : ∀ {now resume c todo}, e.chore now resume c todo = some e' → e'.calls = e.calls := by
    intro now resume c todo hs
    obtain ⟨b, e₁, d, _, _, hl, rfl⟩ := chore_spec hs
    have hcalls : e₁.calls = e.calls := hlane hl
    exact hcalls
  cases step_moves hs with
  | creates st =>
    cases st
    rfl
  | admits => exact absurd rfl (ha _ _ _)
  | tears _ hs | tearsAll _ hs => exact hchore hs
  | steps _ hs => exact hlane hs
  | raises | releases | shuts | released | emptied => rfl

end Engine

namespace Facade
namespace Runtime
variable {cfg : RuntimeConfig} {rt rt' : Runtime} {m : Move} {k : Nat}

/-- lane `k` keeps the value that it started from, and its log only grows -/
def Grows (k : Nat) (rt rt' : Runtime) : Prop :=
  (∀ al, rt.engine.lanes[k]? = some al →
    ∃ al', rt'.engine.lanes[k]? = some al' ∧ al'.init = al.init) ∧
  ∃ more, rt'.engine.log k = rt.engine.log k ++ more

theorem Grows.refl (k : Nat) (rt : Runtime) : Grows k rt rt :=
  ⟨fun al hal => ⟨al, hal, rfl⟩, [], (List.append_nil _).symm⟩

theorem Grows.same (h : rt'.engine = rt.engine) : Grows k rt rt' := by
  refine ⟨?_, [], ?_⟩
  · intro al hal
    rw [h]
    exact ⟨al, hal, rfl⟩
  · rw [h, List.append_nil]

theorem Grows.engine {a : Engine.Act} {e : Engine} (he : rt.engine.step a = some e)
    (ha : ∀ actorId methodId args, a ≠ .call actorId methodId args) (h : rt'.engine = e) :
    Grows k rt rt' := by
  refine ⟨?_, [], ?_⟩
  · intro al hal
    obtain ⟨al', hal', hinit, _⟩ := Engine.step_frame he hal
    rw [h]
    exact ⟨al', hal', hinit⟩
  · rw [h, List.append_nil]
    exact Engine.log_congr (Engine.step_calls he ha) k

theorem Grows.setLane {p : Place} {a : Act ActorState} (h : rt.stepLane p a = some rt') :
    Grows k rt rt' := by
  cases p with
  | op j =>
    obtain ⟨l, _, h⟩ := Option.bind_eq_some_iff.mp h
    obtain ⟨l', _, rfl⟩ := Option.map_eq_some_iff.mp h
    exact .same rfl
  | actor j =>
    obtain ⟨e, he, rfl⟩ := Option.map_eq_some_iff.mp h
    exact .engine he (fun _ _ _ => Engine.Act.noConfusion) rfl

theorem Step.grows (h : Step rt m rt') (k : Nat) : Grows k rt rt' := by
  cases h with
  | @creates _ _ _ _ st _ _ _ _ _ =>
    obtain ⟨c⟩ := st
    refine ⟨?_, [], (List.append_nil _).symm⟩
    intro al hal
    exact ⟨al, (List.getElem?_append_left (List.getElem?_eq_some_iff.mp hal).1).trans hal, rfl⟩
  | @admitsCall _ _ _ _ _ j c method al _ _ _ _ _ _ _ hl _ =>
    refine ⟨?_, ?_⟩
    · intro al' hal'
      show ∃ al₁, (rt.engine.lanes.set j (Engine.pushed al c method))[k]? = some al₁ ∧ _
      by_cases hj : j = k
      · subst hj
        rw [hl] at hal'
        cases hal'
        exact ⟨_, List.getElem?_set_self (List.getElem?_eq_some_iff.mp hl).1, rfl⟩
      · exact ⟨al', (List.getElem?_set_ne hj).trans hal', rfl⟩
    · refine ⟨if j = k then [c] else [], ?_⟩
      show (rt.engine.accept j al c method).log k = _
      rw [Engine.log_accept]
      split <;> simp
  | releases _ _ _ _ _ he => exact .engine he (fun _ _ _ => Engine.Act.noConfusion) rfl
  | shuts _ _ he => exact .engine he (fun _ _ _ => Engine.Act.noConfusion) rfl
  | cancels _ _ hl => exact (Grows.setLane hl :)
  | cancelReturns _ hl => exact (Grows.setLane hl :)
  | drives _ _ he => exact .engine he (fun _ _ _ => Engine.Act.noConfusion) rfl
  | works _ hl => exact .setLane hl
  | _ => exact .same rfl

/-! ## the futures of an actor -/

/-- the promises of the futures of the actor on lane `k`, in the order of the calls -/
def history (rt : Runtime) (k : Nat) : List (Place × Nat) :=
  (rt.futures.map RuntimeFuture.key).filter fun q => q.1 == .actor k

structure Filed (rt : Runtime) : Prop where
  lanes : rt.handles.map ActorHandle.lane = List.range rt.engine.lanes.length
  futures : ∀ k, rt.history k = (List.range (rt.engine.log k).length).map fun n => (.actor k, n)

theorem filed_create (cfg : RuntimeConfig) : Filed (create cfg) where
  lanes := rfl
  futures := fun _ => rfl

theorem history_append (f : RuntimeFuture) (h : rt'.futures = rt.futures ++ [f]) (k : Nat) :
    rt'.history k = if f.place = .actor k then rt.history k ++ [f.key] else rt.history k := by
  unfold history
  rw [h, List.map_append, List.filter_append]
  by_cases hp : f.place = .actor k
  · have hself : [f.key].filter (fun q => q.1 == .actor k) = [f.key] := by
      simp [RuntimeFuture.key, hp]
    rw [if_pos hp, List.map_singleton, hself]
  · have hother : [f.key].filter (fun q => q.1 == .actor k) = [] := by
      simp [RuntimeFuture.key, hp]
    rw [if_neg hp, List.map_singleton, hother, List.append_nil]

/-- a move that makes no lane, no call and no future of an actor -/
theorem Filed.keep (h : Filed rt) (hh : rt'.handles.map ActorHandle.lane = rt.handles.map ActorHandle.lane)
    (hl : rt'.engine.lanes.length = rt.engine.lanes.length)
    (hc : rt'.engine.calls = rt.engine.calls) (hk : ∀ k, rt'.history k = rt.history k) :
    Filed rt' where
  lanes := by
    rw [hh, hl]
    exact h.lanes
  futures := by
    intro k
    rw [hk k, Engine.log_congr hc k]
    exact h.futures k

theorem Filed.step (h : Filed rt) (hs : Step rt m rt') (hc : rt.engine.Consistent) : Filed rt' := by
  have hlane : ∀ {p a rt₁}, rt.stepLane p a = some rt₁ →
      rt₁.handles = rt.handles ∧ rt₁.engine.calls = rt.engine.calls := by
    intro p a rt₁ hl
    cases p with
    | op j =>
      obtain ⟨l, _, hl⟩ := Option.bind_eq_some_iff.mp hl
      obtain ⟨l', _, rfl⟩ := Option.map_eq_some_iff.mp hl
      exact ⟨rfl, rfl⟩
    | actor j =>
      obtain ⟨e, he, rfl⟩ := Option.map_eq_some_iff.mp hl
      exact ⟨rfl, Engine.step_calls he (fun _ _ _ => Engine.Act.noConfusion)⟩
  have hstays : ∀ {p a rt₁}, rt.stepLane p a = some rt₁ → ∀ c, Filed { rt₁ with cancelling := c } := by
    intro p a rt₁ hl c
    refine h.keep ?_ (stepLane_lengths hl).2 (hlane hl).2 ?_
    · show rt₁.handles.map _ = _
      rw [(hlane hl).1]
    · intro k
      show (rt₁.futures.map _).filter _ = _
      rw [stepLane_futures hl]
      rfl
  have hengine : ∀ {a e}, rt.engine.step a = some e →
      (∀ id actorType args, a ≠ .create id actorType args) →
      (∀ actorId methodId args, a ≠ .call actorId methodId args) →
      e.lanes.length = rt.engine.lanes.length ∧ e.calls = rt.engine.calls :=
    fun he h1 h2 => ⟨Engine.step_length he h1, Engine.step_calls he h2⟩
  cases hs with
  | refused n => exact h.keep rfl rfl rfl (fun _ => rfl)
  | @admitsOp _ _ _ _ _ submitNs j l _ _ _ _ _ _ =>
    refine h.keep rfl rfl rfl ?_
    intro k
    rw [history_append _ rfl k]
    exact if_neg Place.noConfusion
  | @creates id actorType _ _ st _ _ _ _ _ =>
    obtain ⟨c⟩ := st
    refine { lanes := ?_, futures := h.futures }
    show (rt.handles ++ [_]).map _ = List.range (rt.engine.lanes ++ [_]).length
    rw [List.map_append, h.lanes, List.length_append, List.length_singleton, List.range_succ]
    rfl
  | @admitsCall _ _ _ _ _ j c method al submitNs _ _ _ _ _ _ hl _ =>
    refine { lanes := ?_, futures := ?_ }
    · show rt.handles.map _ = List.range (rt.engine.lanes.set j _).length
      rw [List.length_set]
      exact h.lanes
    · intro k
      have hlen : al.lane.admitted.length = (rt.engine.log j).length :=
        (hc.lanes j al hl).2.matched.length_eq
      rw [history_append _ rfl k]
      show _ = (List.range ((rt.engine.accept j al c method).log k).length).map _
      rw [Engine.log_accept]
      by_cases hj : j = k
      · subst hj
        rw [if_pos rfl, if_pos rfl, h.futures j, List.length_append, List.length_singleton,
          List.range_succ, List.map_append, ← hlen]
        rfl
      · rw [if_neg hj, if_neg (fun he => hj (Place.actor.inj he))]
        exact h.futures k
  | releases _ _ _ _ _ he =>
    obtain ⟨hl, hcalls⟩ := hengine he (fun _ _ _ => Engine.Act.noConfusion)
      (fun _ _ _ => Engine.Act.noConfusion)
    exact h.keep rfl hl hcalls (fun _ => rfl)
  | shuts _ _ he =>
    obtain ⟨hl, hcalls⟩ := hengine he (fun _ _ _ => Engine.Act.noConfusion)
      (fun _ _ _ => Engine.Act.noConfusion)
    exact h.keep rfl hl hcalls (fun _ => rfl)
  | @reads i f r rest recvNs hf hv hp =>
    refine h.keep rfl rfl rfl ?_
    intro k
    show ((rt.futures.set i _).map RuntimeFuture.key).filter _ = _
    have hkeys : (rt.futures.set i (f.retire (f.operationResult r recvNs))).map RuntimeFuture.key =
        rt.futures.map RuntimeFuture.key := by
      rw [List.map_set]
      obtain ⟨hlt, rfl⟩ := List.getElem?_eq_some_iff.mp hf
      have hlt' : i < (rt.futures.map RuntimeFuture.key).length := by
        rw [List.length_map]
        exact hlt
      have hself := List.set_getElem_self hlt'
      rw [List.getElem_map] at hself
      exact hself
    rw [hkeys]
    rfl
  | cancels _ _ hl => exact hstays hl _
  | cancelReturns _ hl => exact hstays hl _
  | drives _ _ he =>
    obtain ⟨hl, hcalls⟩ := hengine he (fun _ _ _ => Engine.Act.noConfusion)
      (fun _ _ _ => Engine.Act.noConfusion)
    exact h.keep rfl hl hcalls (fun _ => rfl)
  | @released j _ _ _ _ =>
    refine h.keep ?_ rfl rfl (fun _ => rfl)
    apply List.ext_getElem?
    intro i
    rw [List.getElem?_map, List.getElem?_map, List.getElem?_modify]
    rcases rt.handles[i]? with _ | hd
    · rfl
    · by_cases hji : j = i
      · simp [hji]
      · simp [hji]
  | unpublishes _ => exact h.keep rfl rfl rfl (fun _ => rfl)
  | drained _ _ _ _ => exact h.keep rfl rfl rfl (fun _ => rfl)
  | actorsGone _ _ => exact h.keep rfl rfl rfl (fun _ => rfl)
  | chores _ _ _ _ => exact h.keep rfl rfl rfl (fun _ => rfl)
  | returns _ _ => exact h.keep rfl rfl rfl (fun _ => rfl)
  | acquires _ => exact h.keep rfl rfl rfl (fun _ => rfl)
  | picks _ _ _ => exact h.keep rfl rfl rfl (fun _ => rfl)
  | enqueues _ _ _ => exact h.keep rfl rfl rfl (fun _ => rfl)
  | leaves _ => exact h.keep rfl rfl rfl (fun _ => rfl)
  | works _ hl => exact hstays hl _

theorem filed_reach (h : Reach step (create cfg) rt) : Filed rt := by
  have hboth := h.inv (P := fun s => Filed s ∧ s.engine.Consistent)
    (fun _ _ _ hi hs => ⟨hi.1.step (step_sound hs) hi.2, (step_sound hs).consistent hi.2⟩)
    ⟨filed_create cfg, (sound_create cfg).consistent⟩
  exact hboth.1

theorem grows_reach (h : Reach step rt rt') (k : Nat) : Grows k rt rt' := by
  refine h.inv (P := fun s => Grows k rt s) ?_ (Grows.refl k rt)
  rintro s m s' ⟨hinit, more, hlog⟩ hs
  obtain ⟨hinit', more', hlog'⟩ := (step_sound hs).grows k
  refine ⟨?_, more ++ more', ?_⟩
  · intro al hal
    obtain ⟨al₁, hal₁, h₁⟩ := hinit al hal
    obtain ⟨al₂, hal₂, h₂⟩ := hinit' al₁ hal₁
    exact ⟨al₂, hal₂, h₂.trans h₁⟩
  · rw [hlog', hlog, List.append_assoc]

/-- a handle stays the handle of its actor -/
def SameActor (hd hd' : ActorHandle) : Prop :=
  hd'.actorId = hd.actorId ∧ hd'.actorType = hd.actorType ∧ hd'.lane = hd.lane

theorem Step.keeps_handle (h : Step rt m rt') {i : Nat} {hd : ActorHandle} (hi : rt.handles[i]? = some hd) :
    ∃ hd', rt'.handles[i]? = some hd' ∧ SameActor hd hd' := by
  have hkeep : rt'.handles = rt.handles → ∃ hd', rt'.handles[i]? = some hd' ∧ SameActor hd hd' := by
    intro he
    rw [he]
    exact ⟨hd, hi, rfl, rfl, rfl⟩
  have hlane : ∀ {p a rt₁}, rt.stepLane p a = some rt₁ → rt₁.handles = rt.handles :=
    fun hl => (stepLane_frame hl).2.2.1
  cases h with
  | creates _ _ _ _ _ =>
    exact ⟨hd, (List.getElem?_append_left (List.getElem?_eq_some_iff.mp hi).1).trans hi, rfl, rfl, rfl⟩
  | @released j _ _ _ _ =>
    show ∃ hd', (rt.handles.modify j _)[i]? = some hd' ∧ _
    rw [List.getElem?_modify, hi]
    by_cases hji : j = i
    · exact ⟨{ hd with released := true }, by simp [hji], rfl, rfl, rfl⟩
    · exact ⟨hd, by simp [hji], rfl, rfl, rfl⟩
  | cancels _ _ hl => exact hkeep (hlane hl :)
  | cancelReturns _ hl => exact hkeep (hlane hl :)
  | works _ hl => exact hkeep (hlane hl)
  | _ => exact hkeep rfl

theorem handle_reach (h : Reach step rt rt') {i : Nat} {hd : ActorHandle}
    (hi : rt.handles[i]? = some hd) : ∃ hd', rt'.handles[i]? = some hd' ∧ SameActor hd hd' := by
  refine h.inv (P := fun s => ∃ hd', s.handles[i]? = some hd' ∧ SameActor hd hd') ?_
    ⟨hd, hi, rfl, rfl, rfl⟩
  rintro s m s' ⟨hd₁, h₁, hid, htype, hlane⟩ hs
  obtain ⟨hd₂, h₂, hid', htype', hlane'⟩ := (step_sound hs).keeps_handle h₁
  exact ⟨hd₂, h₂, hid'.trans hid, htype'.trans htype, hlane'.trans hlane⟩

/-- the handles have lanes of their own -/
theorem Filed.lane_inj (h : Filed rt) {i j : Nat} {hd hd' : ActorHandle}
    (hi : rt.handles[i]? = some hd) (hj : rt.handles[j]? = some hd') (he : hd.lane = hd'.lane) :
    i = j := by
  have hat : ∀ {i hd}, rt.handles[i]? = some hd → i < rt.engine.lanes.length ∧ hd.lane = i := by
    intro i hd hi
    have hget : (rt.handles.map ActorHandle.lane)[i]? = some hd.lane := by
      rw [List.getElem?_map, hi]
      rfl
    rw [h.lanes] at hget
    obtain ⟨hlt, hget⟩ := List.getElem?_eq_some_iff.mp hget
    rw [List.length_range] at hlt
    rw [List.getElem_range] at hget
    exact ⟨hlt, hget.symm⟩
  rw [← (hat hi).2, ← (hat hj).2]
  exact he

/-- what the counter of lane `k` was before its `n`-th call, by the completed calls before it -/
def counterBefore (rt : Runtime) (v : Int64) (k n : Nat) : Int64 :=
  counterAfter v (rt.engine.log k) (fun j => rt.promise (.actor k, j)) n

/-- a value that is read is that of its call in the replay -/
theorem Sound.replayed (h : Sound rt) {k : Nat} {al : ActorLane} (hk : rt.engine.lanes[k]? = some al)
    {f : RuntimeFuture} (hf : f ∈ rt.futures) (hp : f.place = .actor k) {o : OperationResult}
    (ho : o ∈ f.got) {x : Option OpValue} (hx : o.value = .ok x) :
    ∃ c, callAt (rt.engine.log k) f.id = some c ∧
      x = some (.int64 (c.apply (rt.counterBefore al.init k f.id))) := by
  obtain ⟨_, _, r, hprom, _, recvNs, rfl⟩ := (h.once.fair f hf).taken ho
  have hat : ∀ n, rt.promise (.actor k, n) = al.lane.prom n := by
    intro n
    have hl : rt.laneAt (.actor k) = some al.lane := by
      rw [laneAt, hk]
      rfl
    unfold promise
    rw [show rt.laneAt (Place.actor k, n).1 = some al.lane from hl]
  have hkey : RuntimeFuture.handles.key f = (.actor k, f.id) := by
    show (f.place, f.id) = _
    rw [hp]
  rw [hkey, hat] at hprom
  -- a value is that of a completed row
  by_cases hdone : r.status = .completed ∧ r.hasValue = true
  · rw [OperationResult.value_completed hdone.1 hdone.2] at hx
    cases hx
    obtain ⟨c, hcall, _, hval⟩ := (h.consistent.lanes k al hk).2.rows f.id r
      (by rw [hprom]; exact List.mem_singleton_self r) hdone.1
    refine ⟨c, hcall, ?_⟩
    show (if r.hasValue = true then some r.value else none) = _
    rw [if_pos hdone.2, hval]
    unfold counterBefore
    rw [show (fun j => rt.promise (.actor k, j)) = al.lane.prom from funext hat]
  · have hraise : ∃ e, (f.operationResult r recvNs).value = .error e := by
      unfold OperationResult.value
      rw [if_neg (show ¬ ((f.operationResult r recvNs).status = .completed ∧
        (f.operationResult r recvNs).hasValue = true) from hdone)]
      split
      · exact ⟨_, rfl⟩
      · exact ⟨_, rfl⟩
    obtain ⟨e, he⟩ := hraise
    rw [he] at hx
    cases hx

/-- what a call through a handle adds -/
theorem Served.call_log (h : rt.Served) (hin : rt.inPython = true) {i j : Nat} {hd : ActorHandle}
    (hi : rt.handles[i]? = some hd) {methodId : PyObj} {args : List PyObj} {submitNs : Int}
    (hcall : rt.call i methodId args submitNs = some (.ok j, rt')) :
    ∃ a : OpArgs, args = a.map pyOf ∧
      rt'.engine.log hd.lane = rt.engine.log hd.lane ++ [⟨textOf methodId, a⟩] ∧
      rt'.futures[j]? = some { place := .actor hd.lane, id := (rt.engine.log hd.lane).length, submitNs } := by
  obtain ⟨hd', hh, hcall⟩ := Option.bind_eq_some_iff.mp hcall
  rw [hi] at hh
  cases hh
  split at hcall
  · cases hcall
  · rename_i hc
    split at hcall
    · cases hcall
    · rename_i hr
      split at hcall
      · cases hcall
      · rename_i validated hv
        split at hcall
        · cases hcall
        · rename_i k c method ht
          obtain ⟨hmethod, hargs⟩ := target_call ht
          obtain ⟨_, record, hrec, rfl⟩ := Engine.target_ok ht
          have hkept := (h.records (by simpa using hc)).kept i hd hi (by simpa using hr) (by
            rw [inside_python hin]
            exact Inside.noConfusion)
          rw [hkept] at hrec
          cases hrec
          obtain ⟨e, he, hcall⟩ := Option.map_eq_some_iff.mp hcall
          rcases Engine.submit_spec he with rfl | ⟨al, hl, _, rfl⟩
          · rw [if_pos rfl] at hcall
            cases hcall
          · rw [if_neg (by simp [Engine.accept])] at hcall
            cases hcall
            obtain ⟨hct, hm⟩ := actorCall_counter hv
            rw [hm] at hv
            obtain ⟨entry, method', _, _, rfl, htyped⟩ := validateActorCall_ok hv
            obtain ⟨a, rfl⟩ := argsTyped_pyOf htyped
            rw [marshalArgs_pyOf] at hargs
            cases hargs
            have hlen : al.lane.admitted.length = (rt.engine.log hd.lane).length :=
              (h.guarded.sound.consistent.lanes _ al hl).2.matched.length_eq
            refine ⟨c.args, rfl, ?_, ?_⟩
            · show (rt.engine.accept _ al c method).log hd.lane = _
              rw [Engine.log_accept, if_pos rfl, ← hmethod]
            · show (rt.futures ++ [_])[rt.futures.length]? = _
              rw [List.getElem?_concat_length, admittedAt, hl, ← hlen]

/-- what `create_actor` returns a handle of -/
theorem createActor_made {id : String} {actorType : PyObj} {args : List PyObj} {i : Nat}
    (hr : rt.engine.running = !rt.closed)
    (hc : rt.createActor id actorType args = (.ok i, rt')) :
    ∃ v : Int64, args = [pyOf (.int64 v)] ∧
      rt'.handles[i]? = some { actorId := id, actorType := textOf actorType,
                               lane := rt.engine.lanes.length } ∧
      ∃ al, rt'.engine.lanes[rt.engine.lanes.length]? = some al ∧ al.init = v := by
  unfold createActor at hc
  split at hc
  · cases hc
  · rename_i hopen
    split at hc
    · cases hc
    · rename_i validated hv
      split at hc
      · cases hc
      · rename_i st hf
        cases hc
        have hrun : rt.engine.running = true := by
          rw [hr, (by simpa using hopen : rt.closed = false)]
          rfl
        obtain ⟨x, hx, hfact⟩ := Engine.factory_valid id hrun hv
        rw [hf] at hfact
        split at hfact
        · cases hfact
          exact ⟨x, hx, List.getElem?_concat_length, _, List.getElem?_concat_length, rfl⟩
        · cases hfact

/-- **The values read through a handle are those of the sequential counter.**  Once `create_actor`
has returned a handle, in every later state: no other handle shares its lane; the futures of its calls
stand, in the order of the calls, for the calls of the log; a call through the handle that returns a
future puts itself at the end of the log, and the log only grows; and a value that was read from a
future is that of its call in the fold of the completed calls before it from the initial value. -/
theorem actor_history {rt₀ rt₁ : Runtime} {id : String} {actorType : PyObj} {args : List PyObj}
    {i : Nat} (h₀ : Reach step (create cfg) rt₀) (hin : rt₀.inPython = true)
    (hg : rt₀.cancelling = none) (hc : rt₀.createActor id actorType args = (.ok i, rt₁)) :
    ∃ v : Int64, args = [pyOf (.int64 v)] ∧ ∀ rt, Reach step rt₁ rt →
      ∃ hd, rt.handles[i]? = some hd ∧ hd.actorId = id ∧
        (∀ j hd', rt.handles[j]? = some hd' → hd'.lane = hd.lane → j = i) ∧
        rt.history hd.lane =
          (List.range (rt.engine.log hd.lane).length).map (fun n => (.actor hd.lane, n)) ∧
        (rt.inPython = true → ∀ methodId as submitNs j rt',
          rt.call i methodId as submitNs = some (.ok j, rt') → ∃ a : OpArgs, as = a.map pyOf ∧
            rt'.engine.log hd.lane = rt.engine.log hd.lane ++ [⟨textOf methodId, a⟩] ∧
            rt'.futures[j]? =
              some { place := .actor hd.lane, id := (rt.engine.log hd.lane).length, submitNs }) ∧
        (∀ rt', Reach step rt rt' →
          ∃ more, rt'.engine.log hd.lane = rt.engine.log hd.lane ++ more) ∧
        ∀ f ∈ rt.futures, f.place = .actor hd.lane → ∀ o ∈ f.got, ∀ x, o.value = .ok x →
          ∃ c, callAt (rt.engine.log hd.lane) f.id = some c ∧
            x = some (.int64 (c.apply (rt.counterBefore v hd.lane f.id))) := by
  obtain ⟨v, hargs, hmade, al₁, hal₁, hinit⟩ := createActor_made (served_reach h₀).guarded.running hc
  refine ⟨v, hargs, ?_⟩
  intro rt hr
  have h₁ : Reach step (create cfg) rt₁ := by
    refine h₀.trans (Reach.one (.createActor id actorType args) ?_)
    have hno : ¬ (Move.driving (.createActor id actorType args) = true ∧ rt₀.inPython = false) := by
      rw [hin]
      exact fun h => Bool.noConfusion h.2
    unfold step
    rw [if_neg hno, if_neg (fun h => h.2 hg)]
    show some (rt₀.createActor id actorType args).2 = _
    rw [hc]
  have h := h₁.trans hr
  have hs := served_reach h
  have hfiled := filed_reach h
  obtain ⟨hd, hi, hid, _, hlane⟩ := handle_reach hr hmade
  obtain ⟨al, hal, hsame⟩ := (grows_reach hr rt₀.engine.lanes.length).1 al₁ hal₁
  have hal' : rt.engine.lanes[hd.lane]? = some al := by
    rw [hlane]
    exact hal
  refine ⟨hd, hi, hid, fun j hd' hj he => hfiled.lane_inj hj hi he, hfiled.futures hd.lane,
    fun hin' methodId as submitNs j rt' hcall => hs.call_log hin' hi hcall,
    fun rt' hr' => (grows_reach hr' hd.lane).2, ?_⟩
  intro f hf hp o ho x hx
  have hval := hs.guarded.sound.replayed hal' hf hp ho hx
  rw [hsame, hinit] at hval
  exact hval

/-- the steps that serve item `i` of the actor on lane 0, a method of `n` effects -/
def performs (i n : Nat) : List Move :=
  [.lane (.actor 0) .pop, .lane (.actor 0) .beginService, .lane (.actor 0) .dispatch] ++
    List.replicate (n + 1) (.lane (.actor 0) (.serve i 0)) ++
    [.lane (.actor 0) (.markFinished i), .lane (.actor 0) (.setValue i), .lane (.actor 0) .clearTok,
      .lane (.actor 0) .clearActive]

/-- `add(3)`, a second `add` that is cancelled in the queue, and `get()`, which is read -/
def counterMoves : List Move :=
  [.call 0 (.str "add") [.int 3] 0, .call 0 (.str "add") [.int 100] 0, .call 0 (.str "get") [] 0,
    .cancel 1, .cancelReturn 7] ++ performs 0 4 ++
    [.lane (.actor 0) .pop, .lane (.actor 0) .beginService, .lane (.actor 0) .clearTok,
      .lane (.actor 0) .clearActive] ++ performs 2 3 ++ [.result 2 9]

theorem counterMoves_return : ∃ rt₁ rt hd f o,
    (create serialConfig).createActor "rt-act-0" (.str "counter") [.int 5] = (.ok 0, rt₁) ∧
    run step rt₁ counterMoves = some rt ∧ rt.handles[0]? = some hd ∧ hd.lane = 0 ∧
    rt.futures[2]? = some f ∧ f.place = .actor 0 ∧ f.got = [o] ∧ (∃ x, o.value = .ok x) ∧
    callAt (rt.engine.log 0) f.id = some .get ∧ rt.counterBefore 5 0 f.id = 8 :=
  ⟨_, _, _, _, _, rfl, rfl, rfl, rfl, rfl, rfl, rfl, ⟨_, rfl⟩, rfl, rfl⟩

/-- the `get` after a completed `add(3)` and a cancelled `add(100)` reads `5 + 3` -/
theorem actor_history_counter : ∃ rt₁ rt f o,
    (create serialConfig).createActor "rt-act-0" (.str "counter") [.int 5] = (.ok 0, rt₁) ∧
    Reach step rt₁ rt ∧ rt.futures[2]? = some f ∧ f.got = [o] ∧
    o.value = .ok (some (.int64 8)) := by
  obtain ⟨rt₁, rt, hd, f, o, hc, hrun, hi, hlane, hf, hp, ho, ⟨x, hx⟩, hcall, hbefore⟩ :=
    counterMoves_return
  have hr : Reach step rt₁ rt := ⟨counterMoves, hrun⟩
  obtain ⟨v, hargs, hlater⟩ := actor_history (Reach.refl (create serialConfig)) rfl rfl hc
  obtain ⟨hd', hi', _, _, _, _, _, hread⟩ := hlater rt hr
  rw [hi] at hi'
  cases hi'
  rw [hlane] at hread
  obtain ⟨c, hc', hval⟩ := hread f (List.mem_of_getElem? hf) hp o
    (by rw [ho]; exact List.mem_singleton_self o) x hx
  have hv : v = 5 := by
    have hint : v.toInt = (5 : Int64).toInt := (PyObj.int.inj (List.cons.inj hargs).1).symm
    exact Int64.toInt_inj.mp hint
  rw [hcall] at hc'
  cases hc'
  rw [hv, hbefore] at hval
  refine ⟨rt₁, rt, f, o, hc, hr, hf, ho, ?_⟩
  rw [hx, hval]
  rfl

end Runtime
end Facade
end RayX
