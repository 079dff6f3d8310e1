import RayX.Facade.Shutdown
import RayX.Ops.Overflow

/-!
# The refusals of the engine are unreachable

The engine checks every call again behind the validators of the facade.  No call of a Runtime gets
as far as such a check with anything that the check refuses.

* `nativeOperation_total`, `factory_refuses`, `target_total`   what the engine makes of validated
                      arguments;
* `Engine.Ready`      the lane of an actor that is not taken down runs;
* `Runtime.Served`    an unreleased handle is the record of its actor, and the operation lanes run;
* `calls_return`      **every call returns, and the one exception of the extension is an id
                      collision of `create_actor`**.
-/

namespace RayX
open Sys

/-! ## validated arguments -/

section
variable {σ : Type}

theorem opTable_findOp {op : String} {sig : OpSignature} (h : opTable.lookup op = some sig) :
    ∃ e : OpEntry σ, findOp op = some e ∧ e.argTypes = sig.argTypes ∧ e.arity = sig.argTypes.length := by
  have hmem : (op, sig) ∈ opTable := mem_of_lookup h
  simp only [opTable, registry, hpxRegistry, List.cons_append, List.nil_append, List.map_cons,
    List.map_nil, List.mem_cons, List.not_mem_nil, or_false, Prod.mk.injEq] at hmem
  rcases hmem with ⟨rfl, rfl⟩ | ⟨rfl, rfl⟩ | ⟨rfl, rfl⟩ | ⟨rfl, rfl⟩ | ⟨rfl, rfl⟩ | ⟨rfl, rfl⟩ |
    ⟨rfl, rfl⟩ | ⟨rfl, rfl⟩ | ⟨rfl, rfl⟩ | ⟨rfl, rfl⟩ | ⟨rfl, rfl⟩ | ⟨rfl, rfl⟩ | ⟨rfl, rfl⟩
  all_goals exact ⟨_, rfl, rfl, rfl⟩

end

namespace Facade
namespace Runtime

/-- **The engine takes every operation that the facade has validated.** -/
theorem nativeOperation_total {opId : PyObj} {args validated : List PyObj}
    (h : validateCall opId args opTable = .ok validated) :
    ∃ e a, nativeOperation (textOf opId) validated = .ok (e, a) := by
  obtain ⟨op, sig, rfl, _, _⟩ := validateCall_ok h
  obtain ⟨rfl, sig, hsig, ht, _⟩ := validateCall_iff.1 h
  obtain ⟨e, he, htypes, harity⟩ := opTable_findOp (σ := ActorState) hsig
  obtain ⟨a, rfl⟩ := argsTyped_pyOf ht
  have hlen : ¬ (a.map pyOf).length ≠ e.arity := by
    rw [harity, ← argsTyped_length ht]
    exact not_not_intro rfl
  refine ⟨e, a, ?_⟩
  rw [nativeOperation, textOf, he]
  dsimp only
  rw [if_neg hlen, marshalArgs_pyOf]
  rfl

end Runtime
end Facade

namespace Engine
variable {e e' : Engine} {k : Nat} {al : ActorLane}

theorem require_ok {ok : Bool} {raised : Except PyErr Unit} (h : ok = true) :
    require ok raised = .ok () := by
  rw [require, if_pos h]

/-- a validated counter is made, unless its id is taken -/
theorem factory_valid (id : String) {actorType : PyObj} {args validated : List PyObj}
    (hr : e.running = true) (hv : validateActorCreate actorType args = .ok validated) :
    ∃ x : Int64, args = [pyOf (.int64 x)] ∧ e.factory id (Facade.textOf actorType) validated =
      if (e.actors.lookup id).isNone = true then .ok (.counter ⟨x⟩)
      else .error ⟨.runtimeError, "actor_id collision on create_actor: " ++ id⟩ := by
  cases actorType with
  | str t =>
    rw [validateActorCreate] at hv
    rcases hl : actorRegistry.lookup t with _ | entry
    · rw [hl] at hv
      cases hv
    · rw [hl] at hv
      obtain ⟨rfl, ht⟩ := validateTypedArgs_iff.1 hv
      have hmem : (t, entry) ∈ actorRegistry := mem_of_lookup hl
      simp only [actorRegistry, List.mem_singleton, Prod.mk.injEq] at hmem
      obtain ⟨rfl, rfl⟩ := hmem
      obtain ⟨a, rfl⟩ := argsTyped_pyOf ht
      obtain ⟨x, rfl⟩ := argsTyped_one ht
      refine ⟨x, rfl, ?_⟩
      unfold factory
      rw [require_ok hr, show Facade.textOf (.str "counter") = "counter" from rfl, hl, marshalArgs_pyOf]
      cases e.actors.lookup id with
      | none => rfl
      | some record => rfl
  | _ => cases hv

/-- **An actor that the facade has validated is refused for its id only.** -/
theorem factory_refuses {id : String} {actorType : PyObj} {args validated : List PyObj}
    (hr : e.running = true) (hv : validateActorCreate actorType args = .ok validated)
    {raised : PyErr} (h : e.factory id (Facade.textOf actorType) validated = .error raised) :
    (e.actors.lookup id).isSome = true ∧
      raised = ⟨.runtimeError, "actor_id collision on create_actor: " ++ id⟩ := by
  obtain ⟨x, _, hf⟩ := factory_valid _ hr hv
  rw [hf] at h
  cases hid : e.actors.lookup id with
  | none =>
    rw [hid] at h
    cases h
  | some record =>
    rw [hid] at h
    cases h
    exact ⟨rfl, rfl⟩

/-- **The engine takes every validated call of a live actor.** -/
theorem target_total {actorId : String} {methodId : PyObj} {args validated : List PyObj}
    {record : ActorRecord} (hr : e.running = true) (hl : e.actors.lookup actorId = some record)
    (hv : validateActorCall (.str record.actorType) methodId args = .ok validated) :
    ∃ c method, e.target actorId (Facade.textOf methodId) validated = .ok (record.lane, c, method) := by
  obtain ⟨htype, hm⟩ := Facade.Runtime.actorCall_counter hv
  rw [hm] at hv
  obtain ⟨entry, method, hentry, hmethod, rfl, ht⟩ := validateActorCall_ok hv
  obtain ⟨a, rfl⟩ := argsTyped_pyOf ht
  have hlen : ((a.map pyOf).length == method.arity) = true := by
    rw [argsTyped_length ht, beq_iff_eq]
    have hmem : (record.actorType, entry) ∈ actorRegistry := mem_of_lookup hentry
    simp only [actorRegistry, List.mem_singleton, Prod.mk.injEq] at hmem
    obtain ⟨_, rfl⟩ := hmem
    have hmem' : (Facade.textOf methodId, method) ∈ counterMethods := mem_of_lookup hmethod
    simp only [counterMethods, List.mem_cons, List.not_mem_nil, or_false, Prod.mk.injEq] at hmem'
    rcases hmem' with ⟨_, rfl⟩ | ⟨_, rfl⟩ | ⟨_, rfl⟩ | ⟨_, rfl⟩
    all_goals rfl
  refine ⟨{ method := Facade.textOf methodId, args := a }, method, ?_⟩
  simp only [target, require_ok hr, hl, hentry, hmethod, require_ok hlen, marshalArgs_pyOf]
  rfl

/-! ## lanes that run -/

/-- the lane of an actor that is not taken down has not been stopped -/
structure Ready (e : Engine) : Prop where
  todo : ∀ c ∈ e.todo, ∀ p ∈ e.actors, p.2.lane = c.lane → e.tearing p.1
  fresh : ∀ p ∈ e.actors, ∀ al : ActorLane, e.lanes[p.2.lane]? = some al →
    e.tearing p.1 ∨ al.lane.stopper = .idle

theorem ready_create (maxQd : Int) : Ready (create maxQd) where
  todo := by simp [create]
  fresh := by simp [create]

theorem Consistent.owner_inj (hc : e.Consistent) (ht : e.Tended) {p q : String × ActorRecord}
    (hp : p ∈ e.actors) (hq : q ∈ e.actors) (h : p.2.lane = q.2.lane) : p = q := by
  obtain ⟨al, hal, howner⟩ := hc.owns p hp
  obtain ⟨al', hal', howner'⟩ := hc.owns q hq
  rw [h, hal'] at hal
  cases hal
  exact List.inj_on_of_nodup_map ht.keys hp hq (howner.symm.trans howner')

/-- the lanes may move as long as nobody stops them -/
theorem Ready.moves (h : Ready e) (ha : e'.actors = e.actors) (hd : e'.driver = e.driver)
    (hl : ∀ (j : Nat) (al' : ActorLane), e'.lanes[j]? = some al' → ∃ al : ActorLane,
      e.lanes[j]? = some al ∧ al'.lane.stopper = al.lane.stopper) : Ready e' := by
  have htodo : e'.todo = e.todo := by
    unfold Engine.todo
    rw [hd]
  have htear : ∀ id, e'.tearing id ↔ e.tearing id := by
    intro id
    unfold tearing
    rw [hd]
  refine { todo := ?_, fresh := ?_ }
  · intro c hc p hp hk
    rw [htodo] at hc
    rw [ha] at hp
    exact (htear p.1).mpr (h.todo c hc p hp hk)
  · intro p hp al' hal'
    rw [ha] at hp
    obtain ⟨al, hal, hst⟩ := hl _ al' hal'
    rw [hst]
    rcases h.fresh p hp al hal with ht | hs
    · exact Or.inl ((htear p.1).mpr ht)
    · exact Or.inr hs

theorem Ready.laneStep (h : Ready e) {a : RayX.Act ActorState} (ha : a.free = true)
    (hs : e.laneStep k a = some e') : Ready e' := by
  obtain ⟨al, l, hk, hl, rfl⟩ := laneStep_spec hs
  refine h.moves rfl rfl ?_
  intro j al' hj
  have hj' : (e.lanes.set k { al with lane := l })[j]? = some al' := hj
  by_cases hjk : k = j
  · subst hjk
    rw [List.getElem?_set_self (List.getElem?_eq_some_iff.mp hk).1] at hj'
    cases hj'
    exact ⟨al, hk, (Lane.works_frame ha hl).2⟩
  · rw [List.getElem?_set_ne hjk] at hj'
    exact ⟨al', hj', rfl⟩

theorem Ready.accept (h : Ready e) (hk : e.lanes[k]? = some al) (c : MethodCall)
    (method : OpEntry ActorState) : Ready (e.accept k al c method) := by
  refine h.moves rfl rfl ?_
  intro j al' hj
  have hj' : (e.lanes.set k (pushed al c method))[j]? = some al' := hj
  by_cases hjk : k = j
  · subst hjk
    rw [List.getElem?_set_self (List.getElem?_eq_some_iff.mp hk).1] at hj'
    cases hj'
    exact ⟨al, hk, rfl⟩
  · rw [List.getElem?_set_ne hjk] at hj'
    exact ⟨al', hj', rfl⟩

theorem next_lane {now : Int64} {l : Lane ActorState} {c : Chore} {a : RayX.Act ActorState}
    {rest : List Chore} (h : c.next now l = some (a, rest)) : ∀ d ∈ rest, d.lane = c.lane := by
  cases c with
  | cancelPending k =>
    cases h
    simp [Chore.lane]
  | sweeping k =>
    simp only [Chore.next] at h
    split at h <;> cases h <;> simp [Chore.lane]
  | stopAndJoin k =>
    cases h
    simp [Chore.lane]
  | joining k =>
    cases h
    simp

theorem Ready.chore (h : Ready e) {now : Int64} {resume : List Chore → Driver} {c : Chore}
    {rest : List Chore} (htodo : e.todo = c :: rest)
    (hresume : ∀ cs, (e.tearing = ({ e with driver := resume cs } : Engine).tearing) ∧
      ({ e with driver := resume cs } : Engine).todo = cs)
    (hs : e.chore now resume c rest = some e') : Ready e' := by
  obtain ⟨al, hal, hs⟩ := Option.bind_eq_some_iff.mp hs
  obtain ⟨⟨a, more⟩, hnext, hs⟩ := Option.bind_eq_some_iff.mp hs
  obtain ⟨e₁, hl, rfl⟩ := Option.map_eq_some_iff.mp hs
  obtain ⟨al₀, l, hal₀, hstep, rfl⟩ := laneStep_spec hl
  have htear : ∀ lanes id, e.tearing id →
      ({ e with lanes := lanes, driver := resume (more ++ rest) } : Engine).tearing id := by
    intro lanes id ht
    rw [(hresume (more ++ rest)).1] at ht
    exact ht
  refine { todo := ?_, fresh := ?_ }
  · intro d hd p hp hk
    have hd' : d ∈ more ++ rest := (congrArg (d ∈ ·) (hresume (more ++ rest)).2).mp hd
    apply htear
    rcases List.mem_append.mp hd' with hd | hd
    · refine h.todo c ?_ p hp (hk.trans (next_lane hnext d hd))
      rw [htodo]
      exact List.mem_cons_self
    · refine h.todo d ?_ p hp hk
      rw [htodo]
      exact List.mem_cons_of_mem _ hd
  · intro p hp al' hal'
    by_cases hpc : p.2.lane = c.lane
    · refine Or.inl (htear _ _ (h.todo c ?_ p hp hpc))
      rw [htodo]
      exact List.mem_cons_self
    · have hold : e.lanes[p.2.lane]? = some al' := by
        rw [← List.getElem?_set_ne (fun he => hpc he.symm)]
        exact hal'
      exact (h.fresh p hp al' hold).imp (htear _ _) id

/-- **Every step of the engine keeps the lanes of its actors running.** -/
theorem Ready.step (h : Ready e) (hc : e.Consistent) (ht : e.Tended) {a : Act}
    (hs : e.step a = some e') : Ready e' := by
  have hidle : e.driver = .idle → ∀ p ∈ e.actors, ∀ al : ActorLane,
      e.lanes[p.2.lane]? = some al → al.lane.stopper = .idle := by
    intro hd p hp al hal
    rcases h.fresh p hp al hal with htear | hst
    · unfold tearing at htear
      rw [hd] at htear
      exact htear.elim
    · exact hst
  cases step_moves hs with
  | raises => exact h
  | @creates _ _ _ st hd hf =>
    obtain ⟨c⟩ := st
    refine { todo := ?_, fresh := ?_ }
    · intro d hdm
      unfold Engine.todo at hdm
      rw [show (e.insert _ _ (.counter c)).driver = .idle from hd] at hdm
      cases hdm
    · intro p hp al hal
      refine Or.inr ?_
      have hal' : (e.lanes ++ [_])[p.2.lane]? = some al := hal
      by_cases hlt : p.2.lane < e.lanes.length
      · rw [List.getElem?_append_left hlt] at hal'
        rcases List.mem_append.mp hp with hp | hp
        · exact hidle hd p hp al hal'
        · rw [List.mem_singleton.mp hp] at hlt
          exact absurd hlt (Nat.lt_irrefl _)
      · rw [List.getElem?_append_right (Nat.le_of_not_lt hlt)] at hal'
        rw [List.mem_singleton.mp (List.mem_of_getElem? hal')]
        rfl
  | admits _ _ hk _ => exact h.accept hk _ _
  | @releases actorId record hd _ hlook =>
    have hmem := mem_of_lookup hlook
    refine { todo := ?_, fresh := fun p hp al hal => Or.inr (hidle hd p hp al hal) }
    intro c hcm p hp hk
    have hlane : c.lane = record.lane := by
      simp only [Engine.todo, teardown, List.map_cons, List.map_nil, List.cons_append,
        List.nil_append, List.mem_cons, List.not_mem_nil, or_false] at hcm
      rcases hcm with rfl | rfl <;> rfl
    have he := hc.owner_inj ht hp hmem (hk.trans hlane)
    show actorId = p.1
    rw [he]
  | shuts =>
    exact { todo := fun _ _ _ _ _ => trivial, fresh := fun _ _ _ _ => Or.inl trivial }
  | tears hd hs | tearsAll hd hs =>
    refine h.chore (by rw [Engine.todo, hd]) ?_ hs
    intro cs
    refine ⟨?_, rfl⟩
    funext id
    simp only [tearing, hd]
  | @released _ actorId hd =>
    refine { todo := fun c hcm => absurd hcm List.not_mem_nil, fresh := ?_ }
    intro p hp al hal
    obtain ⟨hp, hne⟩ := List.mem_filter.mp hp
    rcases h.fresh p hp al hal with htear | hst
    · unfold tearing at htear
      rw [hd] at htear
      have hid : actorId = p.1 := htear
      rw [hid] at hne
      simp at hne
    · exact Or.inr hst
  | emptied => exact { todo := fun c hcm => absurd hcm List.not_mem_nil, fresh := by simp }
  | steps ha hs => exact h.laneStep ha hs

end Engine

/-! ## handles and lanes that are served -/

theorem lookup_filter {β : Type} {l : List (String × β)} {id key : String} (h : key ≠ id) :
    (l.filter fun p => p.1 != id).lookup key = l.lookup key := by
  induction l with
  | nil => rfl
  | cons p l ih =>
    obtain ⟨k, b⟩ := p
    rw [List.filter_cons, List.lookup_cons]
    by_cases hk : k = id
    · have hne : (key == k) = false := by
        rw [hk]
        exact beq_eq_false_iff_ne.mpr h
      rw [if_neg (by simp [hk]), ih, hne]
    · rw [if_pos (by simpa using hk), List.lookup_cons, ih]

theorem Lane.Born.running {s : Lane ActorState} (h : s.Born) (hs : s.stopper = .idle) :
    s.stop = false := by
  obtain ⟨mode, maxInflight, st, hr⟩ := h
  have hinv : s.stop = true → s.stopper ≠ .idle := by
    refine hr.inv (P := fun s : Lane ActorState => s.stop = true → s.stopper ≠ .idle) ?_ ?_
    · intro s a s' hi hs
      cases Lane.step_sound hs with
      | stopBegin _ => exact fun _ => Stopper.noConfusion
      | join _ _ =>
        intro _ he
        have he' : (if s.mode = .asyncNonBlocking then Stopper.awaiting else .returned) = .idle := he
        split at he' <;> cases he'
      | awaitInflight _ _ => exact fun _ => Stopper.noConfusion
      | _ => exact hi
    · exact fun h => absurd h Bool.false_ne_true
  cases hstop : s.stop with
  | false => rfl
  | true => exact absurd hs (hinv hstop)

namespace Facade
namespace Runtime
variable {cfg : RuntimeConfig} {rt rt' : Runtime} {m : Move} {l : Lane ActorState}

/-- what an open Runtime says of its handles -/
structure Records (rt : Runtime) : Prop where
  kept : ∀ (i : Nat) (hd : ActorHandle), rt.handles[i]? = some hd → hd.released = false →
    rt.inside ≠ .releasing i →
    rt.engine.actors.lookup hd.actorId = some { actorType := hd.actorType, lane := hd.lane }
  distinct : ∀ (i j : Nat) (hd hd' : ActorHandle), rt.handles[i]? = some hd →
    rt.handles[j]? = some hd' → hd.released = false → hd'.released = false → hd.actorId = hd'.actorId → i = j
  leaving : ∀ (i : Nat) (hd : ActorHandle), rt.inside = .releasing i →
    rt.handles[i]? = some hd → hd.released = false
  running : ∀ (k : Nat) (l : Lane ActorState), rt.ops[k]? = some l → l.stopper = .idle

structure Served (rt : Runtime) : Prop where
  guarded : Guarded rt
  ready : rt.engine.Ready
  lanes : 0 < rt.ops.length
  records : rt.closed = false → rt.Records

theorem served_create (cfg : RuntimeConfig) : Served (create cfg) where
  guarded := guarded_create cfg
  ready := Engine.ready_create _
  lanes := by
    show 0 < ((List.range cfg.numLanes).map cfg.opLane).length
    rw [List.length_map, List.length_range]
    exact cfg.one_lane
  records := by
    intro _
    refine { kept := ?_, distinct := ?_, leaving := ?_, running := ?_ }
    · simp [create]
    · simp [create]
    · simp [create]
    · intro k l hk
      have hk' : ((List.range cfg.numLanes).map cfg.opLane)[k]? = some l := hk
      rw [List.getElem?_map] at hk'
      obtain ⟨j, _, rfl⟩ := Option.map_eq_some_iff.mp hk'
      rfl

/-- a move that leaves the handles, the actors and the driver's side of the lanes as they are -/
theorem Records.keep (h : rt.Records) (hh : rt'.handles = rt.handles)
    (ha : rt'.engine.actors = rt.engine.actors) (hin : rt'.inside = rt.inside)
    (hops : Untouched rt rt') : rt'.Records where
  kept := by
    rw [hh, ha, hin]
    exact h.kept
  distinct := by
    rw [hh]
    exact h.distinct
  leaving := by
    rw [hh, hin]
    exact h.leaving
  running := by
    intro k l' hk
    obtain ⟨l, hl, _, hst⟩ := hops k l' hk
    exact hst.trans (h.running k l hl)

theorem Records.creates (h : rt.Records) (hin : rt.inside = .python) {id actorType : String}
    {st : ActorState} (hid : rt.engine.actors.lookup id = none) : Records { rt with
      engine := rt.engine.insert id actorType st
      handles := rt.handles ++
        [{ actorId := id, actorType := actorType, lane := rt.engine.lanes.length }] } := by
  obtain ⟨c⟩ := st
  have hpython : ∀ i, rt.inside ≠ .releasing i := by
    intro i
    rw [hin]
    exact Inside.noConfusion
  -- a handle of the longer list is an old one or the new one
  have hcases : ∀ (i : Nat) (hd new : ActorHandle), (rt.handles ++ [new])[i]? = some hd →
      rt.handles[i]? = some hd ∨ (i = rt.handles.length ∧ hd = new) := by
    intro i hd new hi
    by_cases hlt : i < rt.handles.length
    · rw [List.getElem?_append_left hlt] at hi
      exact Or.inl hi
    · have hlen := (List.getElem?_eq_some_iff.mp hi).1
      rw [List.length_append, List.length_singleton] at hlen
      have he : i = rt.handles.length := by omega
      rw [he, List.getElem?_concat_length] at hi
      exact Or.inr ⟨he, (Option.some.inj hi).symm⟩
  have hother : ∀ (i : Nat) (hd : ActorHandle), rt.handles[i]? = some hd → hd.released = false →
      hd.actorId ≠ id := by
    intro i hd hi hr he
    rw [← he, h.kept i hd hi hr (hpython i)] at hid
    cases hid
  refine { kept := ?_, distinct := ?_, leaving := ?_, running := h.running }
  · intro i hd hi hr _
    show (rt.engine.actors ++ [_]).lookup hd.actorId = _
    rw [List.lookup_append]
    rcases hcases i hd _ hi with hold | ⟨_, rfl⟩
    · rw [h.kept i hd hold hr (hpython i)]
      rfl
    · rw [hid]
      simp
  · intro i j hd hd' hi hj hr hr' he
    rcases hcases i hd _ hi with hi | ⟨hin', rfl⟩
    · rcases hcases j hd' _ hj with hj | ⟨_, rfl⟩
      · exact h.distinct i j hd hd' hi hj hr hr' he
      · exact absurd he (hother i hd hi hr)
    · rcases hcases j hd' _ hj with hj | ⟨hjn, rfl⟩
      · exact absurd he.symm (hother j hd' hj hr')
      · exact hin'.trans hjn.symm
  · exact fun i _ he _ => absurd he (hpython i)

theorem Records.released (h : rt.Records) {j : Nat} (hin : rt.inside = .releasing j) :
    Records { rt with
      handles := rt.handles.modify j fun hd => { hd with released := true }
      inside := .python } := by
  have hold : ∀ (i : Nat) (hd : ActorHandle),
      (rt.handles.modify j fun hd => { hd with released := true })[i]? = some hd →
      hd.released = false → i ≠ j ∧ rt.handles[i]? = some hd := by
    intro i hd hi hr
    rw [List.getElem?_modify] at hi
    obtain ⟨hd₀, hget, he⟩ := Option.map_eq_some_iff.mp hi
    by_cases hji : j = i
    · simp only [hji, if_true] at he
      rw [← he] at hr
      cases hr
    · simp only [hji, if_false] at he
      rw [← he]
      exact ⟨fun e => hji e.symm, hget⟩
  refine { kept := ?_, distinct := ?_, leaving := ?_, running := h.running }
  · intro i hd hi hr _
    obtain ⟨hne, hget⟩ := hold i hd hi hr
    refine h.kept i hd hget hr ?_
    rw [hin]
    exact fun he => hne (Inside.releasing.inj he).symm
  · intro i i' hd hd' hi hi' hr hr' he
    exact h.distinct i i' hd hd' (hold i hd hi hr).2 (hold i' hd' hi' hr').2 hr hr' he
  · exact fun _ _ he _ => Inside.noConfusion he

/-- the driver in the teardown of actor `j` -/
theorem Records.drives (h : rt.Records) {j : Nat} {hd : ActorHandle} {e : Engine}
    (hin : rt.inside = .releasing j) (hj : rt.handles[j]? = some hd)
    (ha : e.actors = rt.engine.actors ∨
      e.actors = rt.engine.actors.filter (fun p => p.1 != hd.actorId)) :
    Records { rt with engine := e } := by
  refine { kept := ?_, distinct := h.distinct, leaving := h.leaving, running := h.running }
  intro i hd' hi hr hne
  have hrec := h.kept i hd' hi hr hne
  rcases ha with ha | ha
  · show e.actors.lookup _ = _
    rw [ha]
    exact hrec
  · show e.actors.lookup _ = _
    rw [ha, lookup_filter ?_]
    · exact hrec
    · intro he
      have hij := h.distinct i j hd' hd hi hj hr (h.leaving j hd hin hj) he
      rw [hij] at hne
      exact hne hin

theorem Served.step (h : rt.Served) (hs : Step rt m rt') : rt'.Served := by
  have hg := h.guarded
  have hc := hg.sound.consistent
  have ht := hg.tended
  have hphase := hg.phase
  refine { guarded := hg.step hs, ready := ?_, lanes := ?_, records := ?_ }
  · have hlane : ∀ {q a s}, rt.stepLane q a = some s → s.engine.Ready := by
      intro q a s hl
      rcases stepLane_engine hl with he | ⟨b, hb⟩
      · rw [he]
        exact h.ready
      · exact h.ready.step hc ht hb
    cases hs with
    | @creates id actorType args validated st hin _ _ _ hf =>
      have he : rt.engine.step (.create id (textOf actorType) validated) =
          some (rt.engine.insert id (textOf actorType) st) := by
        simp only [Engine.step, hphase.idle hin, hf]
      exact h.ready.step hc ht he
    | admitsCall _ _ _ _ _ _ hl _ => exact h.ready.accept hl _ _
    | releases _ _ _ _ _ he => exact h.ready.step hc ht he
    | shuts _ _ he => exact h.ready.step hc ht he
    | cancels _ _ hl => exact (hlane hl :)
    | cancelReturns _ hl => exact (hlane hl :)
    | drives _ _ he => exact h.ready.step hc ht he
    | works _ hl => exact hlane hl
    | _ => exact h.ready
  · have hlen : (∀ id actorType args, m ≠ .createActor id actorType args) → 0 < rt'.ops.length := by
      intro hm
      rw [(hs.lengths hm).1]
      exact h.lanes
    cases hs with
    | refused _ => exact h.lanes
    | creates _ _ _ _ _ => exact h.lanes
    | _ => exact hlen (fun _ _ _ => Move.noConfusion)
  · intro hcl
    have hlane : ∀ {q a s}, a.free = true → rt.stepLane q a = some s → rt.closed = false →
        s.Records := by
      intro q a s hf hl hc₀
      have hfr := stepLane_frame hl
      exact (h.records hc₀).keep hfr.2.2.1 hfr.2.2.2.2.2.2.1 hfr.2.1 (.stepLane hf hl)
    -- the calls that close the Runtime first are not the ones that it is inside of
    have hshut : rt.closed = false → ∀ {i : Inside}, i ≠ .python → (∀ j, i ≠ .releasing j) →
        rt.inside ≠ i :=
      fun hc₀ i hp hr hin => absurd ((hphase.closed hin hp hr).symm.trans hc₀) Bool.true_eq_false.mp
    cases hs with
    | refused n => exact (h.records hcl).keep rfl rfl rfl (.same rfl)
    | admitsOp _ _ _ _ hl _ => exact (h.records hcl).keep rfl rfl rfl (.push hl rfl)
    | creates hin _ _ _ hf =>
      exact (h.records hcl).creates hin (Engine.factory_fresh hf).2
    | admitsCall _ _ _ _ _ _ _ _ => exact (h.records hcl).keep rfl rfl rfl (.same rfl)
    | @releases j hd e hin hc₀ hh hr hk he =>
      have hold := h.records hc₀
      have hacts := (Engine.release_spec (hg.open_runs hc₀) hk he).2.1
      refine { kept := ?_, distinct := hold.distinct, leaving := ?_, running := hold.running }
      · intro i hd' hi hr' _
        show e.actors.lookup _ = _
        rw [hacts]
        refine hold.kept i hd' hi hr' ?_
        rw [hin]
        exact Inside.noConfusion
      · intro i hd' hi hget
        cases hi
        rw [show rt.handles[j]? = some hd from hh] at hget
        cases hget
        exact hr
    | shuts _ _ _ => cases hcl
    | reads _ _ _ => exact (h.records hcl).keep rfl rfl rfl (.same rfl)
    | cancels _ _ hl =>
      have hfr := stepLane_frame hl
      have hrec := hlane (a := .cancel _) rfl hl (hfr.1.symm.trans hcl)
      exact hrec.keep rfl rfl rfl (.same rfl)
    | cancelReturns _ hl =>
      have hfr := stepLane_frame hl
      have hrec := hlane (a := .cancelFulfil _ _) rfl hl (hfr.1.symm.trans hcl)
      exact hrec.keep rfl rfl rfl (.same rfl)
    | drives hin hd he =>
      rcases hin with ⟨j, hin⟩ | hin
      · unfold Phase at hphase
        rw [hin] at hphase
        obtain ⟨_, hd₁, hj, ⟨todo, hbusy⟩ | ⟨hidle, _⟩⟩ := hphase
        · refine (h.records hcl).drives hin hj ?_
          rcases (Engine.drive_spec he).2 with ⟨_, _, _, _, _, hacts⟩ | ⟨id, hold, _, hacts⟩ |
            ⟨_, _, hold, _⟩ | ⟨hold, _⟩
          · exact Or.inl hacts
          · rw [hbusy] at hold
            cases hold
            exact Or.inr hacts
          · rw [hbusy] at hold
            cases hold
          · rw [hbusy] at hold
            cases hold
        · exact absurd hidle hd
      · exact absurd hin (hshut hcl Inside.noConfusion fun _ => Inside.noConfusion)
    | released hin _ _ => exact (h.records hcl).released hin
    | unpublishes _ => exact (h.records hcl).keep rfl rfl rfl (.same rfl)
    | drained hin _ _ _ => exact absurd hin (hshut hcl Inside.noConfusion fun _ => Inside.noConfusion)
    | actorsGone hin _ => exact absurd hin (hshut hcl Inside.noConfusion fun _ => Inside.noConfusion)
    | chores hin _ _ _ => exact absurd hin (hshut hcl Inside.noConfusion fun _ => Inside.noConfusion)
    | returns hin _ => exact absurd hin (hshut hcl Inside.noConfusion fun _ => Inside.noConfusion)
    | acquires _ => exact (h.records hcl).keep rfl rfl rfl (.same rfl)
    | picks _ _ _ => exact (h.records hcl).keep rfl rfl rfl (.same rfl)
    | enqueues _ hl _ => exact (h.records hcl).keep rfl rfl rfl (.push hl rfl)
    | leaves _ => exact (h.records hcl).keep rfl rfl rfl (.same rfl)
    | works hw hl => exact hlane (works_free hw) hl ((stepLane_frame hl).1.symm.trans hcl)

theorem served_reach (h : Reach step (create cfg) rt) : Served rt :=
  h.inv (fun _ _ _ hi hs => hi.step (step_sound hs)) (served_create cfg)

/-! ## the calls -/

theorem inside_python (h : rt.inPython = true) : rt.inside = .python := by
  unfold inPython at h
  split at h
  · assumption
  · cases h

theorem Served.idle (h : rt.Served) (hin : rt.inPython = true) : rt.engine.driver = .idle :=
  h.guarded.phase.idle (inside_python hin)

/-- a call that raises leaves the Runtime as it is, but for the cursor, and raises nothing native -/
def Clean {α : Type} (rt : Runtime) (out : Except Raised α) (rt' : Runtime) : Prop :=
  ∀ x, out = .error x → (∀ e, x ≠ .native e) ∧ ∃ n, rt' = { rt with rr := n }

theorem clean_error {α : Type} {x : Raised} (n : Nat) (h : ∀ e, x ≠ .native e) :
    Clean rt (.error x : Except Raised α) { rt with rr := n } := by
  intro y hy
  cases hy
  exact ⟨h, n, rfl⟩

theorem clean_ok {α : Type} (a : α) : Clean rt (.ok a) rt' := by
  intro x hx
  cases hx

theorem clean_facade {α : Type} (e : PyErr) :
    Clean rt (.error (.facade e) : Except Raised α) rt :=
  clean_error rt.rr (fun _ => Raised.noConfusion)

theorem trySubmit_total {task : Prog ActorState Exc RuntimeResult} {depth cc : Int}
    {policy : DispatchPolicy} (hs : l.stop = false) :
    ∃ l', l.step (.trySubmit task depth cc policy) = some l' := by
  simp only [Lane.step, hs]
  split
  · exact absurd ‹_› Bool.false_ne_true
  · split
    · exact ⟨_, rfl⟩
    · exact ⟨_, rfl⟩

theorem opAdmission_total (rt : Runtime) (hs : l.stop = false) (e : OpEntry ActorState) (a : OpArgs) :
    ∃ l', l.step (rt.opAdmission l e a) = some l' := by
  unfold opAdmission
  split
  · exact trySubmit_total hs
  · exact ⟨_, step_push hs _ _ _⟩

theorem submit_returns (h : rt.Served) (opId : PyObj) (args : List PyObj) (submitNs : Int) :
    ∃ out rt', rt.submitOperation opId args submitNs = some (out, rt') ∧ Clean rt out rt' := by
  unfold submitOperation
  split
  · exact ⟨_, _, rfl, clean_facade _⟩
  · rename_i hc
    split
    · exact ⟨_, _, rfl, clean_facade _⟩
    · rename_i validated hv
      obtain ⟨e, a, hn⟩ := nativeOperation_total hv
      rw [hn]
      have hlt : rt.rr % rt.ops.length < rt.ops.length := Nat.mod_lt _ h.lanes
      have hl : rt.ops[rt.rr % rt.ops.length]? = some rt.ops[rt.rr % rt.ops.length] :=
        List.getElem?_eq_getElem hlt
      have hstop := (h.guarded.sound.born (.op _) _ hl).running
        ((h.records (by simpa using hc)).running _ _ hl)
      obtain ⟨l', hl'⟩ := opAdmission_total rt hstop e a
      simp only [enqueueOp, hl, Option.bind_some, hl', Option.map_some]
      split
      · exact ⟨_, _, rfl, clean_error _ (fun _ => Raised.noConfusion)⟩
      · exact ⟨_, _, rfl, clean_ok _⟩

theorem engine_submit_total {e : Engine} {k : Nat} {al : ActorLane} (hl : e.lanes[k]? = some al)
    (hs : al.lane.stop = false) (c : MethodCall) (method : OpEntry ActorState) :
    ∃ e', e.submit k c method = some e' := by
  have hadm : ∃ l', al.lane.step (e.admission al.lane c method) = some l' := by
    unfold Engine.admission
    split
    · exact trySubmit_total hs
    · exact ⟨_, step_push hs _ _ _⟩
  obtain ⟨l', hl'⟩ := hadm
  unfold Engine.submit
  rw [hl, Option.bind_some, hl', Option.map_some]
  exact ⟨_, rfl⟩

theorem call_returns (h : rt.Served) (hin : rt.inPython = true) {i : Nat} {hd : ActorHandle}
    (hi : rt.handles[i]? = some hd) (methodId : PyObj) (args : List PyObj) (submitNs : Int) :
    ∃ out rt', rt.call i methodId args submitNs = some (out, rt') ∧ Clean rt out rt' := by
  unfold call
  rw [hi, Option.bind_some]
  split
  · exact ⟨_, _, rfl, clean_facade _⟩
  · rename_i hc
    split
    · exact ⟨_, _, rfl, clean_facade _⟩
    · rename_i hr
      split
      · exact ⟨_, _, rfl, clean_facade _⟩
      · rename_i validated hv
        have hc' : rt.closed = false := by simpa using hc
        have hrec := (h.records hc').kept i hd hi (by simpa using hr) (by
          rw [inside_python hin]
          exact Inside.noConfusion)
        obtain ⟨c, method, ht⟩ := Engine.target_total (h.guarded.open_runs hc') hrec hv
        rw [ht]
        obtain ⟨al, hal, _⟩ := h.guarded.sound.consistent.owns _ (mem_of_lookup hrec)
        have hstop : al.lane.stop = false := by
          rcases h.ready.fresh _ (mem_of_lookup hrec) al hal with htear | hst
          · unfold Engine.tearing at htear
            rw [h.idle hin] at htear
            exact htear.elim
          · refine (h.guarded.sound.born (.actor hd.lane) al.lane ?_).running hst
            rw [laneAt, hal]
            rfl
        obtain ⟨e', he'⟩ := engine_submit_total hal hstop c method
        simp only [he', Option.map_some]
        split
        · exact ⟨_, _, rfl, clean_error _ (fun _ => Raised.noConfusion)⟩
        · exact ⟨_, _, rfl, clean_ok _⟩

theorem release_returns (h : rt.Served) (hin : rt.inPython = true) {i : Nat} {hd : ActorHandle}
    (hi : rt.handles[i]? = some hd) :
    ∃ out rt', rt.releaseActor (.handle i) = some (out, rt') ∧ Clean rt out rt' := by
  unfold releaseActor
  split
  · exact ⟨_, _, rfl, clean_facade _⟩
  · rename_i hc
    simp only [hi, Option.bind_some]
    split
    · exact ⟨_, _, rfl, clean_facade _⟩
    · rename_i hr
      have hc' : rt.closed = false := by simpa using hc
      have hrec := (h.records hc').kept i hd hi (by simpa using hr) (by
        rw [inside_python hin]
        exact Inside.noConfusion)
      have hrun := h.guarded.open_runs hc'
      simp only [hrec, Engine.step, h.idle hin, hrun, if_true, Option.map_some]
      exact ⟨_, _, rfl, clean_ok _⟩

theorem createActor_clean (h : rt.Served) (id : String) (actorType : PyObj) (args : List PyObj)
    {x : Raised} {rt' : Runtime} (hs : rt.createActor id actorType args = (.error x, rt')) :
    rt' = rt ∧ ∀ e, x = .native e → (rt.engine.actors.lookup id).isSome = true ∧
      e = ⟨.runtimeError, "actor_id collision on create_actor: " ++ id⟩ := by
  unfold createActor at hs
  split at hs
  · cases hs
    exact ⟨rfl, fun _ he => Raised.noConfusion he⟩
  · rename_i hc
    split at hs
    · cases hs
      exact ⟨rfl, fun _ he => Raised.noConfusion he⟩
    · rename_i validated hv
      split at hs
      · rename_i raised hf
        cases hs
        refine ⟨rfl, ?_⟩
        intro e he
        cases he
        have hrun := h.guarded.open_runs (by simpa using hc)
        exact Engine.factory_refuses hrun hv hf
      · cases hs

/-- **The checks of the engine are unreachable through the facade.**  In every state that a Runtime
reaches, the calls of the thread that owns it return, none of them hands on an exception of the
engine but the id collision of `create_actor`, and a call that raises leaves the Runtime as it is but
for the round-robin cursor. -/
theorem calls_return (h : Reach step (create cfg) rt) (hin : rt.inPython = true) :
    (∀ opId args submitNs, ∃ out rt',
      rt.submitOperation opId args submitNs = some (out, rt') ∧ Clean rt out rt') ∧
    (∀ i hd, rt.handles[i]? = some hd → ∀ methodId args submitNs, ∃ out rt',
      rt.call i methodId args submitNs = some (out, rt') ∧ Clean rt out rt') ∧
    (∀ i hd, rt.handles[i]? = some hd → ∃ out rt',
      rt.releaseActor (.handle i) = some (out, rt') ∧ Clean rt out rt') ∧
    (∀ id actorType args x rt', rt.createActor id actorType args = (.error x, rt') → rt' = rt ∧
      ∀ e, x = .native e → (rt.engine.actors.lookup id).isSome = true ∧
        e = ⟨.runtimeError, "actor_id collision on create_actor: " ++ id⟩) ∧
    ∃ rt', rt.shutdown = some rt' := by
  have hs := served_reach h
  refine ⟨submit_returns hs, fun i hd hi => call_returns hs hin hi,
    fun i hd hi => release_returns hs hin hi, fun id t args x rt' => createActor_clean hs id t args, ?_⟩
  unfold shutdown
  split
  · exact ⟨rt, rfl⟩
  · rename_i hc
    have hrun := hs.guarded.open_runs (by simpa using hc)
    simp only [Engine.step, hs.idle hin, hrun, if_true, Option.map_some]
    exact ⟨_, rfl⟩

/-- one actor is released, another one lives -/
def releaseMoves : List Move :=
  [.createActor "rt-act-0" (.str "counter") [.int 5], .createActor "rt-act-1" (.str "counter") [.int 7],
    .releaseActor (.handle 0), .drive 1, .drive 2, .drive 3, .lane (.actor 0) .exit, .drive 4,
    .drive 5, .drive 6]

theorem releaseMoves_return : ∃ rt hd, run step (create serialConfig) releaseMoves = some rt ∧
    rt.inPython = true ∧ rt.handles[1]? = some hd ∧ hd.released = false ∧ rt.closed = false :=
  ⟨_, _, rfl, rfl, rfl, rfl, rfl⟩

/-- a call of the actor that lives is not refused by the engine -/
theorem calls_return_released : ∃ rt, Reach step (create serialConfig) rt ∧ rt.inPython = true ∧
    ∃ out rt', rt.call 1 (.str "add") [.int 2] 0 = some (out, rt') ∧ Clean rt out rt' := by
  obtain ⟨rt, hd, hrun, hin, hh, _⟩ := releaseMoves_return
  have h : Reach step (create serialConfig) rt := ⟨releaseMoves, hrun⟩
  exact ⟨rt, h, hin, (calls_return h hin).2.1 1 hd hh (.str "add") [.int 2] 0⟩

end Runtime
end Facade

end RayX
