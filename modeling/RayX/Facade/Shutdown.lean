import RayX.Facade.Teardown

/-!
# What shutdown and release leave behind

A `cancel()` holds the GIL over its critical section and its `set_value`, and `release_actor` and
`shutdown` take the GIL back before they return: when Python goes on, nobody owes a promise.

* `Runtime.Guarded`   the invariant: who owes a `set_value`, how far the teardown is, and which
                      lanes are over;
* `Guarded.step`      **every move keeps it**;
* `shutdown_resolves`   **after `shutdown()`, and for an actor after `release_actor()`, every future
                      is resolved, and stays so**.
-/

namespace RayX
open Sys
namespace Facade

/-! ## frames -/

theorem works_free {a : Act ActorState} (hw : works a = true) : a.free = true := by
  cases a with
  | cancel _ => cases hw
  | cancelFulfil _ _ => cases hw
  | _ => exact hw

theorem works_cancelling {l l' : Lane ActorState} {a : Act ActorState} (hw : works a = true)
    (hs : l.step a = some l') : l'.cancelling = l.cancelling := by
  have hfree := works_free hw
  cases Lane.step_sound hs with
  | cancel _ => cases hw
  | cancelFulfil _ => cases hw
  | cpCancel _ => cases hfree
  | _ => rfl

end Facade

namespace Engine
variable {e e' : Engine}

/-- the driver inside a native call: its next state, the actors, and the lanes -/
theorem drive_spec {now : Int64} (h : e.step (.drive now) = some e') : e'.running = e.running ∧
    ((∃ id todo todo', e.driver = .releasing id todo ∧ e'.driver = .releasing id todo' ∧
        e'.actors = e.actors) ∨
      (∃ id, e.driver = .releasing id [] ∧ e'.driver = .idle ∧
        e'.actors = e.actors.filter (fun p => p.1 != id)) ∨
      (∃ todo todo', e.driver = .shuttingDown todo ∧ e'.driver = .shuttingDown todo' ∧
        e'.actors = e.actors) ∨
      (e.driver = .shuttingDown [] ∧ e'.driver = .idle ∧ e'.actors = [])) := by
  have hchore : ∀ {resume c todo}, e.chore now resume c todo = some e' →
      e'.running = e.running ∧ e'.actors = e.actors ∧ ∃ cs, e'.driver = resume cs := by
    intro resume c todo hs
    obtain ⟨al, _, hs⟩ := Option.bind_eq_some_iff.mp hs
    obtain ⟨⟨a, more⟩, _, hs⟩ := Option.bind_eq_some_iff.mp hs
    obtain ⟨e₁, hl, rfl⟩ := Option.map_eq_some_iff.mp hs
    obtain ⟨_, _, _, _, rfl⟩ := laneStep_spec hl
    exact ⟨rfl, rfl, _, rfl⟩
  cases step_moves h with
  | raises ha _ => cases ha
  | tears hd hs =>
    obtain ⟨hr, ha, cs, hdr⟩ := hchore hs
    exact ⟨hr, Or.inl ⟨_, _, cs, hd, hdr, ha⟩⟩
  | tearsAll hd hs =>
    obtain ⟨hr, ha, cs, hdr⟩ := hchore hs
    exact ⟨hr, Or.inr (Or.inr (Or.inl ⟨_, cs, hd, hdr, ha⟩))⟩
  | released hd => exact ⟨rfl, Or.inr (Or.inl ⟨_, hd, rfl, rfl⟩)⟩
  | emptied hd => exact ⟨rfl, Or.inr (Or.inr (Or.inr ⟨hd, rfl, rfl⟩))⟩

/-- `release_actor` of a live actor sends the driver to its lane -/
theorem release_spec {id : String} (hr : e.running = true) (hk : (e.actors.lookup id).isSome = true)
    (h : e.step (.release id) = some e') : e'.running = e.running ∧ e'.actors = e.actors ∧
      ∃ todo, e'.driver = .releasing id todo := by
  obtain ⟨record, hrec⟩ := Option.isSome_iff_exists.mp hk
  simp only [Engine.step, hr, hrec, if_true] at h
  split at h
  · cases h
    exact ⟨hr.symm, rfl, _, rfl⟩
  · cases h

theorem shutdown_spec (hr : e.running = true) (h : e.step .shutdown = some e') :
    e'.running = false ∧ ∃ todo, e'.driver = .shuttingDown todo := by
  simp only [Engine.step, hr, if_true] at h
  split at h
  · cases h
    exact ⟨rfl, _, rfl⟩
  · cases h

/-- no client's `set_value` is the driver's -/
theorem drive_cancelling (hc : e.Consistent) {now : Int64} (h : e.step (.drive now) = some e')
    {k : Nat} {al' : ActorLane} (hk : e'.lanes[k]? = some al') :
    ∃ al, e.lanes[k]? = some al ∧ al'.lane.cancelling = al.lane.cancelling := by
  have hchore : ∀ {resume c todo}, e.chore now resume c todo = some e' →
      ∃ al, e.lanes[k]? = some al ∧ al'.lane.cancelling = al.lane.cancelling := by
    intro resume c todo hs
    obtain ⟨al, hal, hs⟩ := Option.bind_eq_some_iff.mp hs
    obtain ⟨⟨a, more⟩, hnext, hs⟩ := Option.bind_eq_some_iff.mp hs
    obtain ⟨e₁, hl, rfl⟩ := Option.map_eq_some_iff.mp hs
    obtain ⟨al₀, l, hal₀, hstep, rfl⟩ := laneStep_spec hl
    rw [hal] at hal₀
    cases hal₀
    have hk' : (e.lanes.set c.lane { al with lane := l })[k]? = some al' := hk
    by_cases hkc : c.lane = k
    · subst hkc
      rw [List.getElem?_set_self (List.getElem?_eq_some_iff.mp hal).1] at hk'
      cases hk'
      have hop := Facade.next_opChore (hc.lanes c.lane al hal).2.serial hnext hstep
      exact ⟨al, hal, (Facade.opChore_spec [] hop hstep).1⟩
    · rw [List.getElem?_set_ne hkc] at hk'
      exact ⟨al', hk', rfl⟩
  cases step_moves h with
  | raises ha _ => cases ha
  | released | emptied => exact ⟨al', hk, rfl⟩
  | tears _ hs | tearsAll _ hs => exact hchore hs

end Engine

namespace Facade
namespace Runtime
variable {cfg : RuntimeConfig} {rt rt' : Runtime} {m : Move} {p : Place} {l : Lane ActorState}

/-- what a step of one lane leaves as it is -/
theorem stepLane_frame {a : Act ActorState} (h : rt.stepLane p a = some rt') :
    rt'.closed = rt.closed ∧ rt'.inside = rt.inside ∧ rt'.handles = rt.handles ∧
      (rt'.slot = rt.slot ∧ rt'.requests = rt.requests) ∧ rt'.cancelling = rt.cancelling ∧
      rt'.engine.driver = rt.engine.driver ∧ rt'.engine.actors = rt.engine.actors ∧
      rt'.engine.running = rt.engine.running := by
  obtain ⟨l, l', _, _, rfl⟩ := stepLane_spec h
  cases p with
  | op k => exact ⟨rfl, rfl, rfl, ⟨rfl, rfl⟩, rfl, rfl, rfl, rfl⟩
  | actor k =>
    cases hal : rt.engine.lanes[k]? with
    | none => simp [setLane, hal]
    | some al => simp [setLane, hal]

theorem stepLane_todo {a : Act ActorState} (h : rt.stepLane p a = some rt') :
    rt'.engine.todo = rt.engine.todo := by
  unfold Engine.todo
  rw [(stepLane_frame h).2.2.2.2.2.1]

/-- the other lanes are as before, and this one has made the step -/
theorem stepLane_lanes {a : Act ActorState} (h : rt.stepLane p a = some rt') {q : Place}
    {l' : Lane ActorState} (hq : rt'.laneAt q = some l') :
    ∃ l, rt.laneAt q = some l ∧ ((q = p ∧ l.step a = some l') ∨ (q ≠ p ∧ l' = l)) := by
  obtain ⟨l₀, l₁, hl₀, hs, rfl⟩ := stepLane_spec h
  by_cases hqp : q = p
  · subst hqp
    rw [laneAt_setLane_self hl₀] at hq
    cases hq
    exact ⟨l₀, hl₀, Or.inl ⟨rfl, hs⟩⟩
  · rw [laneAt_setLane_ne (Ne.symm hqp)] at hq
    exact ⟨l', hq, Or.inr ⟨hqp, rfl⟩⟩

theorem stepLane_tended {a : Act ActorState} (ht : rt.engine.Tended) (hc : rt.engine.Consistent)
    (h : rt.stepLane p a = some rt') : rt'.engine.Tended := by
  rcases stepLane_engine h with he | ⟨b, hb⟩
  · rw [he]
    exact ht
  · exact ht.step hc hb

/-! ## the debts of clients -/

/-- the `set_value` of the lane at `p` that the holder of the GIL owes -/
def owing (rt : Runtime) (p : Place) : List Nat :=
  match rt.cancelling with
  | some (q, i) => if q = p then [i] else []
  | none => []

/-- the debts of the lanes are those of the holder of the GIL -/
def Debts (rt : Runtime) : Prop := ∀ p l, rt.laneAt p = some l → l.cancelling = rt.owing p

theorem owing_none (h : rt.cancelling = none) (p : Place) : rt.owing p = [] := by
  unfold owing
  rw [h]

theorem owing_congr (h : rt'.cancelling = rt.cancelling) (p : Place) : rt'.owing p = rt.owing p := by
  unfold owing
  rw [h]

/-- lanes that keep their debts, and new ones without -/
theorem Debts.keep (h : rt.Debts) (hg : rt'.cancelling = rt.cancelling)
    (hl : ∀ p l', rt'.laneAt p = some l' → (∃ l, rt.laneAt p = some l ∧
      l'.cancelling = l.cancelling) ∨ (l'.cancelling = [] ∧ rt.cancelling = none)) : rt'.Debts := by
  intro p l' hp
  rw [owing_congr hg]
  rcases hl p l' hp with ⟨l, hlp, hc⟩ | ⟨hc, hn⟩
  · rw [hc]
    exact h p l hlp
  · rw [hc, owing_none hn]

/-- a lane of the operations is replaced -/
theorem Debts.setOp (h : rt.Debts) {k : Nat} {l₁ : Lane ActorState} (hk : rt.ops[k]? = some l)
    (hs : l₁.cancelling = l.cancelling) (hg : rt'.cancelling = rt.cancelling)
    (ho : rt'.ops = rt.ops.set k l₁) (he : rt'.engine.lanes = rt.engine.lanes) : rt'.Debts := by
  refine h.keep hg ?_
  intro p l' hp
  refine Or.inl ?_
  cases p with
  | op j =>
    have hp' : rt'.ops[j]? = some l' := hp
    rw [ho] at hp'
    by_cases hj : k = j
    · subst hj
      rw [List.getElem?_set_self (List.getElem?_eq_some_iff.mp hk).1] at hp'
      cases hp'
      exact ⟨l, hk, hs⟩
    · rw [List.getElem?_set_ne hj] at hp'
      exact ⟨l', hp', rfl⟩
  | actor j =>
    have hp' : (rt'.engine.lanes[j]?).map ActorLane.lane = some l' := hp
    rw [he] at hp'
    exact ⟨l', hp', rfl⟩

theorem pushOp_cancelling (l : Lane ActorState) (e : OpEntry ActorState) (a : OpArgs) :
    (pushOp l e a).cancelling = l.cancelling := rfl

theorem Debts.same (h : rt.Debts) (hg : rt'.cancelling = rt.cancelling) (ho : rt'.ops = rt.ops)
    (he : rt'.engine.lanes = rt.engine.lanes) : rt'.Debts := by
  refine h.keep hg ?_
  intro p l' hp
  refine Or.inl ⟨l', ?_, rfl⟩
  rw [← hp]
  cases p with
  | op j => exact congrArg (fun ops => ops[j]?) ho.symm
  | actor j => exact congrArg (fun lanes => (lanes[j]?).map ActorLane.lane) he.symm

theorem release_lanes {e e' : Engine} {id : String} (h : e.step (.release id) = some e') :
    e'.lanes = e.lanes := by
  cases Engine.step_moves h with
  | raises | releases => rfl

theorem shutdown_lanes {e e' : Engine} (h : e.step .shutdown = some e') : e'.lanes = e.lanes := by
  cases Engine.step_moves h with
  | raises | shuts => rfl

/-- **The GIL keeps the debts of clients to one.** -/
theorem Debts.step (h : rt.Debts) (hc : rt.engine.Consistent) (hs : Step rt m rt') : rt'.Debts := by
  cases hs with
  | refused n => exact h.same rfl rfl rfl
  | admitsOp _ _ _ _ hl _ => exact h.setOp hl (pushOp_cancelling _ _ _) rfl rfl rfl
  | @creates _ _ _ _ st _ _ hg _ _ =>
    obtain ⟨c⟩ := st
    refine h.keep rfl ?_
    intro p l' hp
    cases p with
    | op j => exact Or.inl ⟨l', hp, rfl⟩
    | actor j =>
      obtain ⟨al, hal, rfl⟩ := laneAt_actor hp
      have hal' : (rt.engine.lanes ++ [_])[j]? = some al := hal
      by_cases hj : j < rt.engine.lanes.length
      · rw [List.getElem?_append_left hj] at hal'
        exact Or.inl ⟨al.lane, by rw [laneAt, hal']; rfl, rfl⟩
      · rw [List.getElem?_append_right (Nat.le_of_not_lt hj)] at hal'
        rw [List.mem_singleton.mp (List.mem_of_getElem? hal')]
        exact Or.inr ⟨rfl, hg⟩
  | @admitsCall _ _ _ _ _ k c method al _ _ _ _ _ _ _ hl _ =>
    refine h.keep rfl ?_
    intro p l' hp
    cases p with
    | op j => exact Or.inl ⟨l', hp, rfl⟩
    | actor j =>
      obtain ⟨al', hal, rfl⟩ := laneAt_actor hp
      have hal' : (rt.engine.lanes.set k (Engine.pushed al c method))[j]? = some al' := hal
      by_cases hj : k = j
      · subst hj
        rw [List.getElem?_set_self (List.getElem?_eq_some_iff.mp hl).1] at hal'
        cases hal'
        exact Or.inl ⟨al.lane, by rw [laneAt, hl]; rfl, rfl⟩
      · rw [List.getElem?_set_ne hj] at hal'
        exact Or.inl ⟨al'.lane, by rw [laneAt, hal']; rfl, rfl⟩
  | releases _ _ _ _ _ he => exact h.same rfl rfl (release_lanes he)
  | shuts _ _ he => exact h.same rfl rfl (shutdown_lanes he)
  | reads _ _ _ => exact h.same rfl rfl rfl
  | @cancels i f rt₁ hg hf hl =>
    intro p l' hp
    obtain ⟨l, hlp, ⟨rfl, hst⟩ | ⟨hne, rfl⟩⟩ := stepLane_lanes hl (q := p) hp
    · have hnil : l.cancelling = [] := (h _ l hlp).trans (owing_none hg _)
      have htok : rt.token f.key = l.tok f.id := by
        unfold token
        rw [show rt.laneAt f.key.1 = some l from hlp]
        rfl
      cases Lane.step_sound hst with
      | cancel _ =>
        show (if _ then f.id :: l.cancelling else l.cancelling) = owing _ _
        rw [hnil, ← htok]
        unfold owing
        by_cases ha : (rt.token f.key).cancel.2 = .fulfil
        · rw [if_pos ha]
          simp only [ha, if_true]
          exact (if_pos rfl).symm
        · rw [if_neg ha]
          simp only [ha, if_false]
    · have hnil : l'.cancelling = [] := (h _ l' hlp).trans (owing_none hg _)
      rw [hnil]
      unfold owing
      by_cases ha : (rt.token f.key).cancel.2 = .fulfil
      · simp only [ha, if_true]
        exact (if_neg (fun e => hne e.symm)).symm
      · simp only [ha, if_false]
  | @cancelReturns q i now rt₁ hg hl =>
    intro p l' hp
    rw [owing_none (show ({ rt₁ with cancelling := none } : Runtime).cancelling = none from rfl)]
    obtain ⟨l, hlp, ⟨rfl, hst⟩ | ⟨hne, rfl⟩⟩ := stepLane_lanes hl (q := p) hp
    · have hone : l.cancelling = [i] := by
        rw [h _ l hlp, owing, hg]
        exact if_pos rfl
      cases Lane.step_sound hst with
      | cancelFulfil _ =>
        show l.cancelling.erase i = []
        rw [hone, List.erase_cons_head]
    · rw [h _ l' hlp, owing, hg]
      exact if_neg (fun e => hne e.symm)
  | drives _ _ he =>
    refine h.keep rfl ?_
    intro p l' hp
    refine Or.inl ?_
    cases p with
    | op j => exact ⟨l', hp, rfl⟩
    | actor j =>
      obtain ⟨al', hal', rfl⟩ := laneAt_actor hp
      obtain ⟨al, hal, hcanc⟩ := Engine.drive_cancelling hc he hal'
      exact ⟨al.lane, by rw [laneAt, hal]; rfl, hcanc⟩
  | released _ _ _ => exact h.same rfl rfl rfl
  | unpublishes _ => exact h.same rfl rfl rfl
  | drained _ _ _ _ => exact h.same rfl rfl rfl
  | actorsGone _ _ => exact h.same rfl rfl rfl
  | chores _ hl hn hst =>
    exact h.setOp hl (opChore_spec [] hn hst).1 rfl rfl rfl
  | returns _ _ => exact h.same rfl rfl rfl
  | acquires _ => exact h.same rfl rfl rfl
  | picks _ _ _ => exact h.same rfl rfl rfl
  | enqueues _ hl _ => exact h.setOp hl (pushOp_cancelling _ _ _) rfl rfl rfl
  | leaves _ => exact h.same rfl rfl rfl
  | works hw hl =>
    refine h.keep (stepLane_frame hl).2.2.2.2.1 ?_
    intro p l' hp
    refine Or.inl ?_
    obtain ⟨l, hlp, ⟨rfl, hst⟩ | ⟨_, rfl⟩⟩ := stepLane_lanes hl (q := p) hp
    · exact ⟨l, hlp, works_cancelling hw hst⟩
    · exact ⟨l', hlp, rfl⟩

/-! ## how far the teardown is -/

/-- the chores on the operation lanes that the driver has still to do -/
def opTodo (rt : Runtime) : List Chore :=
  match rt.inside with
  | .stoppingOps todo => todo
  | _ => []

def AllOver (rt : Runtime) : Prop := ∀ p l, rt.laneAt p = some l → l.Over

/-- where the driver is, the lanes of the actors and those of the operations -/
def Phase (rt : Runtime) : Prop :=
  match rt.inside with
  | .python => rt.engine.driver = .idle ∧ (rt.closed = true → rt.AllOver)
  | .releasing h => rt.closed = false ∧ ∃ hd, rt.handles[h]? = some hd ∧
      ((∃ todo, rt.engine.driver = .releasing hd.actorId todo) ∨
        (rt.engine.driver = .idle ∧ ∀ q ∈ rt.engine.actors, q.1 ≠ hd.actorId))
  | .draining => rt.closed = true ∧ ∃ todo, rt.engine.driver = .shuttingDown todo
  | .stoppingActors => rt.closed = true ∧ ((∃ todo, rt.engine.driver = .shuttingDown todo) ∨
      (rt.engine.driver = .idle ∧ rt.engine.actors = []))
  | .stoppingOps todo => rt.closed = true ∧ rt.engine.driver = .idle ∧ rt.engine.actors = [] ∧
      ∀ k l, rt.ops[k]? = some l → Joins todo k l

structure Guarded (rt : Runtime) : Prop where
  sound : Sound rt
  tended : rt.engine.Tended
  debts : Debts rt
  running : rt.engine.running = !rt.closed
  owner : ∀ hd ∈ rt.handles, ∃ l, rt.laneAt (.actor hd.lane) = some l ∧ l.actorId = hd.actorId
  sweeps : ∀ k l, rt.ops[k]? = some l → Sweeps rt.opTodo k l
  phase : Phase rt
  released : ∀ hd ∈ rt.handles, hd.released = true →
    ∀ l, rt.laneAt (.actor hd.lane) = some l → l.Over

/-- the driver rests while the Runtime is in Python -/
theorem Phase.idle (h : rt.Phase) (hin : rt.inside = .python) : rt.engine.driver = .idle := by
  unfold Phase at h
  rw [hin] at h
  exact h.1

/-- every call but `releaseActor` that the Runtime can be inside of has closed it first -/
theorem Phase.closed {i : Inside} (h : rt.Phase) (hin : rt.inside = i) (hp : i ≠ .python)
    (hr : ∀ j, i ≠ .releasing j) : rt.closed = true := by
  unfold Phase at h
  rw [hin] at h
  cases i with
  | python => exact absurd rfl hp
  | releasing j => exact absurd rfl (hr j)
  | draining | stoppingActors | stoppingOps todo => exact h.1

theorem Guarded.open_runs (h : Guarded rt) (hc : rt.closed = false) : rt.engine.running = true := by
  rw [h.running, hc]
  rfl

theorem guarded_create (cfg : RuntimeConfig) : Guarded (create cfg) where
  sound := sound_create cfg
  tended := Engine.tended_create _
  debts := by
    intro p l hp
    cases p with
    | op k =>
      have hk : ((List.range cfg.numLanes).map cfg.opLane)[k]? = some l := hp
      rw [List.getElem?_map] at hk
      obtain ⟨j, _, rfl⟩ := Option.map_eq_some_iff.mp hk
      rfl
    | actor k =>
      obtain ⟨al, hal, _⟩ := laneAt_actor hp
      cases hal
  running := rfl
  owner := by simp [create]
  sweeps := by
    intro k l hk
    have hk' : ((List.range cfg.numLanes).map cfg.opLane)[k]? = some l := hk
    rw [List.getElem?_map] at hk'
    obtain ⟨j, _, rfl⟩ := Option.map_eq_some_iff.mp hk'
    exact fun hne => absurd rfl hne
  phase := ⟨rfl, fun h => absurd h Bool.false_ne_true⟩
  released := by simp [create]

/-! ## what stays over -/

theorem Step.over (h : Step rt m rt') (hb : ∀ p l, rt.laneAt p = some l → l.Born)
    {l' : Lane ActorState} (hl : rt.laneAt p = some l) (ho : l.Over) (hl' : rt'.laneAt p = some l') :
    l'.Over := by
  obtain ⟨l₁, hl₁, hmove⟩ := h.evolves p l hl
  rw [hl'] at hl₁
  cases hl₁
  rcases hmove with rfl | ⟨a, hs⟩
  · exact ho
  · exact ho.step (hb p l hl) hs

theorem Step.allOver (h : Step rt m rt') (hb : ∀ p l, rt.laneAt p = some l → l.Born)
    (hm : ∀ id actorType args, m ≠ .createActor id actorType args) (ho : rt.AllOver) :
    rt'.AllOver := by
  intro p l' hl'
  obtain ⟨l, hl⟩ := laneAt_of_lengths hl' (h.lengths hm).1 (h.lengths hm).2
  exact h.over hb hl (ho p l hl) hl'

/-- the driver's side of the operation lanes is as before -/
def Untouched (rt rt' : Runtime) : Prop :=
  ∀ (k : Nat) (l' : Lane ActorState), rt'.ops[k]? = some l' → ∃ l : Lane ActorState,
    rt.ops[k]? = some l ∧ l'.pending = l.pending ∧ l'.stopper = l.stopper

theorem Untouched.same (h : rt'.ops = rt.ops) : Untouched rt rt' := by
  intro k l' hk
  rw [h] at hk
  exact ⟨l', hk, rfl, rfl⟩

theorem Untouched.push {k : Nat} {e : OpEntry ActorState} {a : OpArgs}
    (hk : rt.ops[k]? = some l) (h : rt'.ops = rt.ops.set k (pushOp l e a)) : Untouched rt rt' := by
  intro j l' hj
  rw [h] at hj
  by_cases hkj : k = j
  · subst hkj
    rw [List.getElem?_set_self (List.getElem?_eq_some_iff.mp hk).1] at hj
    cases hj
    exact ⟨l, hk, rfl, rfl⟩
  · rw [List.getElem?_set_ne hkj] at hj
    exact ⟨l', hj, rfl, rfl⟩

theorem Untouched.stepLane {a : Act ActorState} (hf : a.free = true)
    (h : rt.stepLane p a = some rt') : Untouched rt rt' := by
  intro k l' hk
  obtain ⟨l, hl, ⟨_, hs⟩ | ⟨_, rfl⟩⟩ := stepLane_lanes h (q := .op k) hk
  · exact ⟨l, hl, Lane.works_frame hf hs⟩
  · exact ⟨l', hl, rfl, rfl⟩

/-- a move that leaves the driver where it is -/
theorem Phase.keep (h : rt.Phase) (hin : rt'.inside = rt.inside) (hcl : rt'.closed = rt.closed)
    (hd : rt'.engine.driver = rt.engine.driver) (ha : rt'.engine.actors = rt.engine.actors)
    (hh : rt'.handles = rt.handles) (hops : Untouched rt rt')
    (hover : rt.AllOver → rt'.AllOver) : rt'.Phase := by
  unfold Phase at h ⊢
  rw [hin, hcl, hd, ha, hh]
  cases hi : rt.inside with
  | python =>
    simp only [hi] at h ⊢
    exact ⟨h.1, fun hc => hover (h.2 hc)⟩
  | stoppingOps todo =>
    simp only [hi] at h ⊢
    refine ⟨h.1, h.2.1, h.2.2.1, ?_⟩
    intro k l' hk
    obtain ⟨l, hl, _, hst⟩ := hops k l' hk
    unfold Joins
    rw [hst]
    exact h.2.2.2 k l hl
  | _ =>
    simp only [hi] at h ⊢
    exact h

/-! ## each part of the invariant -/

theorem Step.tended (h : Step rt m rt') (hg : rt.Guarded) : rt'.engine.Tended := by
  have hc := hg.sound.consistent
  have ht := hg.tended
  cases h with
  | creates hin _ _ _ hf =>
    exact ht.insert (hg.phase.idle hin) (Engine.factory_fresh hf).2 _ _
  | admitsCall _ _ _ _ _ _ hl _ => exact ht.accept hl _ _
  | releases _ _ _ _ _ he => exact ht.step hc he
  | shuts _ _ he => exact ht.step hc he
  | cancels _ _ hl => exact (stepLane_tended ht hc hl :)
  | cancelReturns _ hl => exact (stepLane_tended ht hc hl :)
  | drives _ _ he => exact ht.step hc he
  | works _ hl => exact stepLane_tended ht hc hl
  | _ => exact ht

theorem Step.running (h : Step rt m rt') (hr : rt.engine.running = !rt.closed) :
    rt'.engine.running = !rt'.closed := by
  have hlane : ∀ {q a s}, rt.stepLane q a = some s → s.engine.running = !s.closed := by
    intro q a s hl
    have hf := stepLane_frame hl
    rw [hf.1, hf.2.2.2.2.2.2.2]
    exact hr
  cases h with
  | @creates _ _ _ _ st _ _ _ _ _ =>
    obtain ⟨c⟩ := st
    exact hr
  | releases _ hc _ _ hk he =>
    have hrun : rt.engine.running = true := by
      rw [hr, hc]
      rfl
    exact (Engine.release_spec hrun hk he).1.trans hr
  | shuts _ hc he =>
    have hrun : rt.engine.running = true := by
      rw [hr, hc]
      rfl
    exact (Engine.shutdown_spec hrun he).1
  | cancels _ _ hl => exact (hlane hl :)
  | cancelReturns _ hl => exact (hlane hl :)
  | drives _ _ he => exact (Engine.drive_spec he).1.trans hr
  | works _ hl => exact hlane hl
  | _ => exact hr

/-- the handles keep what they say but for `released`, and a new one is for the new lane -/
theorem Step.handle (h : Step rt m rt') {hd : ActorHandle} (hm : hd ∈ rt'.handles) :
    (∃ hd₀ ∈ rt.handles, hd.lane = hd₀.lane ∧ hd.actorId = hd₀.actorId ∧
      (hd.released = hd₀.released ∨ ∃ j, rt.inside = .releasing j ∧ rt.handles[j]? = some hd₀ ∧
        rt.engine.driver = .idle ∧ rt.cancelling = none)) ∨
    (hd.released = false ∧ ∃ l, rt'.laneAt (.actor hd.lane) = some l ∧ l.actorId = hd.actorId) := by
  have hkeep : hd ∈ rt.handles → (∃ hd₀ ∈ rt.handles, hd.lane = hd₀.lane ∧
      hd.actorId = hd₀.actorId ∧ (hd.released = hd₀.released ∨ ∃ j, rt.inside = .releasing j ∧
        rt.handles[j]? = some hd₀ ∧ rt.engine.driver = .idle ∧ rt.cancelling = none)) ∨
      (hd.released = false ∧ ∃ l, rt'.laneAt (.actor hd.lane) = some l ∧
        l.actorId = hd.actorId) :=
    fun hm => Or.inl ⟨hd, hm, rfl, rfl, Or.inl rfl⟩
  have hlane : ∀ {q a s}, rt.stepLane q a = some s → s.handles = rt.handles :=
    fun hl => (stepLane_frame hl).2.2.1
  cases h with
  | @creates id _ _ _ st _ _ _ _ _ =>
    rcases List.mem_append.mp hm with hm | hm
    · exact hkeep hm
    · rw [List.mem_singleton.mp hm]
      obtain ⟨c⟩ := st
      refine Or.inr ⟨rfl, Lane.create id .serialBlocking 1 (.counter c), ?_, rfl⟩
      show ((rt.engine.lanes ++ [_])[rt.engine.lanes.length]?).map ActorLane.lane = _
      rw [List.getElem?_concat_length]
      rfl
  | @released j now hin hdr hg =>
    obtain ⟨i, hi⟩ := List.getElem?_of_mem hm
    rw [List.getElem?_modify] at hi
    obtain ⟨hd₀, hget, he⟩ := Option.map_eq_some_iff.mp hi
    have hmem := List.mem_of_getElem? hget
    by_cases hji : j = i
    · simp only [hji, if_true] at he
      subst he
      refine Or.inl ⟨hd₀, hmem, rfl, rfl, Or.inr ⟨j, hin, ?_, hdr, hg⟩⟩
      rw [hji]
      exact hget
    · simp only [hji, if_false] at he
      subst he
      exact Or.inl ⟨hd₀, hmem, rfl, rfl, Or.inl rfl⟩
  | cancels _ _ hl =>
    rw [show Runtime.handles _ = rt.handles from hlane hl] at hm
    exact hkeep hm
  | cancelReturns _ hl =>
    rw [show Runtime.handles _ = rt.handles from hlane hl] at hm
    exact hkeep hm
  | works _ hl =>
    rw [hlane hl] at hm
    exact hkeep hm
  | _ => exact hkeep hm

theorem Guarded.owner_step (h : rt.Guarded) (hs : Step rt m rt') {hd : ActorHandle}
    (hm : hd ∈ rt'.handles) :
    ∃ l, rt'.laneAt (.actor hd.lane) = some l ∧ l.actorId = hd.actorId := by
  rcases hs.handle hm with ⟨hd₀, hmem, hlane, hid, _⟩ | ⟨_, hnew⟩
  · obtain ⟨l, hl, howner⟩ := h.owner hd₀ hmem
    rw [hlane, hid]
    obtain ⟨l', hl', rfl | ⟨a, hst⟩⟩ := hs.evolves _ l hl
    · exact ⟨l', hl', howner⟩
    · exact ⟨l', hl', (Lane.step_actorId (Lane.step_sound hst)).trans howner⟩
  · exact hnew

/-- a lane that no actor owns is over once the debts are paid -/
theorem Guarded.actor_over (h : rt.Guarded) (hd : rt.engine.driver = .idle)
    (hg : rt.cancelling = none) {k : Nat} (hl : rt.laneAt (.actor k) = some l)
    (hno : ∀ q ∈ rt.engine.actors, q.1 ≠ l.actorId) : l.Over := by
  obtain ⟨al, hal, rfl⟩ := laneAt_actor hl
  have htodo : rt.engine.todo = [] := by
    unfold Engine.todo
    rw [hd]
  have hret : al.lane.stopper = .returned := by
    rcases h.tended.torn k al hal with hr | ⟨q, hq, hqk, _⟩
    · exact hr
    · obtain ⟨al', hal', howner⟩ := h.sound.consistent.owns q hq
      rw [hqk, hal] at hal'
      cases hal'
      exact absurd howner.symm (hno q hq)
  refine (h.sound.born _ _ hl).over hret (h.tended.idle_pending htodo hal) ?_
  rw [h.debts _ _ hl, owing_none hg]

theorem Guarded.released_step (h : rt.Guarded) (hs : Step rt m rt') {hd : ActorHandle}
    (hm : hd ∈ rt'.handles) (hr : hd.released = true) {l' : Lane ActorState}
    (hl' : rt'.laneAt (.actor hd.lane) = some l') : l'.Over := by
  rcases hs.handle hm with ⟨hd₀, hmem, hlane, hid, hold | ⟨j, hin, hj, hdr, hg⟩⟩ | ⟨hnr, _⟩
  · obtain ⟨l, hl, _⟩ := h.owner hd₀ hmem
    rw [hlane] at hl'
    exact hs.over h.sound.born hl (h.released hd₀ hmem (hold.symm.trans hr) l hl) hl'
  · -- the handle is released by this move: the driver is back from the teardown of its lane
    obtain ⟨l, hl, howner⟩ := h.owner hd₀ hmem
    rw [hlane] at hl'
    have hphase := h.phase
    unfold Phase at hphase
    rw [hin] at hphase
    obtain ⟨_, hd₁, hj₁, ⟨todo, hbusy⟩ | ⟨_, hno⟩⟩ := hphase
    · rw [hdr] at hbusy
      cases hbusy
    · rw [hj] at hj₁
      cases hj₁
      refine hs.over h.sound.born hl (h.actor_over hdr hg hl ?_) hl'
      rw [howner]
      exact hno
  · rw [hnr] at hr
    cases hr

/-- the sweeps under way stay on the list -/
theorem Guarded.sweeps_keep (h : rt.Guarded) (hops : Untouched rt rt')
    (htodo : ∀ c ∈ rt.opTodo, c ∈ rt'.opTodo) (k : Nat) (l' : Lane ActorState)
    (hk : rt'.ops[k]? = some l') : Sweeps rt'.opTodo k l' := by
  obtain ⟨l, hl, hp, _⟩ := hops k l' hk
  intro hne
  rw [hp] at hne
  exact htodo _ (h.sweeps k l hl hne)

theorem opTodo_congr (h : rt'.inside = rt.inside) : rt'.opTodo = rt.opTodo := by
  unfold opTodo
  rw [h]

theorem opTodo_nil (h : ∀ todo, rt.inside ≠ .stoppingOps todo) : rt.opTodo = [] := by
  unfold opTodo
  split
  · exact absurd ‹_› (h _)
  · rfl

theorem Guarded.sweeps_step (h : rt.Guarded) (hs : Step rt m rt') (k : Nat) (l' : Lane ActorState)
    (hk : rt'.ops[k]? = some l') : Sweeps rt'.opTodo k l' := by
  -- the driver stays where it is, or it was on no list of chores
  have hstay : Untouched rt rt' → rt'.inside = rt.inside → Sweeps rt'.opTodo k l' :=
    fun hops hin => h.sweeps_keep hops (by rw [opTodo_congr hin]; exact fun _ hc => hc) k l' hk
  have hstart : Untouched rt rt' → (∀ todo, rt.inside ≠ .stoppingOps todo) → Sweeps rt'.opTodo k l' :=
    fun hops hin => h.sweeps_keep hops (by rw [opTodo_nil hin]; simp) k l' hk
  have hpython : rt.inside = .python → ∀ todo, rt.inside ≠ .stoppingOps todo := by
    intro hin todo
    rw [hin]
    exact Inside.noConfusion
  cases hs with
  | admitsOp _ _ _ _ hl _ => exact hstay (.push hl rfl) rfl
  | releases hin _ _ _ _ _ => exact hstart (.same rfl) (hpython hin)
  | shuts hin _ _ => exact hstart (.same rfl) (hpython hin)
  | cancels _ _ hl => exact hstay (Untouched.stepLane rfl hl :) (stepLane_frame hl).2.1
  | cancelReturns _ hl => exact hstay (Untouched.stepLane rfl hl :) (stepLane_frame hl).2.1
  | released hin _ _ =>
    refine hstart (.same rfl) ?_
    intro todo
    rw [hin]
    exact Inside.noConfusion
  | drained hin _ _ _ =>
    refine hstart (.same rfl) ?_
    intro todo
    rw [hin]
    exact Inside.noConfusion
  | actorsGone hin _ =>
    refine hstart (.same rfl) ?_
    intro todo
    rw [hin]
    exact Inside.noConfusion
  | @chores now c todo l a rest l₁ hin hl hn hst =>
    have htodo : rt.opTodo = c :: todo := by
      unfold opTodo
      rw [hin]
    show Sweeps (rest ++ todo) k l'
    have hk' : (rt.ops.set c.lane l₁)[k]? = some l' := hk
    by_cases hck : c.lane = k
    · subst hck
      rw [List.getElem?_set_self (List.getElem?_eq_some_iff.mp hl).1] at hk'
      cases hk'
      apply (opChore_spec todo hn hst).2.1
      rw [← htodo]
      exact h.sweeps _ l hl
    · rw [List.getElem?_set_ne hck] at hk'
      have hold := h.sweeps k l' hk'
      rw [htodo] at hold
      exact hold.other hck
  | returns hin _ =>
    intro hne
    have hmem := h.sweeps k l' hk hne
    unfold opTodo at hmem
    rw [hin] at hmem
    cases hmem
  | enqueues _ hl _ => exact hstay (.push hl rfl) rfl
  | works hw hl => exact hstay (.stepLane (works_free hw) hl) (stepLane_frame hl).2.1
  | _ => exact hstay (.same rfl) rfl

theorem Guarded.phase_step (h : rt.Guarded) (hs : Step rt m rt') : rt'.Phase := by
  have hphase := h.phase
  have hmove := hs
  have hb := h.sound.born
  have hover : (∀ id actorType args, m ≠ .createActor id actorType args) →
      rt.AllOver → rt'.AllOver := fun hm => hmove.allOver hb hm
  cases hs with
  | refused n => exact hphase.keep rfl rfl rfl rfl rfl (.same rfl) (fun ho => ho)
  | admitsOp _ _ _ _ hl _ =>
    exact hphase.keep rfl rfl rfl rfl rfl (.push hl rfl) (hover (fun _ _ _ => Move.noConfusion))
  | @creates _ _ _ _ st hin hc _ _ _ =>
    obtain ⟨c⟩ := st
    unfold Phase
    simp only [hin]
    exact ⟨hphase.idle hin, fun hcl => absurd (hc.symm.trans hcl) Bool.false_ne_true⟩
  | admitsCall _ _ _ _ _ _ _ _ =>
    exact hphase.keep rfl rfl rfl rfl rfl (.same rfl) (hover (fun _ _ _ => Move.noConfusion))
  | @releases j hd e hin hc hh _ hk he =>
    obtain ⟨_, _, todo, hdr⟩ := Engine.release_spec (h.open_runs hc) hk he
    exact ⟨hc, hd, hh, Or.inl ⟨todo, hdr⟩⟩
  | shuts hin hc he =>
    exact ⟨rfl, (Engine.shutdown_spec (h.open_runs hc) he).2⟩
  | reads _ _ _ => exact hphase.keep rfl rfl rfl rfl rfl (.same rfl) (fun ho => ho)
  | cancels _ _ hl =>
    have hfr := stepLane_frame hl
    exact hphase.keep hfr.2.1 hfr.1 hfr.2.2.2.2.2.1 hfr.2.2.2.2.2.2.1 hfr.2.2.1
      (Untouched.stepLane rfl hl :) (hover (fun _ _ _ => Move.noConfusion))
  | cancelReturns _ hl =>
    have hfr := stepLane_frame hl
    exact hphase.keep hfr.2.1 hfr.1 hfr.2.2.2.2.2.1 hfr.2.2.2.2.2.2.1 hfr.2.2.1
      (Untouched.stepLane rfl hl :) (hover (fun _ _ _ => Move.noConfusion))
  | @drives now e hin hd he =>
    obtain ⟨_, hcases⟩ := Engine.drive_spec he
    unfold Phase at hphase ⊢
    rcases hin with ⟨j, hin⟩ | hin
    · rw [hin] at hphase
      simp only [hin]
      obtain ⟨hc, hd₁, hj, ⟨todo, hbusy⟩ | ⟨hidle, _⟩⟩ := hphase
      · refine ⟨hc, hd₁, hj, ?_⟩
        rcases hcases with ⟨id, _, todo', hold, hnew, _⟩ | ⟨id, hold, hnew, hacts⟩ |
          ⟨_, _, hold, _⟩ | ⟨hold, _⟩
        · rw [hbusy] at hold
          cases hold
          exact Or.inl ⟨todo', hnew⟩
        · rw [hbusy] at hold
          cases hold
          refine Or.inr ⟨hnew, ?_⟩
          intro q hq
          rw [hacts] at hq
          simpa using (List.mem_filter.mp hq).2
        · rw [hbusy] at hold
          cases hold
        · rw [hbusy] at hold
          cases hold
      · exact absurd hidle hd
    · rw [hin] at hphase
      simp only [hin]
      obtain ⟨hc, ⟨todo, hbusy⟩ | ⟨hidle, _⟩⟩ := hphase
      · refine ⟨hc, ?_⟩
        rcases hcases with ⟨_, _, _, hold, _⟩ | ⟨_, hold, _⟩ | ⟨_, todo', hold, hnew, _⟩ |
          ⟨hold, hnew, hacts⟩
        · rw [hbusy] at hold
          cases hold
        · rw [hbusy] at hold
          cases hold
        · exact Or.inl ⟨todo', hnew⟩
        · exact Or.inr ⟨hnew, hacts⟩
      · exact absurd hidle hd
  | released hin hd hg =>
    unfold Phase at hphase
    rw [hin] at hphase
    exact ⟨hd, fun hcl => absurd (hphase.1.symm.trans hcl) Bool.false_ne_true⟩
  | unpublishes _ => exact hphase.keep rfl rfl rfl rfl rfl (.same rfl) (fun ho => ho)
  | drained hin _ _ _ =>
    unfold Phase at hphase
    rw [hin] at hphase
    exact ⟨hphase.1, Or.inl hphase.2⟩
  | actorsGone hin hd =>
    unfold Phase at hphase
    rw [hin] at hphase
    obtain ⟨hc, ⟨todo, hbusy⟩ | ⟨_, hacts⟩⟩ := hphase
    · rw [hd] at hbusy
      cases hbusy
    · refine ⟨hc, hd, hacts, ?_⟩
      intro k l hk
      exact Or.inr (Or.inl (Engine.mem_teardown
        (List.mem_range.mpr (List.getElem?_eq_some_iff.mp hk).1)))
  | @chores now c todo l a rest l₁ hin hl hn hst =>
    unfold Phase at hphase
    rw [hin] at hphase
    refine ⟨hphase.1, hphase.2.1, hphase.2.2.1, ?_⟩
    intro k l' hk
    have hk' : (rt.ops.set c.lane l₁)[k]? = some l' := hk
    by_cases hck : c.lane = k
    · subst hck
      rw [List.getElem?_set_self (List.getElem?_eq_some_iff.mp hl).1] at hk'
      cases hk'
      exact (opChore_spec _ hn hst).2.2 (hphase.2.2.2 _ l hl)
    · rw [List.getElem?_set_ne hck] at hk'
      exact (hphase.2.2.2 k l' hk').other hck
  | returns hin hg =>
    unfold Phase at hphase
    rw [hin] at hphase
    obtain ⟨_, hd, hacts, hjoin⟩ := hphase
    refine ⟨hd, fun _ => ?_⟩
    intro p l hl
    have hl' : rt.laneAt p = some l := hl
    cases p with
    | op k =>
      have hret : l.stopper = .returned := by
        rcases hjoin k l hl' with hr | hmem | hmem
        · exact hr
        · cases hmem
        · cases hmem
      have hidle : l.pending = .idle := by
        by_contra hne
        have hmem := h.sweeps k l hl' hne
        unfold opTodo at hmem
        rw [hin] at hmem
        cases hmem
      refine (hb _ l hl').over hret hidle ?_
      rw [h.debts _ l hl', owing_none hg]
    | actor k =>
      refine h.actor_over hd hg hl' ?_
      rw [hacts]
      simp
  | acquires _ => exact hphase.keep rfl rfl rfl rfl rfl (.same rfl) (fun ho => ho)
  | picks _ _ _ => exact hphase.keep rfl rfl rfl rfl rfl (.same rfl) (fun ho => ho)
  | enqueues _ hl _ =>
    exact hphase.keep rfl rfl rfl rfl rfl (.push hl rfl) (hover (fun _ _ _ => Move.noConfusion))
  | leaves _ => exact hphase.keep rfl rfl rfl rfl rfl (.same rfl) (fun ho => ho)
  | works hw hl =>
    have hfr := stepLane_frame hl
    exact hphase.keep hfr.2.1 hfr.1 hfr.2.2.2.2.2.1 hfr.2.2.2.2.2.2.1 hfr.2.2.1
      (.stepLane (works_free hw) hl) (hover (fun _ _ _ => Move.noConfusion))

/-- **Every move keeps the invariant.** -/
theorem Guarded.step (h : rt.Guarded) (hs : Step rt m rt') : rt'.Guarded where
  sound := h.sound.step hs
  tended := hs.tended h
  debts := h.debts.step h.sound.consistent hs
  running := hs.running h.running
  owner := fun _ hm => h.owner_step hs hm
  sweeps := h.sweeps_step hs
  phase := h.phase_step hs
  released := fun _ hm hr _ hl => h.released_step hs hm hr hl

theorem guarded_reach (h : Reach step (create cfg) rt) : Guarded rt :=
  h.inv (fun _ _ _ hi hs => hi.step (step_sound hs)) (guarded_create cfg)

/-! ## the futures -/

theorem Sound.resolved (h : Sound rt) {f : RuntimeFuture} (hf : f ∈ rt.futures)
    (ho : ∀ l, rt.laneAt f.place = some l → l.Over) : ∃ r, rt.promise f.key = [r] := by
  obtain ⟨l, it, hl, hi, _⟩ := h.stands f hf
  obtain ⟨r, hr⟩ := (ho l hl).2 f.id (List.getElem?_eq_some_iff.mp hi).1
  refine ⟨r, ?_⟩
  unfold promise
  rw [show rt.laneAt f.key.1 = some l from hl]
  exact hr

/-- the promise is set: `result()` does not wait -/
theorem result_returns {i : Nat} {f : RuntimeFuture} (hf : rt.futures[i]? = some f)
    (h : ∃ r, rt.promise f.key = [r]) (recvNs : Int) : (rt.result i recvNs).isSome = true := by
  obtain ⟨r, hr⟩ := h
  unfold result
  rw [hf, Option.bind_some, hr]
  unfold RuntimeFuture.result
  split <;> rfl

/-- **Release and shutdown resolve every future.**  Once `release_actor()` has returned, every future
of that actor is resolved; once `shutdown()` has returned, every future is, no `result()` waits, and
no lane has anything queued or in service. -/
theorem shutdown_resolves (h : Reach step (create cfg) rt) :
    (∀ hd ∈ rt.handles, hd.released = true → ∀ f ∈ rt.futures, f.place = .actor hd.lane →
      ∃ r, rt.promise f.key = [r]) ∧
    (rt.closed = true → rt.inPython = true →
      (∀ f ∈ rt.futures, ∃ r, rt.promise f.key = [r]) ∧
      (∀ (i : Nat) f, rt.futures[i]? = some f → ∀ recvNs, (rt.result i recvNs).isSome = true) ∧
      ∀ p l, rt.laneAt p = some l → l.queue = [] ∧ l.inflight = 0 ∧ ∀ i, l.svc i = none) := by
  have hg := guarded_reach h
  refine ⟨?_, ?_⟩
  · intro hd hm hr f hf hp
    apply hg.sound.resolved hf
    rw [hp]
    exact hg.released hd hm hr
  · intro hc hin
    have hover : rt.AllOver := by
      have hphase := hg.phase
      unfold Phase at hphase
      unfold inPython at hin
      split at hin
      · rename_i hpy
        rw [hpy] at hphase
        exact hphase.2 hc
      · cases hin
    have hres : ∀ f ∈ rt.futures, ∃ r, rt.promise f.key = [r] :=
      fun f hf => hg.sound.resolved hf (hover f.place)
    refine ⟨hres, ?_, ?_⟩
    · intro i f hf recvNs
      exact result_returns hf (hres f (List.mem_of_getElem? hf)) recvNs
    · intro p l hl
      obtain ⟨hq, hin, _, hsvc⟩ := (hg.sound.born p l hl).wf.returned (hover p l hl).1
      exact ⟨hq, hin, hsvc⟩

/-- one serial operation lane without a cap -/
def serialConfig : RuntimeConfig where
  numLanes := 1
  one_lane := Nat.zero_lt_one
  maxQd := -1
  ids := fun _ => "rt-hpx-0"

/-- `shutdown()` with a call queued on an actor and an operation queued on a lane -/
def shutdownMoves : List Move :=
  [.createActor "rt-act-0" (.str "counter") [.int 5], .call 0 (.str "add") [.int 3] 0,
    .submitOperation (.str "square") [.int 4] 0, .shutdown, .drive 1, .drive 1,
    -- the lane of the actor
    .drive 2, .drive 3, .drive 4, .drive 5, .drive 6, .lane (.actor 0) .pop,
    .lane (.actor 0) .beginService, .lane (.actor 0) .clearTok, .lane (.actor 0) .clearActive,
    .lane (.actor 0) .exit, .drive 7, .drive 8, .drive 9,
    -- the operation lane
    .drive 10, .drive 11, .drive 12, .drive 13, .drive 14, .lane (.op 0) .pop,
    .lane (.op 0) .beginService, .lane (.op 0) .clearTok, .lane (.op 0) .clearActive,
    .lane (.op 0) .exit, .drive 15, .drive 16]

theorem shutdownMoves_return : ∃ rt, run step (create serialConfig) shutdownMoves = some rt ∧
    rt.closed = true ∧ rt.inPython = true ∧ rt.futures.length = 2 :=
  ⟨_, rfl, rfl, rfl, rfl⟩

/-- both futures are resolved -/
theorem shutdown_resolves_two : ∃ rt, Reach step (create serialConfig) rt ∧ rt.closed = true ∧
    rt.futures.length = 2 ∧ ∀ f ∈ rt.futures, ∃ r, rt.promise f.key = [r] := by
  obtain ⟨rt, hrun, hc, hin, hlen⟩ := shutdownMoves_return
  have h : Reach step (create serialConfig) rt := ⟨shutdownMoves, hrun⟩
  exact ⟨rt, h, hc, hlen, ((shutdown_resolves h).2 hc hin).1⟩

end Runtime
end Facade
end RayX
