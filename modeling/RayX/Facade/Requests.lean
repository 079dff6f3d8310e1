import RayX.Facade.Refusals
import Mathlib.Algebra.BigOperators.Group.List.Basic

/-!
# The requests of the bridge

A request holds the slot from its acquire to the end of its `fut.get()`, and `shutdown()` waits for the
requests that do before it stops a lane.

* `Live`            the operation lanes take items: the Runtime is open, or it waits for the bridge;
* `Bridged`         the slot counts the requests, which are there in a live Runtime only, each with its
                    lane;
* `Bridged.step`    **every move keeps it**;
* `toil`            the steps that the requests have still to make.
-/

namespace RayX
open Sys
namespace Facade
namespace Runtime
variable {cfg : RuntimeConfig} {rt rt' : Runtime} {m : Move} {p : Place} {l : Lane ActorState}

def Live (rt : Runtime) : Prop := rt.closed = false ∨ rt.inside = .draining

theorem Live.congr (h : rt.Live) (hc : rt'.closed = rt.closed) (hin : rt'.inside = rt.inside) :
    rt'.Live := by
  unfold Live
  rw [hc, hin]
  exact h

/-- the driver does no chores on the operation lanes of a live Runtime -/
theorem Live.todo (h : rt.Live) (hp : rt.Phase) : rt.opTodo = [] := by
  refine opTodo_nil fun todo hin => ?_
  rcases h with hc | hd
  · have hclosed := hp.closed hin Inside.noConfusion fun _ => Inside.noConfusion
    exact absurd (hclosed.symm.trans hc) Bool.true_eq_false.mp
  · rw [hin] at hd
    cases hd

/-- the lane that the request has picked is there, and so is the item that it waits for -/
def placed (rt : Runtime) : Request → Prop
  | .acquired _ _ => True
  | .picked k _ _ => k < rt.ops.length
  | .waiting k i => ∃ l, rt.ops[k]? = some l ∧ i < l.admitted.length

theorem Step.placed (h : Step rt m rt') {c : Request} (hc : rt.placed c) : rt'.placed c := by
  have hstays : ∀ (k : Nat) l, rt.ops[k]? = some l → ∀ i, i < l.admitted.length →
      ∃ l', rt'.ops[k]? = some l' ∧ i < l'.admitted.length := by
    intro k l hl i hi
    obtain ⟨l', hl', rfl | ⟨a, hs⟩⟩ := h.evolves (.op k) l hl
    · exact ⟨l', hl', hi⟩
    · have hitem := Lane.step_admitted hs (List.getElem?_eq_getElem hi)
      exact ⟨l', hl', (List.getElem?_eq_some_iff.mp hitem).1⟩
  cases c with
  | acquired opId a => trivial
  | picked k e a =>
    obtain ⟨l', hl', _⟩ := h.evolves (.op k) rt.ops[k] (List.getElem?_eq_getElem hc)
    exact (List.getElem?_eq_some_iff.mp hl').1
  | waiting k i =>
    obtain ⟨l, hl, hi⟩ := hc
    exact hstays k l hl i hi

structure Bridged (rt : Runtime) : Prop where
  count : rt.slot.inFlight = rt.requests.length
  live : rt.slot.bridge.isSome = true ∨ rt.requests ≠ [] → rt.Live
  placed : ∀ c ∈ rt.requests, rt.placed c

theorem bridged_create (cfg : RuntimeConfig) : Bridged (create cfg) where
  count := rfl
  live := fun _ => Or.inl rfl
  placed := fun _ h => absurd h List.not_mem_nil

/-- one request has gone on -/
theorem Bridged.set {i : Nat} {c c' : Request} (h : Bridged rt) (hi : rt.requests[i]? = some c)
    (hs : Step rt m rt') (hslot : rt'.slot = rt.slot) (hreq : rt'.requests = rt.requests.set i c')
    (hc : rt'.closed = rt.closed) (hin : rt'.inside = rt.inside) (hplaced : rt'.placed c') :
    Bridged rt' where
  count := by
    rw [hslot, hreq, List.length_set]
    exact h.count
  live := fun _ => (h.live (Or.inr (List.ne_nil_of_mem (List.mem_of_getElem? hi)))).congr hc hin
  placed := by
    intro d hd
    rw [hreq] at hd
    rcases List.mem_or_eq_of_mem_set hd with hd | rfl
    · exact hs.placed (h.placed d hd)
    · exact hplaced

/-- **Every move keeps the invariant.** -/
theorem Bridged.step (h : Bridged rt) (hv : rt.Served) (hs : Step rt m rt') : Bridged rt' := by
  have hmove := hs
  have hkeep : rt'.slot = rt.slot → rt'.requests = rt.requests → (rt.Live → rt'.Live) →
      Bridged rt' := by
    intro hslot hreq hlive
    refine { count := ?_, live := ?_, placed := ?_ }
    · rw [hslot, hreq]
      exact h.count
    · rw [hslot, hreq]
      exact fun hl => hlive (h.live hl)
    · rw [hreq]
      exact fun c hc => hmove.placed (h.placed c hc)
  have hlane : ∀ {q a s}, rt.stepLane q a = some s → s.slot = rt.slot ∧ s.requests = rt.requests ∧
      (rt.Live → s.Live) := by
    intro q a s hl
    have hf := stepLane_frame hl
    exact ⟨hf.2.2.2.1.1, hf.2.2.2.1.2, fun ho => ho.congr hf.1 hf.2.1⟩
  -- past the drain the Runtime is closed, and no longer live
  have hpast : ∀ {i : Inside}, rt.inside = i → i ≠ .python → i ≠ .draining →
      (∀ j, i ≠ .releasing j) → ¬ rt.Live := by
    intro i hin hpy hdr hrel hlive
    have hclosed := hv.guarded.phase.closed hin hpy hrel
    rcases hlive with hc | hd
    · exact absurd (hclosed.symm.trans hc) Bool.true_eq_false.mp
    · exact hdr (hin.symm.trans hd)
  cases hs with
  | releases _ hc _ _ _ _ => exact hkeep rfl rfl fun _ => Or.inl hc
  | shuts _ _ _ => exact hkeep rfl rfl fun _ => Or.inr rfl
  | cancels _ _ hl | cancelReturns _ hl =>
    obtain ⟨hslot, hreq, hlive⟩ := hlane hl
    exact hkeep hslot hreq hlive
  | works _ hl =>
    obtain ⟨hslot, hreq, hlive⟩ := hlane hl
    exact hkeep hslot hreq hlive
  | released hin _ _ =>
    refine hkeep rfl rfl fun ho => ?_
    rcases ho with hc | hd
    · exact Or.inl hc
    · rw [hin] at hd
      cases hd
  | unpublishes hin =>
    exact { count := h.count, live := fun _ => Or.inr hin, placed := h.placed }
  | drained hin hb hf _ =>
    have hnil : rt.requests = [] := List.length_eq_zero_iff.mp (h.count.symm.trans hf)
    refine { count := h.count, live := ?_, placed := h.placed }
    rintro (hsome | hne)
    · rw [show ({ rt with inside := Inside.stoppingActors } : Runtime).slot.bridge = none from hb] at hsome
      cases hsome
    · exact absurd hnil hne
  | actorsGone hin _ =>
    exact hkeep rfl rfl fun ho =>
      absurd ho (hpast hin Inside.noConfusion Inside.noConfusion fun _ => Inside.noConfusion)
  | chores hin _ _ _ =>
    exact hkeep rfl rfl fun ho =>
      absurd ho (hpast hin Inside.noConfusion Inside.noConfusion fun _ => Inside.noConfusion)
  | returns hin _ =>
    exact hkeep rfl rfl fun ho =>
      absurd ho (hpast hin Inside.noConfusion Inside.noConfusion fun _ => Inside.noConfusion)
  | @acquires opId a r slot ha =>
    obtain ⟨hsome, rfl⟩ := Slot.acquire_ok ha
    refine { count := ?_, live := fun _ => h.live (Or.inl (by rw [hsome]; rfl)), placed := ?_ }
    · show rt.slot.inFlight + 1 = (rt.requests ++ [_]).length
      rw [h.count, List.length_append]
      rfl
    · intro c hc
      rcases List.mem_append.mp hc with hc | hc
      · exact h.placed c hc
      · rw [List.mem_singleton.mp hc]
        trivial
  | picks hi _ _ => exact h.set hi hmove rfl rfl rfl rfl (Nat.mod_lt _ hv.lanes)
  | @enqueues i k e a l hi hl _ =>
    refine h.set hi hmove rfl rfl rfl rfl ?_
    refine ⟨pushOp l e a, List.getElem?_set_self (List.getElem?_eq_some_iff.mp hl).1, ?_⟩
    rw [pushOp_length]
    exact Nat.lt_succ_self _
  | @leaves i c hi =>
    have hlt := (List.getElem?_eq_some_iff.mp hi).1
    refine { count := ?_, live := ?_, placed := ?_ }
    · show rt.slot.release.inFlight = (rt.requests.eraseIdx i).length
      rw [List.length_eraseIdx_of_lt hlt, ← h.count]
      exact Slot.release_inFlight rt.slot
    · exact fun _ => h.live (Or.inr (List.ne_nil_of_mem (List.mem_of_getElem? hi)))
    · exact fun d hd => h.placed d (List.mem_of_mem_eraseIdx hd)
  | _ => exact hkeep rfl rfl fun ho => ho

/-! ## what they have still to do -/

end Runtime

def Request.steps : Request → Nat
  | .acquired _ _ => 3
  | .picked _ _ _ => 2
  | .waiting _ _ => 1

namespace Runtime
variable {rt rt' : Runtime} {i : Nat} {c c' : Request}

def toil (rt : Runtime) : Nat := (rt.requests.map Request.steps).sum

theorem toil_split (hi : rt.requests[i]? = some c) :
    c.steps + ((rt.requests.eraseIdx i).map Request.steps).sum = rt.toil := by
  obtain ⟨hlt, rfl⟩ := List.getElem?_eq_some_iff.mp hi
  have hlt' : i < (rt.requests.map Request.steps).length := by
    rw [List.length_map]
    exact hlt
  have hsum := List.CommMonoid.add_sum_eraseIdx hlt'
  rw [List.getElem_map, List.eraseIdx_map] at hsum
  exact hsum

theorem toil_leave (hi : rt.requests[i]? = some c) : (rt.leave i).toil < rt.toil := by
  have hsplit := toil_split hi
  have hpos : 0 < c.steps := by cases c <;> exact Nat.succ_pos _
  show ((rt.requests.eraseIdx i).map Request.steps).sum < rt.toil
  omega

theorem toil_set (hi : rt.requests[i]? = some c) (hreq : rt'.requests = rt.requests.set i c')
    (h : c'.steps < c.steps) : rt'.toil < rt.toil := by
  have hsplit := toil_split hi
  have hlt : i < rt.requests.length := (List.getElem?_eq_some_iff.mp hi).1
  have hi' : rt'.requests[i]? = some c' := by
    rw [hreq]
    exact List.getElem?_set_self hlt
  have hsplit' := toil_split hi'
  rw [hreq, List.eraseIdx_set_eq] at hsplit'
  omega

end Runtime
end Facade
end RayX
