import RayX.Facade.Contract
import RayX.Lane.Cap
import RayX.Lib.Settle
import Mathlib.Tactic.Abel

/-!
# The work of a lane

What the worker of a lane and the bodies in service have still to do.

* `Lane.work`         the pieces of work, each with the rank of its body and a stage;
* `works_less`        **every step of the worker or of a body does some of it**;
* `Lane.Quiet`        the worker waits for an item or is gone, and nothing is in service;
* `Born.goes_on`      a lane that is not quiet has a step to make;
* `Born.quiet_pays`   the promises of a quiet lane are set, unless a canceller still owes one.
-/

namespace RayX
open Sys

/-- the rank of a body, then the stage -/
abbrev Piece : Type 1 := Ordinal.{0} ×ₗ Nat

noncomputable def piece (t : Prog ActorState Exc RuntimeResult) (stage : Nat) : Piece :=
  toLex (t.rank, stage)

/-- a piece that has no body left -/
noncomputable def rest (stage : Nat) : Piece := toLex (0, stage)

theorem rest_lt_rest {m n : Nat} (h : m < n) : rest m < rest n :=
  Prod.Lex.toLex_lt_toLex.mpr (Or.inr ⟨rfl, h⟩)

theorem piece_lt_piece {t : Prog ActorState Exc RuntimeResult} {m n : Nat} (h : m < n) :
    piece t m < piece t n := Prod.Lex.toLex_lt_toLex.mpr (Or.inr ⟨rfl, h⟩)

theorem rest_lt_piece {t : Prog ActorState Exc RuntimeResult} {m n : Nat} (h : m < n) :
    rest m < piece t n := by
  refine Prod.Lex.toLex_lt_toLex.mpr ?_
  rcases eq_or_lt_of_le (zero_le (a := t.rank)) with h0 | h0
  · exact Or.inr ⟨h0, h⟩
  · exact Or.inl h0

theorem piece_lt_of_rank {t t' : Prog ActorState Exc RuntimeResult} {n : Nat}
    (h : t'.rank < t.rank) : piece t' n < piece t n := Prod.Lex.toLex_lt_toLex.mpr (Or.inl h)

theorem lt_of_single {w y z : Piece} (h : y ∈ ({w} : Multiset Piece)) (hw : w < z) : y < z := by
  rw [Multiset.mem_singleton.mp h]
  exact hw

noncomputable def Consumer.work : Consumer ActorState → Multiset Piece
  | .popped it => {piece it.task 9}
  | .began it => {piece it.task 8}
  | .registered it => {piece it.task 7}
  | .serving _ => {rest 4}
  | .clearing => {rest 3}
  | .cleared => {rest 2}
  | .waiting => {rest 1}
  | .exited => 0

noncomputable def Svc.work : Option (Svc ActorState) → Multiset Piece
  | some (.body t) => {piece t 4}
  | some (.outcome _) => {rest 3}
  | some (.settled _) => {rest 2}
  | some .fulfilled => {rest 1}
  | none => 0

namespace Lane
variable {l l' : Lane ActorState} {a : Act ActorState}

noncomputable def work (l : Lane ActorState) : Multiset Piece :=
  (l.queue.map fun it => ({piece it.task 10} : Multiset Piece)).sum + l.consumer.work +
    ∑ i ∈ Finset.range l.admitted.length, Svc.work (l.svc i)

theorem afterItem_work (l : Lane ActorState) : ∀ y ∈ l.afterItem.work, y < rest 4 := by
  intro y hy
  rcases afterItem_cases l with h | h
  · rw [h] at hy
    rw [Multiset.mem_singleton.mp hy]
    exact rest_lt_rest (by omega)
  · rw [h] at hy
    rw [Multiset.mem_singleton.mp hy]
    exact rest_lt_rest (by omega)

/-- the consumer goes on -/
theorem work_consumer {z : Piece} (hq : l'.queue = l.queue) (ha : l'.admitted = l.admitted)
    (hv : l'.svc = l.svc) (hz : l.consumer.work = {z}) (hy : ∀ y ∈ l'.consumer.work, y < z) :
    Work.Less l'.work l.work := by
  refine ⟨_, l'.consumer.work, {z}, Multiset.singleton_ne_zero z, add_right_comm _ _ _, ?_,
    fun y hmem => ⟨z, Multiset.mem_singleton_self z, hy y hmem⟩⟩
  rw [hq, ha, hv, ← hz]
  exact add_right_comm _ _ _

/-- the service of item `i` goes on -/
theorem work_svc {i : Nat} {v : Option (Svc ActorState)} {z : Piece} (hq : l'.queue = l.queue)
    (ha : l'.admitted = l.admitted) (hc : l'.consumer = l.consumer)
    (hv : l'.svc = Function.update l.svc i v) (hi : i < l.admitted.length)
    (hz : Svc.work (l.svc i) = {z}) (hy : ∀ y ∈ Svc.work v, y < z) : Work.Less l'.work l.work := by
  obtain ⟨X, hold, hnew⟩ := Work.split Svc.work l.svc hi
  have hw : l.work = ((l.queue.map fun it => ({piece it.task 10} : Multiset Piece)).sum +
      l.consumer.work + X) + {z} := by
    rw [work, hold, hz, add_assoc _ X]
  have hw' : l'.work = ((l.queue.map fun it => ({piece it.task 10} : Multiset Piece)).sum +
      l.consumer.work + X) + Svc.work v := by
    rw [work, hq, ha, hc, hv, hnew v, add_assoc _ X]
  rw [hw, hw']
  exact Work.replace _ hy

/-- the consumer puts its item into service -/
theorem work_starts {i : Nat} {v : Svc ActorState} {z : Piece} (hq : l'.queue = l.queue)
    (ha : l'.admitted = l.admitted) (hv : l'.svc = Function.update l.svc i (some v))
    (hi : i < l.admitted.length) (hn : l.svc i = none) (hz : l.consumer.work = {z})
    (hc : ∀ y ∈ l'.consumer.work, y < z) (hy : ∀ y ∈ Svc.work (some v), y < z) :
    Work.Less l'.work l.work := by
  obtain ⟨X, hold, hnew⟩ := Work.split Svc.work l.svc hi
  have hw : l.work = ((l.queue.map fun it => ({piece it.task 10} : Multiset Piece)).sum + X) +
      {z} := by
    rw [work, hold, hz, hn, Svc.work, add_zero, add_right_comm]
  have hw' : l'.work = ((l.queue.map fun it => ({piece it.task 10} : Multiset Piece)).sum + X) +
      (l'.consumer.work + Svc.work (some v)) := by
    rw [work, hq, ha, hv, hnew (some v)]
    abel
  rw [hw, hw']
  refine Work.replace _ ?_
  intro y hmem
  rcases Multiset.mem_add.mp hmem with hmem | hmem
  · exact hc y hmem
  · exact hy y hmem

/-- the consumer is done with the item that it serves -/
theorem work_ends {i : Nat} {z : Piece} (hq : l'.queue = l.queue) (ha : l'.admitted = l.admitted)
    (hv : l'.svc = Function.update l.svc i none) (hi : i < l.admitted.length)
    (hz : Svc.work (l.svc i) = {z}) (hc : l.consumer.work = {rest 4})
    (hy : ∀ y ∈ l'.consumer.work, y < rest 4) : Work.Less l'.work l.work := by
  obtain ⟨X, hold, hnew⟩ := Work.split Svc.work l.svc hi
  refine ⟨(l.queue.map fun it => ({piece it.task 10} : Multiset Piece)).sum + X, l'.consumer.work,
    {rest 4} + {z}, ?_, ?_, ?_, ?_⟩
  · exact Work.two _ _
  · rw [work, hq, ha, hv, hnew none, Svc.work, add_zero, add_right_comm]
  · rw [work, hold, hz, hc]
    abel
  · exact fun y hmem => ⟨rest 4, Multiset.mem_add.mpr (Or.inl (Multiset.mem_singleton_self _)),
      hy y hmem⟩

/-- the consumer takes the next item -/
theorem work_pops {it : Item ActorState} {queue : List (Item ActorState)}
    (hq : l.queue = it :: queue) (hq' : l'.queue = queue) (ha : l'.admitted = l.admitted)
    (hv : l'.svc = l.svc) (hc : l.consumer = .waiting) (hc' : l'.consumer = .popped it) :
    Work.Less l'.work l.work := by
  refine ⟨(queue.map fun it => ({piece it.task 10} : Multiset Piece)).sum +
    ∑ i ∈ Finset.range l.admitted.length, Svc.work (l.svc i), {piece it.task 9},
    {piece it.task 10} + {rest 1}, ?_, ?_, ?_, ?_⟩
  · exact Work.two _ _
  · rw [work, hq', ha, hv, hc', Consumer.work, add_right_comm]
  · rw [work, hq, hc, Consumer.work, List.map_cons, List.sum_cons]
    abel
  · intro y hy
    rw [Multiset.mem_singleton.mp hy]
    exact ⟨_, Multiset.mem_add.mpr (Or.inl (Multiset.mem_singleton_self _)),
      piece_lt_piece (by omega)⟩

/-- **Every step of the worker or of a body does some of the work.** -/
theorem works_less (h : Wf l) (hw : Facade.works a = true) (hs : l.step a = some l') :
    Work.Less l'.work l.work := by
  have hlt : ∀ {i v}, l.svc i = some v → i < l.admitted.length := by
    intro i v hv
    exact h.svc_lt (by rw [hv]; exact Option.some_ne_none v)
  cases step_sound hs with
  | pop hc hq hp => exact work_pops hq rfl rfl rfl hc rfl
  | exit hc hq hst =>
    refine work_consumer (z := rest 1) rfl rfl rfl (by rw [hc]; rfl) ?_
    intro y hy
    exact absurd hy (Multiset.notMem_zero y)
  | @begins it hc hb =>
    refine work_consumer (z := piece it.task 9) rfl rfl rfl (by rw [hc]; rfl) ?_
    exact fun y hy => lt_of_single hy (piece_lt_piece (by omega))
  | @skips it hc hb =>
    refine work_consumer (z := piece it.task 9) rfl rfl rfl (by rw [hc]; rfl) ?_
    exact fun y hy => (afterItem_work l y hy).trans (rest_lt_piece (by omega))
  | @starts it hc hh =>
    have hit : l.consumer.item? = some it := by
      rw [hc]
      rfl
    refine work_starts (z := piece it.task 8) rfl rfl rfl (h.held_lt hit)
      (h.notHere it hit (by rw [hc]; rfl)) (by rw [hc]; rfl) ?_ ?_
    · exact fun y hy => lt_of_single hy (rest_lt_piece (by omega))
    · exact fun y hy => lt_of_single hy (piece_lt_piece (by omega))
  | @registers it hc hh =>
    refine work_consumer (z := piece it.task 8) rfl rfl rfl (by rw [hc]; rfl) ?_
    exact fun y hy => lt_of_single hy (piece_lt_piece (by omega))
  | @launch it hc =>
    have hit : l.consumer.item? = some it := by
      rw [hc]
      rfl
    refine work_starts (z := piece it.task 7) rfl rfl rfl (h.held_lt hit)
      (h.notHere it hit (by rw [hc]; rfl)) (by rw [hc]; rfl) ?_ ?_
    · exact fun y hy => lt_of_single hy (rest_lt_piece (by omega))
    · exact fun y hy => lt_of_single hy (piece_lt_piece (by omega))
  | @ends i now t r hv hr =>
    refine work_svc (z := piece t 4) rfl rfl rfl rfl (hlt hv) (by rw [hv]; rfl) ?_
    exact fun y hy => lt_of_single hy (rest_lt_piece (by omega))
  | @effect i now t t' st tk hv hr ht =>
    refine work_svc (z := piece t 4) rfl rfl rfl rfl (hlt hv) (by rw [hv]; rfl) ?_
    exact fun y hy => lt_of_single hy (piece_lt_of_rank (Prog.rank_step ht))
  | @markFinished i r hv =>
    refine work_svc (z := rest 3) rfl rfl rfl rfl (hlt hv) (by rw [hv]; rfl) ?_
    exact fun y hy => lt_of_single hy (rest_lt_rest (by omega))
  | @setHere i r hv hc =>
    refine work_ends (z := rest 2) rfl rfl rfl (hlt hv) (by rw [hv]; rfl) ?_ (afterItem_work l)
    cases hcons : l.consumer with
    | serving it => rfl
    | _ =>
      rw [hcons] at hc
      cases hc
  | @setThere i r hv hc =>
    refine work_svc (z := rest 2) rfl rfl rfl rfl (hlt hv) (by rw [hv]; rfl) ?_
    exact fun y hy => lt_of_single hy (rest_lt_rest (by omega))
  | @release i hv =>
    refine work_svc (z := rest 1) rfl rfl rfl rfl (hlt hv) (by rw [hv]; rfl) ?_
    intro y hy
    exact absurd hy (Multiset.notMem_zero y)
  | clearTok hc =>
    refine work_consumer (z := rest 3) rfl rfl rfl (by rw [hc]; rfl) ?_
    exact fun y hy => lt_of_single hy (rest_lt_rest (by omega))
  | clearActive hc =>
    refine work_consumer (z := rest 2) rfl rfl rfl (by rw [hc]; rfl) ?_
    exact fun y hy => lt_of_single hy (rest_lt_rest (by omega))
  | _ => cases hw

/-! ## lanes that rest -/

/-- the worker waits for an item or is gone, and nothing is in service -/
def Quiet (l : Lane ActorState) : Prop :=
  (∀ i, l.svc i = none) ∧
    ((l.consumer = .waiting ∧ l.queue = [] ∧ l.stop = false) ∨ l.consumer = .exited)

/-- the lane has a step to make that is no call and no chore -/
def GoesOn (l : Lane ActorState) : Prop :=
  ∃ a l', Facade.works a = true ∧ l.step a = some l'

/-- a body in service, or what comes after it, can always go on -/
theorem serves_on {i : Nat} {v : Svc ActorState} (hv : l.svc i = some v) : l.GoesOn := by
  cases v with
  | body t =>
    have hstep : ∃ l', l.step (.serve i 0) = some l' := by
      simp only [step, hv]
      cases t <;> exact ⟨_, rfl⟩
    obtain ⟨l', hs⟩ := hstep
    exact ⟨.serve i 0, l', rfl, hs⟩
  | outcome r => exact ⟨.markFinished i, _, rfl, by simp only [step, hv]; rfl⟩
  | settled r =>
    have hstep : ∃ l', l.step (.setValue i) = some l' := by
      simp only [step, hv]
      split
      · exact ⟨_, rfl⟩
      · exact ⟨_, rfl⟩
    obtain ⟨l', hs⟩ := hstep
    exact ⟨.setValue i, l', rfl, hs⟩
  | fulfilled => exact ⟨.release i, _, rfl, by simp only [step, hv]; rfl⟩

/-- the cap on the slots is at least one -/
theorem Born.slots (h : l.Born) : 1 ≤ l.maxInflight := by
  obtain ⟨mode, n, st, hr⟩ := h
  refine hr.inv (P := fun s => 1 ≤ s.maxInflight) ?_ ?_
  · intro s a s' hs ha
    rw [step_maxInflight (step_sound ha)]
    exact hs
  · show 1 ≤ if n < 1 then 1 else n
    split <;> omega

/-- no slot is taken when nothing is in service or on its way there -/
theorem Born.idle_slots (h : l.Born) (hv : ∀ i, l.svc i = none)
    (hc : l.consumer = .waiting ∨ l.consumer = .exited) : l.inflight = 0 := by
  have hnil : l.inflightToks = [] := by
    rw [List.eq_nil_iff_forall_not_mem]
    intro i hi
    rcases (h.wf.toks i).mp hi with hreg | ⟨hne, _⟩
    · rcases hc with hc | hc
      · rw [hc] at hreg
        cases hreg
      · rw [hc] at hreg
        cases hreg
    · exact hne (hv i)
  rw [h.wf.count, hnil]
  rfl

/-- **A lane that does not rest has a step to make.** -/
theorem Born.goes_on (h : l.Born) : l.Quiet ∨ l.GoesOn := by
  have hw := h.wf
  by_cases hsvc : ∃ i, l.svc i ≠ none
  · obtain ⟨i, hi⟩ := hsvc
    obtain ⟨v, hv⟩ := Option.ne_none_iff_exists'.mp hi
    exact Or.inr (serves_on hv)
  · have hnone : ∀ i, l.svc i = none := fun i => not_not.mp fun hi => hsvc ⟨i, hi⟩
    cases hc : l.consumer with
    | waiting =>
      cases hq : l.queue with
      | nil =>
        cases hs : l.stop with
        | false => exact Or.inl ⟨hnone, Or.inl ⟨hc, hq, hs⟩⟩
        | true => exact Or.inr ⟨.exit, _, rfl, by simp only [Lane.step, hc, hq, hs]; rfl⟩
      | cons it queue =>
        have hfree : l.inflight = 0 := h.idle_slots hnone (Or.inl hc)
        have hpop : l.mayPop = true := by
          unfold mayPop
          cases l.mode with
          | serialBlocking => rfl
          | asyncNonBlocking =>
            have hslots := h.slots
            have hlt : l.inflight < l.maxInflight := by omega
            show (l.stop || decide (l.inflight < l.maxInflight)) = true
            rw [decide_eq_true hlt, Bool.or_true]
        exact Or.inr ⟨.pop, _, rfl, by simp only [Lane.step, hc, hq, hpop]; rfl⟩
    | popped it =>
      have hstep : ∃ l', l.step .beginService = some l' := by
        simp only [Lane.step, hc]
        split
        · exact ⟨_, rfl⟩
        · exact ⟨_, rfl⟩
      obtain ⟨l', hs⟩ := hstep
      exact Or.inr ⟨.beginService, l', rfl, hs⟩
    | began it =>
      have hstep : ∃ l', l.step .dispatch = some l' := by
        simp only [Lane.step, hc]
        split
        · exact ⟨_, rfl⟩
        · exact ⟨_, rfl⟩
      obtain ⟨l', hs⟩ := hstep
      exact Or.inr ⟨.dispatch, l', rfl, hs⟩
    | registered it => exact Or.inr ⟨.launch, _, rfl, by simp only [Lane.step, hc]; rfl⟩
    | serving it =>
      have hhere := (hw.here it.id (by rw [hc]; exact beq_self_eq_true _)).1
      exact absurd (hnone it.id) hhere
    | clearing => exact Or.inr ⟨.clearTok, _, rfl, by simp only [Lane.step, hc]; rfl⟩
    | cleared => exact Or.inr ⟨.clearActive, _, rfl, by simp only [Lane.step, hc]; rfl⟩
    | exited => exact Or.inl ⟨hnone, Or.inr hc⟩

/-- **The promises of a quiet lane are set**, when nobody owes one. -/
theorem Born.quiet_pays (h : l.Born) (hq : l.Quiet) (hp : l.pending = .idle)
    (hc : l.cancelling = []) {i : Nat} (hi : i < l.admitted.length) : ∃ r, l.prom i = [r] := by
  obtain ⟨hsvc, hcons⟩ := hq
  have hempty : l.queue = [] := by
    rcases hcons with ⟨_, hq, _⟩ | hex
    · exact hq
    · exact (h.wf.exited hex).2
  have hloc : (view i l).loc = .retired := by
    show l.loc i = .retired
    rw [loc_idle (by rw [hempty]; exact hi) (hsvc i)]
    rcases hcons with ⟨hw, _⟩ | hex
    · rw [hw]
      rfl
    · rw [hex]
      rfl
  have hpaid : (l.prom i).length + l.owed i = 1 := ((h.once i).done (by rw [hloc]; rfl)).2
  have howed : l.owed i = 0 := by
    rw [owed, hc, hp]
    rfl
  rw [howed, Nat.add_zero] at hpaid
  exact List.length_eq_one_iff.mp hpaid

end Lane
end RayX
