import RayX.Lane.CancelPending

/-!
# The concurrency cap of an `AsyncNonBlocking` lane

The consumer waits for a free slot, but not once the lane stops.  The cap holds in the drain all the
same, because the engine cancels what is queued before it stops the lane.

* `Teardown`, `Driven`   the lane as the engine drives it: clients, then `cancel_pending`, then
                         `stop_and_join`;
* `Lane.dispatched`      the bodies that are dispatched and not retired; `Wf.slots` counts them;
* `Capped`               the invariant: a slot is free while the consumer holds an item that it may
                         still begin, and a queued item is to be cancelled or cancelled;
* `Capped.step`          every step keeps it;
* `nonblocking_cap`      **the bodies in flight never exceed the cap.**
-/

namespace RayX
open Sys

section
variable {σ : Type}

/-! ## the driven lane -/

/-- what the engine has done with the lane: nothing, `cancel_pending` is running, it has returned,
`stop_and_join` has begun -/
inductive Teardown where
  | live
  | cancelling
  | cancelled
  | stopping
  deriving DecidableEq, Repr

/-- a call of the engine on the lane, or the return from one -/
def Act.ofEngine : Act σ → Bool
  | .submit .. => true
  | .trySubmit .. => true
  | .collect => true
  | .cpReturn => true
  | .stopBegin => true
  | _ => false

/-- submissions before the shutdown only, which calls `cancel_pending()` and then `stop_and_join()`;
everything else happens at any time -/
def Teardown.next : Teardown → Act σ → Option Teardown
  | .live, .submit .. => some .live
  | .live, .trySubmit .. => some .live
  | .live, .collect => some .cancelling
  | .cancelling, .cpReturn => some .cancelled
  | .cancelled, .stopBegin => some .stopping
  | t, a => if a.ofEngine then none else some t

structure Driven (σ : Type) where
  teardown : Teardown
  lane : Lane σ

namespace Driven

def start (actorId : String) (maxInflight : Int) (st : σ) : Driven σ :=
  { teardown := .live, lane := Lane.create actorId .asyncNonBlocking maxInflight st }

def step (d : Driven σ) (a : Act σ) : Option (Driven σ) :=
  (d.teardown.next a).bind fun t => (d.lane.step a).map fun l => { teardown := t, lane := l }

theorem step_eq_some {d d' : Driven σ} {a : Act σ} (h : d.step a = some d') :
    d.teardown.next a = some d'.teardown ∧ d.lane.step a = some d'.lane := by
  obtain ⟨t, ht, h⟩ := Option.bind_eq_some_iff.1 h
  obtain ⟨l, hl, rfl⟩ := Option.map_eq_some_iff.1 h
  exact ⟨ht, hl⟩

end Driven

/-- the engine leaves the lane alone -/
theorem Teardown.next_other {t t' : Teardown} {a : Act σ} (ha : a.ofEngine = false)
    (h : t.next a = some t') : t' = t := by
  cases a <;> cases ha <;> cases t <;> cases h <;> rfl

namespace Lane

/-! ## the bodies in flight -/

/-- dispatched with `hpx::async`, and the continuation has not released the slot -/
def dispatched (s : Lane σ) : List Nat :=
  (List.range s.admitted.length).filter fun i => (s.svc i).isSome && !s.consumer.serves i

/-- the slot that the consumer has taken for a body it has not dispatched yet -/
def registering (s : Lane σ) : List Nat :=
  match s.consumer with
  | .registered it => [it.id]
  | _ => []

variable {s s' : Lane σ} {i : Nat}

theorem mem_registering : i ∈ s.registering ↔ s.consumer.registers i = true := by
  unfold registering Consumer.registers
  cases s.consumer with
  | registered it => rw [List.mem_singleton, beq_iff_eq, eq_comm]
  | _ => exact ⟨nofun, nofun⟩

theorem Wf.mem_dispatched (h : Wf s) :
    i ∈ s.dispatched ↔ s.svc i ≠ none ∧ s.consumer.serves i = false := by
  rw [dispatched, List.mem_filter, List.mem_range, Bool.and_eq_true, Bool.not_eq_true',
    Option.isSome_iff_ne_none]
  refine ⟨fun hi => hi.2, fun hi => ⟨?_, hi⟩⟩
  have hb := h.begun i hi.1
  omega

/-- **The slots are those of the dispatched bodies**, and the one of a body being registered. -/
theorem Wf.slots (h : Wf s) : s.inflight = s.dispatched.length + s.registering.length := by
  have hone : s.registering.Nodup := by
    unfold registering
    split
    · exact List.nodup_cons.2 ⟨List.not_mem_nil, List.nodup_nil⟩
    · exact List.nodup_nil
  -- what is being registered is not in service
  have hdisj : ∀ i ∈ s.dispatched, i ∉ s.registering := by
    intro i hi hr
    have hreg := mem_registering.1 hr
    rcases hc : s.consumer with _ | it | it | it | it | _ | _ | _
    case registered =>
      rw [hc] at hreg
      have hid : it.id = i := beq_iff_eq.1 hreg
      have hnone := h.notHere it (by rw [hc]; rfl) (by rw [hc]; rfl)
      rw [hid] at hnone
      exact (h.mem_dispatched.1 hi).1 hnone
    all_goals
      rw [hc] at hreg
      cases hreg
  have hnodup : (s.dispatched ++ s.registering).Nodup := by
    refine List.nodup_append.2 ⟨List.nodup_range.filter _, hone, ?_⟩
    intro i hi j hj hij
    rw [hij] at hi
    exact hdisj j hi hj
  have hperm : s.inflightToks.Perm (s.dispatched ++ s.registering) := by
    refine (List.perm_ext_iff_of_nodup h.nodup hnodup).2 fun i => ?_
    rw [h.toks, List.mem_append, h.mem_dispatched, mem_registering]
    exact or_comm
  rw [h.count, hperm.length_eq, List.length_append]
  omega

/-! ## cancelled tokens -/

end Lane

namespace Life
variable {l l' : Life σ} {actorId : String}

/-- no step of the life of an item brings a cancelled token back -/
theorem cancelled_step (h : l.tok.phase = .cancelled) (hs : Step actorId l l') :
    l'.tok.phase = .cancelled := by
  cases hs with
  | cancel hl =>
    show l.tok.cancel.1.phase = .cancelled
    rw [Token.cancel_settled (Token.settled_cancelled h)]
    exact h
  | begins it hi hl hb =>
    rw [Token.beginService_cancelled _ h] at hb
    cases hb
  | effect t t' now st st' tk hl hr ht =>
    rcases Prog.step_poll ht with rfl | ⟨fin, rfl⟩
    · exact h
    · show (l.tok.stopAtBoundary fin).1.phase = .cancelled
      rw [Token.stopAtBoundary_other fin (by rw [h]; exact nofun)]
      exact h
  | markFinished r hl =>
    show (Lane.finished r l.tok).phase = .cancelled
    unfold Lane.finished
    split
    · exact h
    · rw [Token.markFinished_other (by rw [h]; exact nofun)]
      exact h
  | _ => exact h

end Life

namespace Lane
variable {s s' : Lane σ} {i : Nat}

theorem cancelled_step (hw : Wf s) {a : Act σ} (hs : Step s a s') (i : Nat)
    (h : (s.tok i).phase = .cancelled) : (s'.tok i).phase = .cancelled := by
  rcases view_step (i := i) hw hs with he | he
  · have ht : s'.tok i = s.tok i := congrArg Life.tok he
    rw [ht]
    exact h
  · exact Life.cancelled_step h he

/-- a cancel of a queued item settles it -/
theorem Wf.cancel_queued (hw : Wf s) (ho : (view i s).Once) (hi : i ∈ s.queue.map Item.id) :
    (s.tok i).cancel.1.phase = .cancelled := by
  obtain ⟨hlt, hq⟩ := hw.queued_iff.1 hi
  have hloc : (view i s).loc = .queued := loc_queued hlt hq
  rcases ho.waiting (by rw [hloc]; rfl) with h | h
  · have hphase : (s.tok i).phase = .queued := h.1
    rw [Token.cancel_queued hphase]
  · have hphase : (s.tok i).phase = .cancelled := h.1
    rw [Token.cancel_settled (Token.settled_cancelled hphase)]
    exact hphase

theorem step_maxInflight {a : Act σ} (hs : Step s a s') : s'.maxInflight = s.maxInflight := by
  cases hs <;> rfl

/-! ## the invariant -/

structure Capped (t : Teardown) (s : Lane σ) : Prop where
  mode : s.mode = .asyncNonBlocking
  cap : s.inflight ≤ s.maxInflight
  room : ∀ it, s.consumer = .popped it →
    s.inflight < s.maxInflight ∨ (s.tok it.id).phase = .cancelled
  begun : ∀ it, s.consumer = .began it → s.inflight < s.maxInflight
  stop : s.stop = true → t = .stopping
  idle : t ≠ .cancelling → s.pending = .idle
  swept : t ≠ .live → ∀ it ∈ s.queue, it.id ∈ s.pending.todo ∨ (s.tok it.id).phase = .cancelled

namespace Capped
variable {t t' : Teardown}

/-- after the stop every queued item is cancelled -/
theorem drained (h : Capped t s) (hs : s.stop = true) {it : Item σ} (hit : it ∈ s.queue) :
    (s.tok it.id).phase = .cancelled := by
  have ht := h.stop hs
  have hidle := h.idle (by rw [ht]; exact nofun)
  rcases h.swept (by rw [ht]; exact nofun) it hit with htodo | hc
  · rw [hidle] at htodo
    cases htodo
  · exact hc

/-- the consumer holds no item that it may still begin -/
def Past (c : Consumer σ) : Prop := (∀ it, c ≠ .popped it) ∧ ∀ it, c ≠ .began it

/-- a step of another thread, or of a consumer past its item, that takes no slot -/
theorem frame (h : Capped t s)
    (htok : ∀ i, (s.tok i).phase = .cancelled → (s'.tok i).phase = .cancelled)
    (hm : s'.mode = s.mode) (hmax : s'.maxInflight = s.maxInflight) (hin : s'.inflight ≤ s.inflight)
    (hc : s'.consumer = s.consumer ∨ Past s'.consumer) (hstop : s'.stop = s.stop)
    (hp : s'.pending = s.pending) (hq : s'.queue = s.queue) : Capped t s' := by
  have hcap := h.cap
  refine ⟨hm.trans h.mode, by omega, ?_, ?_, by rw [hstop]; exact h.stop, by rw [hp]; exact h.idle, ?_⟩
  · intro it hit
    rcases hc with hc | hc
    · rcases h.room it (hc.symm.trans hit) with hr | hr
      · exact Or.inl (by omega)
      · exact Or.inr (htok it.id hr)
    · exact absurd hit (hc.1 it)
  · intro it hit
    rcases hc with hc | hc
    · have hb := h.begun it (hc.symm.trans hit)
      omega
    · exact absurd hit (hc.2 it)
  · intro ht it hit
    rw [hq] at hit
    rw [hp]
    exact (h.swept ht it hit).imp_right (htok it.id)

theorem past_afterItem (s : Lane σ) : Past s.afterItem := by
  rcases afterItem_cases s with h | h
  · rw [h]
    exact ⟨nofun, nofun⟩
  · rw [h]
    exact ⟨nofun, nofun⟩

/-- a submission comes before the shutdown -/
theorem push (h : Capped .live s) (task : Prog σ Exc RuntimeResult) (cc : Int)
    (policy : DispatchPolicy) : Capped .live (s.push task cc policy) :=
  { h with swept := fun ht => absurd rfl ht }

/-- the consumer takes the first item of the queue -/
theorem pop (h : Capped t s) {it : Item σ} {queue : List (Item σ)} (hq : s.queue = it :: queue)
    (hp : s.mayPop = true) (active : Bool) (activeTok : Option Nat) :
    Capped t { s with
      queue := queue, consumer := .popped it, active := active, activeTok := activeTok } := by
  refine { h with room := ?_, begun := nofun, swept := ?_ }
  · rintro _ ⟨⟩
    unfold mayPop at hp
    rw [h.mode, Bool.or_eq_true, decide_eq_true_eq] at hp
    rcases hp with hs | hlt
    · -- the wait does not ask for a slot, the item is cancelled
      exact Or.inr (h.drained hs (by rw [hq]; exact List.mem_cons_self))
    · exact Or.inl hlt
  · intro ht it' hit'
    exact h.swept ht it' (by rw [hq]; exact List.mem_cons_of_mem it hit')

theorem cpCancel (h : Capped t s) (hw : Wf s) (ho : ∀ i, (view i s).Once) {todo : List Nat}
    (hp : s.pending = .cancelling (i :: todo))
    (htok : ∀ j, (s.tok j).phase = .cancelled → ((s.cancelTok i).tok j).phase = .cancelled)
    {pending : Pending} (hpend : pending.todo = todo) :
    Capped t { s.cancelTok i with pending := pending } := by
  have ht : t = .cancelling := by
    by_contra hne
    rw [h.idle hne] at hp
    cases hp
  refine { h with
    room := fun it hit => (h.room it hit).imp_right (htok it.id)
    idle := fun hne => absurd ht hne
    swept := ?_ }
  intro hlive it hit
  rcases h.swept hlive it hit with htodo | hc
  · rw [hp] at htodo
    rcases List.mem_cons.1 htodo with hid | htodo
    · refine Or.inr ?_
      show (Function.update s.tok i (s.tok i).cancel.1 it.id).phase = .cancelled
      rw [hid, Function.update_self]
      exact hw.cancel_queued (ho i) (by rw [← hid]; exact List.mem_map_of_mem hit)
    · refine Or.inl ?_
      show it.id ∈ pending.todo
      rw [hpend]
      exact htodo
  · exact Or.inr (htok it.id hc)

/-- **Every step of the driven lane keeps the invariant.** -/
theorem step (h : Capped t s) (hw : Wf s) (ho : ∀ i, (view i s).Once) {a : Act σ}
    (ht : t.next a = some t') (hs : Step s a s') : Capped t' s' := by
  have htok := cancelled_step hw hs
  cases hs with
  | submit hstop =>
    cases t with
    | live =>
      cases ht
      exact h.push _ _ _
    | _ => cases ht
  | accept hstop hd =>
    cases t with
    | live =>
      cases ht
      exact h.push _ _ _
    | _ => cases ht
  | reject hstop hd =>
    cases t with
    | live =>
      cases ht
      exact h
    | _ => cases ht
  | pop hc hq hp =>
    rw [Teardown.next_other rfl ht]
    exact h.pop hq hp _ _
  | @begins it hc hb =>
    rw [Teardown.next_other rfl ht]
    have hroom : s.inflight < s.maxInflight := by
      rcases h.room it hc with hr | hr
      · exact hr
      · rw [Token.beginService_cancelled _ hr] at hb
        cases hb
    refine { h with room := nofun, begun := fun _ _ => hroom, swept := ?_ }
    exact fun hlive it' hit' => (h.swept hlive it' hit').imp_right (htok it'.id)
  | @registers it hc hh =>
    rw [Teardown.next_other rfl ht]
    have hroom := h.begun it hc
    exact { h with cap := Int.add_one_le_of_lt hroom, room := nofun, begun := nofun }
  | collect hp =>
    cases t with
    | live =>
      cases ht
      refine { h with stop := ?_, idle := fun hne => absurd rfl hne, swept := ?_ }
      · intro hstop
        exact absurd (h.stop hstop) nofun
      · intro _ it hit
        exact Or.inl (List.mem_append_left _ (List.mem_append_left _ (List.mem_map_of_mem hit)))
    | _ => cases ht
  | @cpCancel i todo hp =>
    rw [Teardown.next_other rfl ht]
    refine h.cpCancel hw ho hp htok ?_
    split <;> rfl
  | @cpFulfil i todo now hp =>
    rw [Teardown.next_other rfl ht]
    have hcan : t = .cancelling := by
      by_contra hne
      rw [h.idle hne] at hp
      cases hp
    refine { h with idle := fun hne => absurd hcan hne, swept := ?_ }
    intro hlive it hit
    have hsw := h.swept hlive it hit
    rw [hp] at hsw
    exact hsw
  | cpReturn hp =>
    cases t with
    | cancelling =>
      cases ht
      refine { h with stop := ?_, idle := fun _ => rfl, swept := ?_ }
      · intro hstop
        exact absurd (h.stop hstop) nofun
      · intro _ it hit
        have hsw := h.swept nofun it hit
        rw [hp] at hsw
        exact hsw
    | _ => cases ht
  | stopBegin hstop =>
    cases t with
    | cancelled =>
      cases ht
      exact { h with stop := fun _ => rfl, idle := fun _ => h.idle nofun, swept := fun _ => h.swept nofun }
    | _ => cases ht
  | skips hc hb =>
    rw [Teardown.next_other rfl ht]
    exact h.frame htok rfl rfl (Int.le_refl _) (Or.inr (past_afterItem s)) rfl rfl rfl
  | setHere hv hc =>
    rw [Teardown.next_other rfl ht]
    exact h.frame htok rfl rfl (Int.le_refl _) (Or.inr (past_afterItem s)) rfl rfl rfl
  | release hv =>
    rw [Teardown.next_other rfl ht]
    exact h.frame htok rfl rfl (Int.sub_le_self _ (by decide)) (Or.inl rfl) rfl rfl rfl
  | exit hc hq hstop =>
    rw [Teardown.next_other rfl ht]
    exact h.frame htok rfl rfl (Int.le_refl _) (Or.inr ⟨nofun, nofun⟩) rfl rfl rfl
  | starts hc hh =>
    rw [Teardown.next_other rfl ht]
    exact h.frame htok rfl rfl (Int.le_refl _) (Or.inr ⟨nofun, nofun⟩) rfl rfl rfl
  | launch hc =>
    rw [Teardown.next_other rfl ht]
    exact h.frame htok rfl rfl (Int.le_refl _) (Or.inr ⟨nofun, nofun⟩) rfl rfl rfl
  | clearTok hc =>
    rw [Teardown.next_other rfl ht]
    exact h.frame htok rfl rfl (Int.le_refl _) (Or.inr ⟨nofun, nofun⟩) rfl rfl rfl
  | clearActive hc =>
    rw [Teardown.next_other rfl ht]
    exact h.frame htok rfl rfl (Int.le_refl _) (Or.inr ⟨nofun, nofun⟩) rfl rfl rfl
  | _ =>
    rw [Teardown.next_other rfl ht]
    exact h.frame htok rfl rfl (Int.le_refl _) (Or.inl rfl) rfl rfl rfl

end Capped

/-- what the cap promises in a state of the lane -/
structure CapLaw (M : Int) (s : Lane σ) : Prop where
  slots : s.inflight = s.dispatched.length + s.registering.length
  cap : s.inflight ≤ M
  bodies : (s.dispatched.length : Int) ≤ M

end Lane

namespace Driven
variable {actorId : String} {M : Int} {st : σ} {d : Driven σ}

/-- a driven run is a run of the lane, and keeps the invariant -/
theorem capped_reach (hM : 1 ≤ M) (h : Reach Driven.step (start actorId M st) d) :
    Reach Lane.step (Lane.create actorId .asyncNonBlocking M st) d.lane ∧
      d.lane.maxInflight = M ∧ Lane.Capped d.teardown d.lane := by
  have hcap : (Lane.create actorId .asyncNonBlocking M st).maxInflight = M := if_neg (Int.not_lt.2 hM)
  refine h.inv (P := fun d => Reach Lane.step (Lane.create actorId .asyncNonBlocking M st) d.lane ∧
    d.lane.maxInflight = M ∧ Lane.Capped d.teardown d.lane) ?_ ⟨.refl _, hcap, ?_⟩
  · rintro d a d' ⟨hr, hm, hc⟩ hstep
    obtain ⟨ht, hl⟩ := step_eq_some hstep
    have hs := Lane.step_sound hl
    refine ⟨hr.trans (.one a hl), ?_, hc.step (Lane.wf_reach hr) (Lane.once_reach hr) ht hs⟩
    exact (Lane.step_maxInflight hs).trans hm
  · refine ⟨rfl, ?_, nofun, nofun, nofun, fun _ => rfl, fun hlive => absurd rfl hlive⟩
    show 0 ≤ (Lane.create actorId .asyncNonBlocking M st).maxInflight
    rw [hcap]
    omega

/-- **The concurrency cap.**  In every state that the engine drives an `AsyncNonBlocking` lane to, the
drain after the stop included, the bodies that are dispatched and not retired are as many as the slots
that are taken, up to the one being registered, and never more than the cap. -/
theorem nonblocking_cap (hM : 1 ≤ M) (h : Reach Driven.step (start actorId M st) d) :
    Lane.CapLaw M d.lane := by
  obtain ⟨hr, hm, hc⟩ := capped_reach hM h
  have hslots := (Lane.wf_reach hr).slots
  have hle := hc.cap
  exact ⟨hslots, by omega, by omega⟩

end Driven

end

namespace Driven

/-- two `park_ms` on a lane with one slot, the second one still queued at the shutdown: it is
cancelled, popped in the drain without a free slot and skipped -/
def drainRun : List (Act Unit) :=
  [.submit (makeOpTask parkMs [.int64 200] "rt-hpx-0") (parkMsCheckpoints 200) .async,
    .submit (makeOpTask parkMs [.int64 200] "rt-hpx-0") (parkMsCheckpoints 200) .async,
    .pop, .beginService, .dispatch, .launch, .collect, .cpCancel, .cpFulfil 0, .cpCancel, .cpReturn,
    .stopBegin, .pop, .beginService]

theorem drainRun_stops : ∃ d, run Driven.step (start "rt-hpx-0" 1 ()) drainRun = some d ∧
    d.lane.stop = true ∧ d.lane.queue = [] ∧ d.lane.inflight = 1 := ⟨_, rfl, rfl, rfl, rfl⟩

theorem nonblocking_cap_drain : ∃ d, run Driven.step (start "rt-hpx-0" 1 ()) drainRun = some d ∧
    d.lane.stop = true ∧ d.lane.queue = [] ∧ d.lane.inflight = 1 ∧ Lane.CapLaw 1 d.lane := by
  obtain ⟨d, hrun, hstop, hq, hin⟩ := drainRun_stops
  exact ⟨d, hrun, hstop, hq, hin, nonblocking_cap (by decide) ⟨drainRun, hrun⟩⟩

/-- a stop without the cancel in front of it breaks the cap -/
example : ∃ s, run Lane.step (Lane.create "rt-hpx-0" .asyncNonBlocking 1 ())
    (drainRun.take 6 ++ [.stopBegin, .pop, .beginService, .dispatch]) = some s ∧
    s.inflight = 2 := ⟨_, rfl, rfl⟩

end Driven

end RayX
