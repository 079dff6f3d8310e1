import RayX.Lib.Run
import RayX.Supervision.Publication
import RayX.Supervision.Witness

/-!
# The completion fence of an island

An island is a state machine and a completion contract over one of the two completion backends.  Its
supervisor advances it to any target, asks the guard before each dispatch, and tries to publish.

* `Island.advance`, `Island.dispatchGuard`, `Island.tryPublish`   the calls;
* `StateMachine.At`, `StateMachine.Over`   a linear machine is at a place of its states, where its
                               history ends, or it is past the last one at `None`;
* `Island.calls_place`         calls keep it there or move it on;
* `completion_fenced`          **the history is a prefix of the states exactly as long as no finalized
                               island is advanced to `None`; a rejected advance is only recorded, no
                               dispatch is allowed after an accepted publication, and the
                               observations of the backends are exact**.
-/

namespace RayX
open Sys

namespace Supervision

def dispatchStates : List IslandState := [.ready, .idle]

/-- the answer of the guard; `reachedHpx` is left open where it allows -/
structure DispatchRecord where
  label : String
  state : Option IslandState
  allowed : Bool
  reachedHpx : Option Bool
  tMono : ℚ

inductive CompletionBackend where
  | synthetic (b : SyntheticCompletion)
  | external (b : ExternalCompletion)

section
variable {ε : Type}

/-- only the external witness can raise -/
def CompletionBackend.publishComplete (p : Publication ε) :
    CompletionBackend → CompletionBackend × Except ε CompletionRecord
  | .synthetic b => (.synthetic (b.publishComplete p).1, .ok (b.publishComplete p).2)
  | .external b => (.external (b.publishComplete p).1, (b.publishComplete p).2)

structure Island where
  contract : CompletionContract CompletionRecord
  backend : CompletionBackend

inductive IslandCall (ε : Type) where
  | advance (target : Target IslandState) (now : ℚ)
  | dispatchGuard (label : String) (now : ℚ)
  | tryPublish (a : CompletionArgs) (wallMs : Int) (mono : ℚ) (fault : Option ε)

inductive IslandReply (ε : Type) where
  | advanced (r : Option Unit)
  | guarded (r : DispatchRecord)
  | tried (r : Except ε (CompletionAttempt CompletionRecord))

namespace Island

def create (backend : CompletionBackend) (now : ℚ) : Island where
  contract := { sm := { state := some .starting, history := [(some .starting, now)] } }
  backend := backend

def sm (i : Island) : StateMachine IslandState := i.contract.sm

def advance (i : Island) (target : Target IslandState) (now : ℚ) : Island × Option Unit :=
  let r := i.sm.advance islandStates target now
  ({ i with contract := { i.contract with sm := r.1 } }, r.2)

def dispatchGuard (i : Island) (label : String) (now : ℚ) : DispatchRecord :=
  let allowed := i.sm.state.any dispatchStates.contains
  { label := label
    state := i.sm.state
    allowed := allowed
    reachedHpx := if allowed then none else some false
    tMono := now }

/-- the backend is called where the contract accepts -/
def tryPublish (i : Island) (a : CompletionArgs) (wallMs : Int) (mono : ℚ) (fault : Option ε) :
    Island × Except ε (CompletionAttempt CompletionRecord) :=
  let publish := fun epochId connectorIds payload =>
    i.backend.publishComplete ⟨epochId, connectorIds, payload, wallMs, mono, fault⟩
  let r := i.contract.tryPublish a fun epochId connectorIds payload =>
    (publish epochId connectorIds payload).2.map some
  ({ i with
      contract := r.1
      backend := if i.contract.accepts a then
          (publish a.epochId a.connectorIds (CompletionContract.payload a)).1
        else i.backend }, r.2)

def call (i : Island) : IslandCall ε → Island × IslandReply ε
  | .advance target now => ((i.advance target now).1, .advanced (i.advance target now).2)
  | .dispatchGuard label now => (i, .guarded (i.dispatchGuard label now))
  | .tryPublish a wallMs mono fault =>
    ((i.tryPublish a wallMs mono fault).1, .tried (i.tryPublish a wallMs mono fault).2)

def calls (i : Island) (cs : List (IslandCall ε)) : Island := cs.foldl (fun i c => (i.call c).1) i

/-- a call is a step -/
def step (i : Island) (c : IslandCall ε) : Option Island := some (i.call c).1

/-- the call does not advance a finalized island to `None` -/
def Stays (i : Island) (c : IslandCall ε) : Prop :=
  ∀ now, c = .advance (.value none) now → i.sm.state ≠ some .finalized

end Island

/-! ## a linear machine -/

/-- the machine is at the `k`-th of its states, and has been at those before -/
structure StateMachine.At {S : Type} (states : List S) (sm : StateMachine S) (k : Nat) : Prop where
  lt : k < states.length
  here : sm.state = states[k]?
  past : sm.history.map Prod.fst = (states.take (k + 1)).map some

/-- the machine is at `None` -/
structure StateMachine.Over {S : Type} (sm : StateMachine S) : Prop where
  here : sm.state = none
  past : none ∈ sm.history.map Prod.fst

section
variable {S : Type} [DecidableEq S] {states : List S} {sm : StateMachine S} {k : Nat}

/-- the next state is the one at the next place -/
theorem nextOf_getElem {s : S} (hnd : states.Nodup) (hk : states[k]? = some s) :
    nextOf states (some s) = states[k + 1]? := by
  show (states.zip states.tail).lookup s = _
  -- a pair that is found stands at the place of its state
  have hplace : ∀ t, (states.zip states.tail).lookup s = some t → states[k + 1]? = some t := by
    intro t h
    obtain ⟨l₁, l₂, hzip, _⟩ := List.lookup_eq_some_iff.mp h
    have hat : (states.zip states.tail)[l₁.length]? = some (s, t) := by
      rw [hzip, List.getElem?_append_right le_rfl, Nat.sub_self]
      rfl
    obtain ⟨hs, ht⟩ := List.getElem?_zip_eq_some.mp hat
    have hlt := (List.getElem?_eq_some_iff.mp hs).1
    have hplace := (List.getElem?_inj hlt hnd).mp (hs.trans hk.symm)
    rw [List.getElem?_tail, hplace] at ht
    exact ht
  cases hl : (states.zip states.tail).lookup s with
  | some t => exact (hplace t hl).symm
  | none =>
    cases hn : states[k + 1]? with
    | none => rfl
    | some t =>
      have hat : (states.zip states.tail)[k]? = some (s, t) :=
        List.getElem?_zip_eq_some.mpr ⟨hk, by rw [List.getElem?_tail]; exact hn⟩
      exact absurd rfl (bne_iff_ne.mp (List.lookup_eq_none_iff.mp hl _ (List.mem_of_getElem? hat)))

theorem StateMachine.At.next (hnd : states.Nodup) (h : sm.At states k) :
    nextOf states sm.state = states[k + 1]? := by
  have hs := List.getElem?_eq_getElem h.lt
  rw [h.here, hs]
  exact nextOf_getElem hnd hs

/-- **An advance leaves the machine where it is, or moves it one on; past its last state with `None`.** -/
theorem StateMachine.At.advance (hnd : states.Nodup) (h : sm.At states k) (target : Target S) (now : ℚ) :
    ((∃ j, k ≤ j ∧ (sm.advance states target now).1.At states j) ∧
      ¬ (k + 1 = states.length ∧ target = .value none)) ∨
    ((sm.advance states target now).1.Over ∧ k + 1 = states.length ∧ target = .value none) := by
  have hnext := h.next hnd
  unfold StateMachine.advance
  rw [hnext]
  split
  · rename_i hne
    refine Or.inl ⟨⟨k, le_rfl, h.lt, h.here, h.past⟩, ?_⟩
    rintro ⟨hlast, rfl⟩
    rw [List.getElem?_eq_none hlast.ge] at hne
    exact hne rfl
  · rename_i heq
    have heq := Decidable.not_not.mp heq
    by_cases hlt : k + 1 < states.length
    · refine Or.inl ⟨⟨k + 1, Nat.le_succ k, hlt, rfl, ?_⟩, fun hc => absurd hc.1 hlt.ne⟩
      rw [List.map_append, h.past, List.take_add_one (i := k + 1), List.map_append,
        List.getElem?_eq_getElem hlt]
      rfl
    · have hlast : k + 1 = states.length := by
        have := h.lt
        omega
      have hnone : states[k + 1]? = none := List.getElem?_eq_none hlast.ge
      rw [hnone] at heq ⊢
      refine Or.inr ⟨⟨rfl, ?_⟩, hlast, heq.symm⟩
      rw [List.map_append]
      exact List.mem_append_right _ List.mem_cons_self

theorem StateMachine.Over.advance (h : sm.Over) (target : Target S) (now : ℚ) :
    (sm.advance states target now).1.Over := by
  have hnext : nextOf states sm.state = none := by
    rw [h.here]
    rfl
  unfold StateMachine.advance
  rw [hnext]
  split
  · exact ⟨h.here, h.past⟩
  · refine ⟨rfl, ?_⟩
    rw [List.map_append]
    exact List.mem_append_left _ h.past

end

/-! ## the island -/

theorem islandStates_nodup : islandStates.Nodup := by decide

/-- the machine is at the `k`-th state or at a later one, or at `None` -/
def StateMachine.Place (sm : StateMachine IslandState) (k : Nat) : Prop :=
  (∃ j, k ≤ j ∧ sm.At islandStates j) ∨ sm.Over

namespace Island

theorem sm_tryPublish (i : Island) (a : CompletionArgs) (wallMs : Int) (mono : ℚ)
    (fault : Option ε) : (i.tryPublish a wallMs mono fault).1.sm = i.sm := by
  unfold tryPublish sm CompletionContract.tryPublish
  dsimp only
  split
  · cases (i.backend.publishComplete _).2 <;> rfl
  · rfl

theorem call_place {i : Island} {k : Nat} (h : i.sm.Place k) (c : IslandCall ε) :
    (i.call c).1.sm.Place k := by
  cases c with
  | advance target now =>
    rcases h with ⟨j, hj, hat⟩ | hover
    · rcases hat.advance islandStates_nodup target now with ⟨⟨l, hl, hat⟩, _⟩ | ⟨hover, _⟩
      · exact Or.inl ⟨l, hj.trans hl, hat⟩
      · exact Or.inr hover
    · exact Or.inr (hover.advance target now)
  | dispatchGuard label now => exact h
  | tryPublish a wallMs mono fault =>
    rw [call, sm_tryPublish]
    exact h

/-- calls never move the machine back -/
theorem calls_place {i : Island} {k : Nat} (h : i.sm.Place k) (cs : List (IslandCall ε)) :
    (i.calls cs).sm.Place k := by
  induction cs generalizing i with
  | nil => exact h
  | cons c cs ih => exact ih (call_place h c)

theorem create_at (backend : CompletionBackend) (now : ℚ) :
    (create backend now).sm.At islandStates 0 := ⟨by decide, rfl, rfl⟩

theorem create_place (backend : CompletionBackend) (now : ℚ) : (create backend now).sm.Place 0 :=
  Or.inl ⟨0, le_rfl, create_at backend now⟩

/-- the state in which a publication is accepted is the last one that could have led to a dispatch -/
theorem no_dispatch {i : Island} (h : i.sm.Place 4) (label : String) (now : ℚ) :
    (i.dispatchGuard label now).allowed = false := by
  show i.sm.state.any dispatchStates.contains = false
  rcases h with ⟨j, hj, hat⟩ | hover
  · have hlt := hat.lt
    have hs := List.getElem?_eq_getElem hlt
    rw [hat.here, hs]
    have hdrop : islandStates[j] ∈ islandStates.drop 4 := by
      refine List.mem_of_getElem? (i := j - 4) ?_
      rw [List.getElem?_drop, Nat.add_sub_cancel' hj]
      exact hs
    have hall : ∀ s ∈ islandStates.drop 4, dispatchStates.contains s = false := by decide
    exact hall _ hdrop
  · rw [hover.here]
    rfl

theorem accepted_place {i : Island} {k : Nat} (h : i.sm.Place k) {a : CompletionArgs}
    (hacc : i.contract.accepts a = true) : i.sm.Place 4 := by
  have hst : i.sm.state = islandStates[4]? := (CompletionContract.accepts_iff.mp hacc).2.2
  rcases h with ⟨j, _, hat⟩ | hover
  · have hplace : j = 4 := (List.getElem?_inj hat.lt islandStates_nodup).mp (hat.here.symm.trans hst)
    exact Or.inl ⟨j, hplace.ge, hat⟩
  · rw [hover.here] at hst
    cases hst

/-! ## the history -/

theorem run_calls (i : Island) (cs : List (IslandCall ε)) : run step i cs = some (i.calls cs) := by
  induction cs generalizing i with
  | nil => rfl
  | cons c cs ih => exact ih (i.call c).1

/-- the history is a prefix of the states -/
def InOrder (i : Island) : Prop := i.sm.history.map Prod.fst <+: islandStates.map some

theorem inOrder_at {i : Island} {k : Nat} (h : i.sm.At islandStates k) : i.InOrder := by
  unfold InOrder
  rw [h.past, List.map_take]
  exact List.take_prefix _ _

theorem not_inOrder {i : Island} (h : i.sm.Over) : ¬ i.InOrder := by
  intro hp
  obtain ⟨s, _, hs⟩ := List.mem_map.mp (hp.subset h.past)
  cases hs

/-- the other calls leave the machine alone -/
theorem inOrder_quiet {i : Island} {c : IslandCall ε} (hc : ∀ target now, c ≠ .advance target now)
    (hsm : (i.call c).1.sm = i.sm) : (i.call c).1.InOrder ↔ i.InOrder ∧ i.Stays c := by
  unfold InOrder
  rw [hsm]
  exact ⟨fun h => ⟨h, fun now hadv => absurd hadv (hc _ now)⟩, fun h => h.1⟩

/-- **A step leaves the history in order exactly when it was and the island stays on its states.** -/
theorem inOrder_step {i i' : Island} {c : IslandCall ε} (h : i.sm.Place 0) (hs : i.step c = some i') :
    i'.InOrder ↔ i.InOrder ∧ i.Stays c := by
  cases hs
  cases c with
  | dispatchGuard label now =>
    refine inOrder_quiet ?_ rfl
    intro target t hc
    cases hc
  | tryPublish a wallMs mono fault =>
    refine inOrder_quiet ?_ (sm_tryPublish i a wallMs mono fault)
    intro target t hc
    cases hc
  | advance target now =>
    rcases h with ⟨k, _, hat⟩ | hover
    · have hlast : i.sm.state = some .finalized ↔ k + 1 = islandStates.length := by
        rw [hat.here]
        show islandStates[k]? = islandStates[8]? ↔ k + 1 = 9
        rw [List.getElem?_inj hat.lt islandStates_nodup]
        omega
      rcases hat.advance islandStates_nodup target now with ⟨⟨j, _, hat'⟩, hno⟩ |
        ⟨hover, hend, htarget⟩
      · refine iff_of_true (inOrder_at hat') ⟨inOrder_at hat, ?_⟩
        intro t ht hst
        cases ht
        exact hno ⟨hlast.mp hst, rfl⟩
      · refine iff_of_false (not_inOrder hover) ?_
        rintro ⟨_, hstays⟩
        exact hstays now (by rw [htarget]) (hlast.mpr hend)
    · exact iff_of_false (not_inOrder (hover.advance target now)) (fun hc => not_inOrder hover hc.1)

/-- **The history is a prefix of the states if and only if no finalized island is advanced to `None`.** -/
theorem history_prefix_iff (backend : CompletionBackend) (now : ℚ) (cs : List (IslandCall ε)) :
    ((create backend now).calls cs).InOrder ↔ stepsMeet step Stays (create backend now) cs := by
  have hiff := run_iff_meet (I := fun i : Island => i.sm.Place 0) (P := InOrder) (C := Stays)
    (fun i c i' hp hs => Option.some.inj hs ▸ call_place hp c) (fun _ _ _ => inOrder_step)
    (run_calls (create backend now) cs) (create_place backend now)
  exact ⟨fun hp => (hiff.mp hp).2, fun hc => hiff.mpr ⟨inOrder_at (create_at backend now), hc⟩⟩

/-- an attempt that is recorded as accepted was accepted -/
theorem accepts_of_tried {i : Island} {a : CompletionArgs} {wallMs : Int} {mono : ℚ}
    {fault : Option ε} {att : CompletionAttempt CompletionRecord}
    (h : (i.tryPublish a wallMs mono fault).2 = .ok att) (hatt : att.accepted = true) :
    i.contract.accepts a = true := by
  unfold tryPublish CompletionContract.tryPublish at h
  dsimp only at h
  split at h
  · assumption
  · cases h
    exact hatt

/-- **No dispatch after an accepted publication.** -/
theorem fenced (backend : CompletionBackend) (now : ℚ) (before after : List (IslandCall ε))
    {a : CompletionArgs} {wallMs : Int} {mono : ℚ} {fault : Option ε}
    {att : CompletionAttempt CompletionRecord}
    (h : (((create backend now).calls before).tryPublish a wallMs mono fault).2 = .ok att)
    (hacc : att.accepted = true) (label : String) (t : ℚ) :
    (((((create backend now).calls before).tryPublish a wallMs mono fault).1.calls after).dispatchGuard
      label t).allowed = false := by
  have hplace := accepted_place (calls_place (create_place backend now) before)
    (accepts_of_tried h hacc)
  rw [← sm_tryPublish _ a wallMs mono fault] at hplace
  exact no_dispatch (calls_place hplace after) label t

end Island

/-- an advance succeeds to the next state only, or to `None` where there is none -/
theorem Island.advance_iff (i : Island) (target : Target IslandState) (now : ℚ) :
    (i.advance target now).2 = some () ↔ target = .value (nextOf islandStates i.sm.state) := by
  unfold Island.advance StateMachine.advance
  split
  · rename_i hne
    refine iff_of_false ?_ (fun hc => hne hc.symm)
    intro h
    cases h
  · rename_i heq
    exact iff_of_true rfl (Decidable.not_not.mp heq).symm

/-- an advance that is rejected is recorded, and changes nothing else -/
theorem Island.advance_rejected {i : Island} {target : Target IslandState} {now : ℚ}
    (h : (i.advance target now).2 = none) : (i.advance target now).1 = { i with
      contract := { i.contract with
        sm := { i.sm with rejected := i.sm.rejected ++ [(i.sm.state, target)] } } } := by
  unfold Island.advance StateMachine.advance at h ⊢
  split
  · rfl
  · rename_i heq
    rw [if_neg heq] at h
    cases h

/-! ## the fence -/

/-- **Completion fences the island.**  The history is a prefix of the states if and only if no
finalized island is advanced to `None`.  An advance succeeds to the next state only, or to `None` where
there is none, and one that is rejected is recorded and changes nothing else.  After an accepted
publication no dispatch is allowed, whatever is called.  And what the observers of the four backends
report as observed was published under their epoch, an event with their kind. -/
theorem completion_fenced (ε : Type) :
    (∀ backend now (cs : List (IslandCall ε)),
      ((Island.create backend now).calls cs).sm.history.map Prod.fst <+: islandStates.map some ↔
        stepsMeet Island.step Island.Stays (Island.create backend now) cs) ∧
    (∀ (i : Island) target now,
      ((i.advance target now).2 = some () ↔ target = .value (nextOf islandStates i.sm.state)) ∧
      ((i.advance target now).2 = none → (i.advance target now).1 = { i with
        contract := { i.contract with
          sm := { i.sm with rejected := i.sm.rejected ++ [(i.sm.state, target)] } } })) ∧
    (∀ backend now (before after : List (IslandCall ε)) a wallMs mono fault att label t,
      let i := (Island.create backend now).calls before
      (i.tryPublish a wallMs mono (fault : Option ε)).2 = .ok att → att.accepted = true →
      (((i.tryPublish a wallMs mono fault).1.calls after).dispatchGuard label t).allowed = false) ∧
    (∀ (ps : List (Publication ε)) epochId connectorId,
      Exact ((ps.foldl (fun b p => (SyntheticCompletion.publishComplete b p).1) {}).observeCompletion
        epochId connectorId)
        fun r => ∃ p ∈ ps, p.epochId = epochId ∧ r = p.record "synthetic" none) ∧
    (∀ markerDir (before : List (Publication ε)) epochId connectorId polls o,
      (before.foldl (fun b p => (ExternalCompletion.publishComplete b p).1)
        { markerDir := markerDir }).observeCompletion epochId connectorId polls = some o →
      Exact o fun r => ∃ p ∈ before ++ polls.flatMap Sys.WatchRound.writes, p.fault = none ∧
        p.epochId = epochId ∧
        r = p.record "external_witness" (some (ExternalCompletion.markerPath ⟨markerDir, none⟩))) ∧
    (∀ (cs : List (EventCall ε)) epochId observer kind inTime,
      Exact ((cs.foldl SyntheticLifecycle.publishEvent {}).observeEvents epochId observer kind inTime)
        fun e => ∃ c ∈ cs, c.epochId = epochId ∧ c.kind = kind ∧ e = SyntheticLifecycle.event c) ∧
    (∀ (before : List (EventCall ε)) epochId observer kind polls o,
      (before.foldl (fun b c => (ExternalLifecycle.publishEvent b c).1) {}).observeEvents
        epochId observer kind polls = some o →
      Exact o fun e => ∃ c ∈ before ++ polls.flatMap Sys.WatchRound.writes, c.returns = true ∧
        c.epochId = epochId ∧ c.kind = kind ∧ e = ExternalLifecycle.event c) := by
  refine ⟨Island.history_prefix_iff,
    fun i target now => ⟨i.advance_iff target now, Island.advance_rejected⟩, ?_,
    synthetic_completion_exact,
    fun markerDir before epochId connectorId polls _ h =>
      external_completion_exact markerDir before epochId connectorId polls h,
    synthetic_events_exact,
    fun before epochId observer kind polls _ h =>
      external_events_exact before epochId observer kind polls h⟩
  intro backend now before after a wallMs mono fault att label t i hret hacc
  exact Island.fenced backend now before after hret hacc label t

/-- to the last of the states, and then to `None` -/
def pastFinalized : List (IslandCall ε) :=
  [.advance (.value (some .ready)) 1, .advance (.value (some .work1Verified)) 2,
    .advance (.value (some .idle)) 3, .advance (.value (some .work2Verified)) 4,
    .advance (.value (some .completionPublished)) 5, .advance (.value (some .connectorsLeaving)) 6,
    .advance (.value (some .rootAlone)) 7, .advance (.value (some .finalized)) 8,
    .advance (.value none) 9]

/-- a finalized island accepts an advance to `None`, and its history is no prefix of the states -/
theorem completion_strays : ¬ ∀ backend now (cs : List (IslandCall String)),
    ((Island.create backend now).calls cs).sm.history.map Prod.fst <+: islandStates.map some := by
  intro hall
  have hp := hall (.synthetic {}) 0 pastFinalized
  obtain ⟨s, _, hs⟩ := List.mem_map.mp (hp.subset (show (none : Option IslandState) ∈
    ((Island.create (.synthetic {}) 0).calls pastFinalized).sm.history.map Prod.fst from
      List.mem_of_getElem? (i := 9) rfl))
  cases hs

end

end Supervision
end RayX
