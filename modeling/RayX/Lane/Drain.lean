import RayX.Lane.Life
import RayX.Ops.Registry

/-!
# Exactly one fulfilment, and the drain

* `Life.Once`       an item that the lane still has to serve has an unset promise; otherwise the
                    promise is set once or exactly one accepted queued cancel owes its `set_value`;
* `once_reach`      every item of a reachable lane satisfies it;
* `lane_drain`      **promises are set at most once, and when `stop_and_join` returns the lane is
                    empty and every promise is set or owed by one queued cancel**;
* `lane_drain_early`   a lane whose `stop_and_join` has returned before a queued cancel sets its
                    promise.
-/

namespace RayX
open Sys

/-- what the lane still does for an item: nothing yet, skip or serve it, serve it, nothing -/
inductive Stage where
  | absent
  | waiting
  | held
  | done

section
variable {σ : Type}

def Loc.stage : Loc σ → Stage
  | .absent => .absent
  | .queued => .waiting
  | .popped => .waiting
  | .service .fulfilled => .done
  | .retired => .done
  | _ => .held

namespace Life

/-- the promise is set, or one accepted queued cancel owes it -/
def Paid (l : Life σ) : Prop := l.prom.length + l.owed = 1

/-- nobody has set the promise, and no cancel owes it -/
def Unpaid (l : Life σ) : Prop := l.prom = [] ∧ l.owed = 0

def Once (l : Life σ) : Prop :=
  match l.loc.stage with
  | .absent => l.Unpaid ∧ l.tok.phase = .queued
  | .waiting => (l.tok.phase = .queued ∧ l.Unpaid) ∨ (l.tok.phase = .cancelled ∧ l.Paid)
  | .held => l.tok.phase ≠ .queued ∧ l.Unpaid
  | .done => l.tok.phase ≠ .queued ∧ l.Paid

variable {l l' : Life σ}

theorem Once.absent (h : l.Once) (hl : l.loc.stage = .absent) :
    l.Unpaid ∧ l.tok.phase = .queued := by
  unfold Once at h
  rw [hl] at h
  exact h

theorem Once.waiting (h : l.Once) (hl : l.loc.stage = .waiting) :
    (l.tok.phase = .queued ∧ l.Unpaid) ∨ (l.tok.phase = .cancelled ∧ l.Paid) := by
  unfold Once at h
  rw [hl] at h
  exact h

theorem Once.held (h : l.Once) (hl : l.loc.stage = .held) : l.tok.phase ≠ .queued ∧ l.Unpaid := by
  unfold Once at h
  rw [hl] at h
  exact h

theorem Once.done (h : l.Once) (hl : l.loc.stage = .done) : l.tok.phase ≠ .queued ∧ l.Paid := by
  unfold Once at h
  rw [hl] at h
  exact h

/-- every place knows whether the promise is paid -/
theorem Once.payment (h : l.Once) : l.Unpaid ∨ l.Paid := by
  unfold Once at h
  split at h
  · exact Or.inl h.1
  · rcases h with h | h
    · exact Or.inl h.2
    · exact Or.inr h.2
  · exact Or.inl h.2
  · exact Or.inr h.2

theorem Once.prom_le (h : l.Once) : l.prom.length ≤ 1 := by
  rcases h.payment with ⟨hp, _⟩ | hp
  · rw [hp]
    exact Nat.zero_le 1
  · unfold Paid at hp
    omega

/-- setting the promise of an unpaid item pays it -/
theorem Unpaid.set (h : l.Unpaid) {r : RuntimeResult} {loc : Loc σ} :
    Paid { l with prom := l.prom ++ [r], loc := loc } := by
  show (l.prom ++ [r]).length + l.owed = 1
  rw [h.1, h.2]
  rfl

theorem Once.cancel (h : l.Once) (hl : l.loc ≠ .absent) : Once { l with
    tok := l.tok.cancel.1
    answers := l.answers ++ [l.tok.cancel.2.returned]
    owed := l.owed + owes l.tok.cancel.2 } := by
  have hkeep : l.tok.phase ≠ .queued → l.tok.cancel.1.phase ≠ .queued ∧
      l.owed + owes l.tok.cancel.2 = l.owed := by
    intro hq
    obtain ⟨hp, ha⟩ := Token.cancel_phase hq
    exact ⟨hp, by rw [owes, if_neg ha, Nat.add_zero]⟩
  unfold Once at h ⊢
  simp only
  split at h
  · rename_i hst
    unfold Loc.stage at hst
    split at hst <;> first | exact absurd ‹_› hl | cases hst
  · rcases h with ⟨hq, hp, ho⟩ | ⟨hc, hpaid⟩
    · rw [Token.cancel_queued hq]
      refine Or.inr ⟨rfl, ?_⟩
      show l.prom.length + (l.owed + 1) = 1
      rw [hp, ho]
      rfl
    · have hq : l.tok.phase ≠ .queued := by
        rw [hc]
        exact Phase.noConfusion
      rw [Token.cancel_settled (Or.inr (by rw [Token.isCancelled, hc]; rfl))]
      exact Or.inr ⟨hc, hpaid⟩
  · obtain ⟨hp, ho⟩ := hkeep h.1
    refine ⟨hp, h.2.1, ?_⟩
    show l.owed + owes l.tok.cancel.2 = 0
    rw [ho]
    exact h.2.2
  · obtain ⟨hp, ho⟩ := hkeep h.1
    refine ⟨hp, ?_⟩
    show l.prom.length + (l.owed + owes l.tok.cancel.2) = 1
    rw [ho]
    exact h.2

/-- an owed `set_value` keeps the sum of the promise and the debt -/
theorem Once.settle (h : l.Once) (ho : 0 < l.owed) {r : RuntimeResult} :
    Once { l with prom := l.prom ++ [r], owed := l.owed - 1 } := by
  have hpaid : l.Paid := by
    rcases h.payment with hp | hp
    · rw [hp.2] at ho
      exact absurd ho (Nat.lt_irrefl 0)
    · exact hp
  have hno : ¬ l.Unpaid := by
    intro hp
    rw [hp.2] at ho
    exact absurd ho (Nat.lt_irrefl 0)
  have hnew : Paid { l with prom := l.prom ++ [r], owed := l.owed - 1 } := by
    show (l.prom ++ [r]).length + (l.owed - 1) = 1
    unfold Paid at hpaid
    rw [List.length_append, List.length_singleton]
    omega
  unfold Once at h ⊢
  simp only
  split at h
  · exact absurd h.1 hno
  · rcases h with hq | hc
    · exact absurd hq.2 hno
    · exact Or.inr ⟨hc.1, hnew⟩
  · exact absurd h.2 hno
  · exact ⟨h.1, hnew⟩

/-- **Every step of the life of an item keeps `Once`.** -/
theorem Once.step {actorId : String} (h : l.Once) (hs : Step actorId l l') : l'.Once := by
  cases hs with
  | accept it hl =>
    unfold Once at h
    rw [hl] at h
    exact Or.inl ⟨h.2, h.1⟩
  | cancel hl => exact h.cancel hl
  | cancelFulfil now ho => exact h.settle ho
  | pop hl => exact h.waiting (by rw [hl]; rfl)
  | begins it hi hl hb =>
    rcases h.waiting (by rw [hl]; rfl) with hq | hc
    · have hne : l.tok.phase ≠ .cancelled := by
        rw [hq.1]
        exact Phase.noConfusion
      rw [Token.beginService_queued _ hne]
      exact ⟨Phase.noConfusion, hq.2⟩
    · rw [Token.beginService_cancelled _ hc.1] at hb
      cases hb
  | skips it hi hl hb =>
    rcases h.waiting (by rw [hl]; rfl) with hq | hc
    · have hne : l.tok.phase ≠ .cancelled := by
        rw [hq.1]
        exact Phase.noConfusion
      rw [Token.beginService_queued _ hne] at hb
      cases hb
    · refine ⟨?_, hc.2⟩
      show l.tok.phase ≠ .queued
      rw [hc.1]
      exact Phase.noConfusion
  | starts it hi hl => exact h.held (by rw [hl]; rfl)
  | registers hl => exact h.held (by rw [hl]; rfl)
  | launch it hi hl => exact h.held (by rw [hl]; rfl)
  | ends t r hl hr => exact h.held (by rw [hl]; rfl)
  | effect t t' now st st' tk hl hr ht =>
    have hh := h.held (by rw [hl]; rfl)
    refine ⟨?_, hh.2⟩
    show tk.phase ≠ .queued
    rcases Prog.step_poll ht with rfl | ⟨fin, rfl⟩
    · exact hh.1
    · exact Token.stopAtBoundary_phase fin hh.1
  | markFinished r hl =>
    have hh := h.held (by rw [hl]; rfl)
    refine ⟨?_, hh.2⟩
    show (Lane.finished r l.tok).phase ≠ .queued
    unfold Lane.finished
    split
    · exact hh.1
    · exact Token.markFinished_phase hh.1
  | setHere r hl =>
    have hh := h.held (by rw [hl]; rfl)
    exact ⟨hh.1, hh.2.set⟩
  | setThere r hl =>
    have hh := h.held (by rw [hl]; rfl)
    exact ⟨hh.1, hh.2.set⟩
  | release hl => exact h.done (by rw [hl]; rfl)

end Life

namespace Lane
variable {s : Lane σ} {actorId : String} {mode : LaneMode} {maxInflight : Int} {st : σ}

theorem once_reach (h : Reach Lane.step (create actorId mode maxInflight st) s) (i : Nat) :
    (view i s).Once :=
  view_inv ⟨⟨rfl, rfl⟩, rfl⟩ (fun _ _ hl hs => hl.step hs) h i

/-- nothing is in service when `stop_and_join` has returned -/
theorem Wf.returned (h : Wf s) (hr : s.stopper = .returned) :
    s.queue = [] ∧ s.inflight = 0 ∧ s.inflightToks = [] ∧ ∀ i, s.svc i = none := by
  have hexit := h.joined (Or.inr hr)
  have hnil := h.drained hr
  refine ⟨(h.exited hexit).2, ?_, hnil, ?_⟩
  · rw [h.count, hnil]
    rfl
  · intro i
    by_contra hne
    have hfly : s.flies i := Or.inr ⟨hne, by rw [hexit]; rfl⟩
    have hmem := (h.toks i).mpr hfly
    rw [hnil] at hmem
    cases hmem

/-- every admitted item is retired when `stop_and_join` has returned -/
theorem Wf.returned_loc (h : Wf s) (hr : s.stopper = .returned) {i : Nat}
    (hi : i < s.admitted.length) : s.loc i = .retired := by
  obtain ⟨hq, _, _, hsvc⟩ := h.returned hr
  have hexit := h.joined (Or.inr hr)
  have hb : i + s.queue.length < s.admitted.length := by
    rw [hq]
    exact hi
  rw [loc_idle hb (hsvc i), hexit]
  rfl

/-- **Exactly-once fulfilment and drain of a lane.** -/
theorem lane_drain (h : Reach Lane.step (create actorId mode maxInflight st) s) :
    (∀ i, (s.prom i).length ≤ 1) ∧
    (s.stopper = .returned →
      s.queue = [] ∧ s.inflight = 0 ∧ s.inflightToks = [] ∧ (∀ i, s.svc i = none) ∧
      ∀ i, i < s.admitted.length → (s.prom i).length + s.owed i = 1) := by
  constructor
  · intro i
    exact (once_reach h i).prom_le
  · intro hr
    have hw := wf_reach h
    obtain ⟨hq, hin, htoks, hsvc⟩ := hw.returned hr
    refine ⟨hq, hin, htoks, hsvc, ?_⟩
    intro i hi
    have hloc := hw.returned_loc hr hi
    exact ((once_reach h i).done (by rw [show (view i s).loc = .retired from hloc]; rfl)).2

end Lane

end

namespace Lane

/-- an operation lane with one queued `square` -/
def squareLane : Lane Unit := create "rt-hpx-0" .serialBlocking 1 ()

/-- a client has won the queued cancel and not set the promise yet; the lane skips the item, stops
and is joined -/
def earlyRun : List (Act Unit) :=
  [.submit (makeOpTask square [.int64 3] "rt-hpx-0") 1 .inline, .cancel 0, .stopBegin, .pop,
    .beginService, .clearTok, .clearActive, .exit, .join]

theorem earlyRun_returns : ∃ s, run Lane.step squareLane earlyRun = some s ∧
    s.stopper = .returned ∧ s.admitted.length = 1 ∧ s.prom 0 = [] :=
  ⟨_, rfl, rfl, rfl, rfl⟩

/-- the debt that `lane_drain` leaves, met by a run -/
theorem lane_drain_owed : ∃ s, Reach Lane.step squareLane s ∧ s.stopper = .returned ∧
    s.queue = [] ∧ (s.prom 0).length + s.owed 0 = 1 := by
  obtain ⟨s, hrun, hr, hlen, _⟩ := earlyRun_returns
  have hd := (lane_drain (s := s) ⟨earlyRun, hrun⟩).2 hr
  exact ⟨s, ⟨earlyRun, hrun⟩, hr, hd.1, hd.2.2.2.2 0 (by omega)⟩

/-- a promise may still be unset when `stop_and_join` returns -/
theorem lane_drain_early : ¬ ∀ s : Lane Unit, Reach Lane.step squareLane s →
    s.stopper = .returned → ∀ i, i < s.admitted.length → (s.prom i).length = 1 := by
  intro h
  obtain ⟨s, hrun, hr, hlen, hprom⟩ := earlyRun_returns
  have h1 := h s ⟨earlyRun, hrun⟩ hr 0 (by omega)
  rw [hprom] at h1
  cases h1

end Lane

end RayX
