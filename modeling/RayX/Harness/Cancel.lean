import RayX.Harness.Account

/-!
# The cancel law of the harness

A true cancel is never broken and a fulfilled request is never told to be cancelled, exactly for the
requests whose armed boundaries are polls.  A request with an unsupported work mode fails in front of
its boundaries and leaves a running token behind that still accepts a cancel.

* `Law`           the law of one item;
* `At.law`        what the invariant of an item says about it;
* `failingRun`    a request that fails and is then cancelled;
* `cancel_law`    **every reachable lane keeps the law for a request if and only if its work mode is
                  supported or it has one chunk**.
-/

namespace RayX
open Sys

namespace Harness

section
variable {D : Type} [Millis D]

namespace ServiceLane

/-- the law of item `i`: a cancel that returned `true` is kept, and once the row is set every cancel
is refused and `is_cancelled()` tells whether the row is cancelled -/
structure Law (s : ServiceLane D) (i : Nat) : Prop where
  kept : true ∈ s.answers i → ∀ r ∈ s.prom i, r.status = .cancelled
  refused : s.prom i ≠ [] → (s.tok i).cancel.2.returned = false
  told : ∀ r ∈ s.prom i, (s.tok i).isCancelled = true ↔ r.status = .cancelled

end ServiceLane

namespace Life
variable {l : Life D} {it : Item D}

theorem wins_pos (l : Life D) : true ∈ l.answers ↔ 0 < l.wins := List.count_pos_iff.symm

/-- a row that is not cancelled comes with a token that refuses and tells so -/
theorem Ended.law {r : Result} (h : l.Ended it r) (hc : it.cancelable = true) :
    (true ∈ l.answers → r.status = .cancelled) ∧ l.tok.cancel.2.returned = false ∧
      (l.tok.isCancelled = true ↔ r.status = .cancelled) := by
  rcases h with ⟨hr, hw, hp⟩ | ⟨_, hr, hs⟩
  · have hpast := hp hc
    have hno : l.tok.isCancelled = false := by
      cases hph : l.tok.phase with
      | running =>
        rw [Token.isCancelled, hph]
        rfl
      | completed =>
        rw [Token.isCancelled, hph]
        rfl
      | _ =>
        rw [Token.pastBoundary, hph] at hpast
        cases hpast
    rw [wins_pos, hw, Token.cancel_settled (Or.inl hpast), hno]
    refine ⟨fun h => absurd h (Nat.lt_irrefl 0), rfl, fun h => absurd h Bool.false_ne_true, ?_⟩
    intro h
    exact absurd h hr.status_ne
  · rw [refused_of_cancelled hs.1]
    refine ⟨fun _ => hr.1, rfl, fun _ => hr.1, fun _ => ?_⟩
    rw [Token.isCancelled, hs.1]
    rfl

/-- **The law of an item with its invariant.** -/
theorem At.law {loc : Loc D} (h : l.At it loc) (hc : it.cancelable = true) {r : Result}
    (hr : r ∈ l.prom) : (true ∈ l.answers → r.status = .cancelled) ∧
      l.tok.cancel.2.returned = false ∧ (l.tok.isCancelled = true ↔ r.status = .cancelled) := by
  rcases h.settled hr with ⟨_, _, he⟩ | ⟨_, hs⟩
  · exact he.law hc
  · have hrow := (hs.2.2.2.2 r hr).1
    rw [refused_of_cancelled hs.1]
    refine ⟨fun _ => hrow, rfl, fun _ => hrow, fun _ => ?_⟩
    rw [Token.isCancelled, hs.1]
    rfl

end Life

namespace ServiceLane
variable {s : ServiceLane D} {impl : LaneImpl} {hex : String} {diag : Bool} {req : Request D}

/-- the law of a request whose armed boundaries are polls -/
theorem law_of_tame (h : Reach ServiceLane.step (create impl hex diag) s)
    (hreq : req.Supported ∨ req.chunks ≤ 1) {i : Nat} {it : Item D}
    (hi : s.admitted[i]? = some it) (hir : it.req = req) (hc : it.cancelable = true) : s.Law i := by
  have hat := at_reach h hi (fun _ => by rw [hir]; exact hreq)
  refine ⟨fun ht r hr => (hat.law hc hr).1 ht, ?_, fun r hr => (hat.law hc hr).2.2⟩
  intro hne
  obtain ⟨r, hr⟩ := List.exists_mem_of_ne_nil _ hne
  exact (hat.law hc hr).2.1

/-- a request is submitted and served, and its row is set -/
def failingRun (req : Request D) : List (Act D) :=
  [.submit req true 0, .pop, .beginService, .start 0, .serve 0, .finish 0, .setValue]

/-- a request that fails with chunks to go is still told to be cancellable -/
theorem failingRun_ends (impl : LaneImpl) (hex : String) (diag : Bool) (hmode : ¬ req.Supported)
    (hch : 1 < req.chunks) : ∃ s it, run ServiceLane.step (create impl hex diag) (failingRun req) =
      some s ∧ s.admitted[0]? = some it ∧ it.req = req ∧ it.cancelable = true ∧
      s.prom 0 ≠ [] ∧ (s.tok 0).cancel.2.returned = true := by
  -- the row of the lane before it is set
  obtain ⟨s, it, hrun, hc, hit, hid, hreq, htok, ht⟩ : ∃ (s : ServiceLane D) (it : Item D),
      run ServiceLane.step (create impl hex diag) [.submit req true 0, .pop, .beginService, .start 0]
        = some s ∧ s.consumer = .serving it (startRow req s.actorId 0) (serviceBody req true) ∧
      s.admitted[0]? = some it ∧ it.id = 0 ∧ it.req = req ∧ it.cancelable = true ∧
      s.tok 0 = { phase := .running, cancellable := decide (1 < req.chunks) } :=
    ⟨_, _, rfl, rfl, rfl, rfl, rfl, rfl, rfl⟩
  rw [serviceBody_unsupported hmode] at hc
  have hserve : s.step (.serve 0) = some { s.setTok it.id (s.tok it.id) with
      consumer := .ending it (outcomeRow it.req (startRow req s.actorId 0)
        (.error ("unsupported work_mode: " ++ req.workMode))) } := by
    have hsettle : ∀ what t, settle it (.error what) t = t := by
      intro what t
      rw [settle, if_pos htok]
      rfl
    simp only [step, hc, Prog.result, hsettle]
  have hrest : run ServiceLane.step s [.serve 0, .finish 0, .setValue] = _ :=
    (Option.bind_eq_some_iff.mpr ⟨_, hserve, rfl⟩)
  refine ⟨_, it, run_append.mpr ⟨s, hrun, hrest⟩, hit, hreq, htok, ?_, ?_⟩
  · show Function.update s.prom it.id (s.prom it.id ++ [_]) 0 ≠ []
    rw [hid, Function.update_self]
    exact List.append_ne_nil_of_right_ne_nil _ (List.cons_ne_nil _ _)
  · show (Function.update s.tok it.id (s.tok it.id) 0).cancel.2.returned = true
    rw [Function.update_eq_self, ht, decide_eq_true hch]
    rfl

/-- **The cancel law.**  On either lane, whatever else is submitted, cancelled and served, the law
holds for a request if and only if its work mode is supported or it has no boundary. -/
theorem cancel_law (impl : LaneImpl) (hex : String) (diag : Bool) (req : Request D) :
    (∀ s, Reach ServiceLane.step (create impl hex diag) s → ∀ i it, s.admitted[i]? = some it →
      it.req = req → it.cancelable = true → s.Law i) ↔ req.Supported ∨ req.chunks ≤ 1 := by
  constructor
  · intro hlaw
    by_contra hno
    simp only [not_or, Int.not_le] at hno
    obtain ⟨s, it, hrun, hi, hreq, hc, hp, hret⟩ := failingRun_ends impl hex diag hno.1 hno.2
    have := (hlaw s ⟨_, hrun⟩ 0 it hi hreq hc).refused hp
    rw [hret] at this
    cases this
  · intro hreq s h i it hi hir hc
    exact law_of_tame h hreq hi hir hc

end ServiceLane

end

namespace ServiceLane

/-- the failing request of two chunks -/
def warpRequest : Request Int := { workMode := "warp", chunks := 2 }

/-- a cancel after the failed row returns `true` -/
theorem cancel_law_warp : ¬ ∀ s : ServiceLane Int, Reach ServiceLane.step (create .std "00000000" false) s →
    ∀ i it, s.admitted[i]? = some it → it.cancelable = true → s.Law i := by
  intro hlaw
  have hwork : ¬ warpRequest.Supported := by decide
  obtain ⟨s, it, hrun, hi, _, hc, hp, hret⟩ :=
    failingRun_ends .std "00000000" false hwork (by decide)
  have := (hlaw s ⟨_, hrun⟩ 0 it hi hc).refused hp
  rw [hret] at this
  cases this

end ServiceLane

end Harness

end RayX
