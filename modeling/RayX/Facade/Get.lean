import RayX.Facade.Contract

/-!
# `get` of several futures

* `reads`          the moves of a `get`: one `result()` after the other;
* `Consumed`       what a `get` has done after its first `n` futures;
* `get_consumes`   **a `get` reads the futures up to the first that cannot be read again, and gives
                   their results in the order of its list, or none of them**.
-/

namespace RayX
open Sys
namespace Facade
namespace Runtime
variable {cfg : RuntimeConfig} {rt rt' : Runtime} {clock : Nat → Int}

/-- the `result()` calls of a `get` of the futures `is` -/
def reads (clock : Nat → Int) : List Nat → List Move
  | [] => []
  | i :: is => .result i (clock is.length) :: reads clock is

/-- the first `n` futures of `is` were unread and are read now, the others are as they were -/
structure Consumed (rt : Runtime) (clock : Nat → Int) (is : List Nat) (n : Nat)
    (fs : List RuntimeFuture) : Prop where
  unread : ∀ i ∈ is.take n, ∃ f, rt.futures[i]? = some f ∧ f.fut = true
  nodup : (is.take n).Nodup
  moves : run step rt ((reads clock is).take n) = some { rt with futures := fs }
  frame : ∀ j, j ∉ is.take n → fs[j]? = rt.futures[j]?

theorem Consumed.none (rt : Runtime) (clock : Nat → Int) (is : List Nat) :
    Consumed rt clock is 0 rt.futures where
  unread := by simp
  nodup := by simp
  moves := by
    rw [List.take_zero]
    rfl
  frame := fun _ _ => rfl

/-- the `result()` of an unread future on a promise that is set -/
theorem result_reads {i : Nat} {f : RuntimeFuture} {r : RuntimeResult} {recvNs : Int}
    (hf : rt.futures[i]? = some f) (hv : f.fut = true) (hp : rt.promise f.key = [r])
    (hg : rt.cancelling = none) : rt.step (.result i recvNs) =
      some { rt with futures := rt.futures.set i (f.retire (f.operationResult r recvNs)) } := by
  have hread : f.result (rt.promise f.key) recvNs =
      some (.ok (f.operationResult r recvNs), f.retire (f.operationResult r recvNs)) := by
    unfold RuntimeFuture.result
    rw [hv, if_neg (fun h => Bool.noConfusion h), hp]
  have hdrive : ¬ (Move.driving (.result i recvNs) = true ∧ rt.inPython = false) :=
    fun h => Bool.noConfusion h.1
  unfold step
  rw [if_neg hdrive, if_neg (fun h => h.2 hg)]
  show (rt.result i recvNs).map Prod.snd = _
  rw [Runtime.result, hf, Option.bind_some, hread]
  rfl

/-- one more future before the others -/
theorem Consumed.cons {i n : Nat} {is : List Nat} {f : RuntimeFuture} {r : RuntimeResult}
    {fs : List RuntimeFuture} (hf : rt.futures[i]? = some f) (hv : f.fut = true)
    (hp : rt.promise f.key = [r]) (hg : rt.cancelling = Option.none)
    (h : Consumed { rt with
      futures := rt.futures.set i (f.retire (f.operationResult r (clock is.length))) } clock is n fs) :
    Consumed rt clock (i :: is) (n + 1) fs ∧
      fs[i]? = some (f.retire (f.operationResult r (clock is.length))) := by
  have hlt := (List.getElem?_eq_some_iff.mp hf).1
  have hself : (rt.futures.set i (f.retire (f.operationResult r (clock is.length))))[i]? =
      some (f.retire (f.operationResult r (clock is.length))) := List.getElem?_set_self hlt
  have hnot : i ∉ is.take n := by
    intro hmem
    obtain ⟨g, hg', hgv⟩ := h.unread i hmem
    have hg'' : (rt.futures.set i _)[i]? = some g := hg'
    rw [hself] at hg''
    cases hg''
    cases hgv
  refine ⟨{ unread := ?_, nodup := ?_, moves := ?_, frame := ?_ }, (h.frame i hnot).trans hself⟩
  · intro j hj
    rcases List.mem_cons.mp hj with rfl | hj
    · exact ⟨f, hf, hv⟩
    · obtain ⟨g, hg', hgv⟩ := h.unread j hj
      have hne : i ≠ j := fun he => hnot (he ▸ hj)
      exact ⟨g, (List.getElem?_set_ne hne).symm.trans hg', hgv⟩
  · exact List.nodup_cons.mpr ⟨hnot, h.nodup⟩
  · exact run_cons.mpr ⟨_, result_reads hf hv hp hg, h.moves⟩
  · intro j hj
    have hne : i ≠ j := fun he => hj (by rw [he]; exact List.mem_cons_self)
    have hj' : j ∉ is.take n := fun hmem => hj (List.mem_cons_of_mem i hmem)
    exact (h.frame j hj').trans (List.getElem?_set_ne hne)

/-- **A `get` reads its futures up to the first that cannot be read again.**  Once the promises of the
futures of the list are set, a `get` comes back.  It has made the `result()` calls of a first part of
its list, of futures that were unread and stand in it once, and nothing else has changed.  When this
part is the whole list, it gives the result of each future, in the order of the list; otherwise the
next future was read before or is there twice, `get` raises, and what it has read is not given. -/
theorem get_consumes (clock : Nat → Int) (h : Reach step (create cfg) rt) (hg : rt.cancelling = none)
    {is : List Nat} (hset : ∀ i ∈ is, ∃ f, rt.futures[i]? = some f ∧ rt.promise f.key ≠ []) :
    ∃ n out fs, getFrom rt.promise clock is rt.futures = some (out, fs) ∧
      Consumed rt clock is n fs ∧
      ((n = is.length ∧ ∃ os, out = .ok os ∧
          List.Forall₂ (fun i o => ∃ f, fs[i]? = some f ∧ f.got = [o]) is os) ∨
        (∃ i, is[n]? = some i ∧ (∃ f, fs[i]? = some f ∧ f.fut = false) ∧ out = runtimeError
          ("RuntimeFuture is invalid (already retired via result()); "
            ++ "cannot call result() again"))) := by
  have hs := sound_reach h
  clear h
  induction is generalizing rt with
  | nil => exact ⟨0, .ok [], rt.futures, rfl, .none rt clock [], Or.inl ⟨rfl, [], rfl, .nil⟩⟩
  | cons i is ih =>
    obtain ⟨f, hf, hne⟩ := hset i List.mem_cons_self
    cases hv : f.fut with
    | false =>
      refine ⟨0, _, rt.futures, ?_, .none rt clock _, Or.inr ⟨i, rfl, ⟨f, hf, hv⟩, rfl⟩⟩
      rw [getFrom, hf]
      dsimp only
      rw [RuntimeFuture.result_retired hv]
      rfl
    | true =>
      obtain ⟨r, hp⟩ : ∃ r, rt.promise f.key = [r] := by
        cases hprom : rt.promise f.key with
        | nil => exact absurd hprom hne
        | cons r rest => exact ⟨r, hprom.symm.trans (hs.promise_one hprom)⟩
      have hgot : f.got = [] := by
        rcases hs.once.fair f (List.mem_of_getElem? hf) with ⟨_, hgot⟩ | ⟨hn, _⟩
        · exact hgot
        · exact absurd (hv.symm.trans hn) Bool.noConfusion
      let f' := f.retire (f.operationResult r (clock is.length))
      let rt₁ : Runtime := { rt with futures := rt.futures.set i f' }
      have hstep : rt.step (.result i (clock is.length)) = some rt₁ := result_reads hf hv hp hg
      have hs₁ : Sound rt₁ := hs.step (step_sound hstep)
      -- the promises are the same, and a future that is read keeps its own
      have hset₁ : ∀ j ∈ is, ∃ g, rt₁.futures[j]? = some g ∧ rt₁.promise g.key ≠ [] := by
        intro j hj
        obtain ⟨g, hgj, hgne⟩ := hset j (List.mem_cons_of_mem i hj)
        by_cases hij : i = j
        · subst hij
          exact ⟨f', List.getElem?_set_self (List.getElem?_eq_some_iff.mp hf).1, hne⟩
        · exact ⟨g, (List.getElem?_set_ne hij).trans hgj, hgne⟩
      obtain ⟨n, out, fs, hget, hcons, hout⟩ := ih (show rt₁.cancelling = none from hg) hset₁ hs₁
      obtain ⟨hcons', hfs⟩ := hcons.cons hf hv hp hg
      have hread : f.result (rt.promise f.key) (clock is.length) =
          some (.ok (f.operationResult r (clock is.length)), f') := by
        unfold RuntimeFuture.result
        rw [hv, if_neg (fun h => Bool.noConfusion h), hp]
      have hget' : getFrom rt.promise clock is (rt.futures.set i f') = some (out, fs) := hget
      rcases hout with ⟨hn, os, rfl, hall⟩ | ⟨j, hj, hspent, rfl⟩
      · refine ⟨n + 1, .ok (f.operationResult r (clock is.length) :: os), fs, ?_, hcons',
          Or.inl ⟨by rw [hn, List.length_cons], _, rfl, .cons ⟨f', hfs, ?_⟩ hall⟩⟩
        · rw [getFrom, hf]
          dsimp only
          rw [hread]
          dsimp only
          rw [hget']
        · show f.got ++ [_] = _
          rw [hgot]
          rfl
      · refine ⟨n + 1, _, fs, ?_, hcons', Or.inr ⟨j, hj, hspent, rfl⟩⟩
        rw [getFrom, hf]
        dsimp only
        rw [hread]
        dsimp only
        rw [hget']
        rfl

/-- `get` of a future twice, after it was resolved -/
theorem get_consumes_park : ∃ rt n out fs, Reach step (create parkConfig) rt ∧
    getFrom rt.promise (fun _ => 9) [0, 0] rt.futures = some (out, fs) ∧
    Consumed rt (fun _ => 9) [0, 0] n fs ∧ n < 2 := by
  obtain ⟨rt, f, r, hrun, hf, hp, hg⟩ : ∃ rt f r,
      run step (create parkConfig) (parkMoves.take 13) = some rt ∧ rt.futures[0]? = some f ∧
      rt.promise f.key = [r] ∧ rt.cancelling = none := ⟨_, _, _, rfl, rfl, rfl, rfl⟩
  have h : Reach step (create parkConfig) rt := ⟨_, hrun⟩
  have hset : ∀ i ∈ [0, 0], ∃ f, rt.futures[i]? = some f ∧ rt.promise f.key ≠ [] := by
    intro i hi
    simp only [List.mem_cons, List.not_mem_nil, or_false, or_self] at hi
    rw [hi]
    exact ⟨f, hf, by rw [hp]; exact List.cons_ne_nil r []⟩
  obtain ⟨n, out, fs, hget, hcons, hout⟩ := get_consumes (fun _ => 9) h hg hset
  refine ⟨rt, n, out, fs, h, hget, hcons, ?_⟩
  rcases hout with ⟨hn, _⟩ | ⟨i, hi, _⟩
  · have hnd := hcons.nodup
    rw [hn] at hnd
    exact absurd hnd (by decide)
  · exact (List.getElem?_eq_some_iff.mp hi).1

end Runtime
end Facade
end RayX
