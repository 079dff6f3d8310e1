import Mathlib.Algebra.Order.BigOperators.Group.List
import Mathlib.Algebra.Order.Group.Nat
import RayX.Bench.Drivers

/-!
# The window of several clients

How many requests the client threads hold together, in `dispatch_one_by_one_threaded` and in
`_run_one_by_one_threaded`.

* `inFlight`              submitted and not yet retired;
* `Held`                  the total is at most `--concurrency` in every run, and the windows add up to it;
* `windows_sum`, `windows_floor`   the sum of the windows, for few and for many threads;
* `inFlight_le_windows`   no run holds more than the windows together;
* `fill_all`              each thread may submit before any request is retired;
* `concurrency_held_iff`  **the total is held exactly when there are no more threads than
                          `--concurrency`**.
-/

namespace RayX
namespace Bench
open Sys

section
variable {E : Type} {cl : Client E}

def inFlight (ps : List (Party cl)) : Nat := (ps.map fun p => p.inflight.length).sum

def windowSum (loops : List (Loop cl)) : Nat := (loops.map fun lp => lp.window.getD 0).sum

/-- in every run, with any order of completions and any interleaving of the threads -/
structure Held (concurrency lanes : Nat) (loops : List (Loop cl)) : Prop where
  bounded : ∀ (ready : Completion) (who : Nat → Nat) (rr t : Nat),
    inFlight (stateAt lanes ready who loops rr t).1 ≤ concurrency
  windows : windowSum loops = concurrency

/-! ## the sum of the windows -/

theorem sum_range_succ (g : Nat → Nat) (t : Nat) :
    ((List.range (t + 1)).map g).sum = ((List.range t).map g).sum + g t := by
  rw [List.range_succ, List.map_append, List.sum_append, List.map_singleton, List.sum_singleton]

/-- with a request or more for each thread the first `concurrency % t` of them get one more -/
theorem windows_sum {concurrency t : Nat} (ht : 0 < t) (h : t ≤ concurrency) :
    ((List.range t).map (windowOf concurrency t)).sum = concurrency := by
  have hquot : 0 < concurrency / t := Nat.div_pos h ht
  have hfirst : ∀ m, ((List.range m).map (windowOf concurrency t)).sum
      = m * (concurrency / t) + min (concurrency % t) m := by
    intro m
    induction m with
    | zero =>
      rw [Nat.zero_mul, Nat.min_zero]
      rfl
    | succ m ih =>
      have hwin : windowOf concurrency t m
          = concurrency / t + if m < concurrency % t then 1 else 0 := Nat.max_eq_right (by omega)
      rw [sum_range_succ, ih, hwin, Nat.succ_mul]
      by_cases hm : m < concurrency % t
      · rw [if_pos hm]
        omega
      · rw [if_neg hm]
        omega
  rw [hfirst t, Nat.min_eq_left (Nat.le_of_lt (Nat.mod_lt _ ht))]
  exact Nat.div_add_mod concurrency t

/-- with more threads than `concurrency` every window is the floor of one -/
theorem windows_floor {concurrency t : Nat} (h : concurrency < t) :
    ((List.range t).map (windowOf concurrency t)).sum = t := by
  have hone : ∀ k, windowOf concurrency t k = 1 := by
    intro k
    rw [windowOf, Nat.div_eq_of_lt h]
    split
    · rfl
    · rfl
  have hall : ∀ m, ((List.range m).map (windowOf concurrency t)).sum = m := by
    intro m
    induction m with
    | zero => rfl
    | succ m ih => rw [sum_range_succ, ih, hone]
  exact hall t

/-! ## no run holds more -/

variable {lanes : Nat} {loops : List (Loop cl)}

theorem set_same {α : Type} {l : List α} {k : Nat} {a : α} (h : l[k]? = some a) : l.set k a = l := by
  obtain ⟨hk, rfl⟩ := List.getElem?_eq_some_iff.mp h
  exact List.set_getElem_self hk

/-- each client is in its own loop and fits its window -/
def Windowed (loops : List (Loop cl)) (c : List (Party cl) × World) : Prop :=
  c.1.map Party.loop = loops ∧ ∀ p ∈ c.1, p.Fits

theorem windowed_at (ready : Completion) (who : Nat → Nat) (rr t : Nat) :
    Windowed loops (stateAt lanes ready who loops rr t) := by
  refine Turns.exec_inv (Windowed loops) ⟨?_, fun p hp => ?_⟩
    (fun t k p p' w' c hc hk hm => ?_) t
  · show (loops.map Party.start).map Party.loop = loops
    rw [List.map_map]
    exact List.map_id loops
  · obtain ⟨lp, _, rfl⟩ := List.mem_map.mp hp
    intro n hn
    exact Nat.zero_le n
  · have hmoves := move_cases hm
    refine ⟨?_, forall_set hc.2 (fits_move (hc.2 p (List.mem_of_getElem? hk)) hmoves)
      fun _ hq => hq⟩
    show (c.1.set k p').map Party.loop = loops
    rw [List.map_set, move_loop hmoves, ← hc.1]
    exact set_same (by rw [List.getElem?_map, hk]; rfl)

theorem fits_window {p : Party cl} (hp : p.Fits) (hwin : p.loop.window ≠ none) :
    p.inflight.length ≤ p.loop.window.getD 0 := by
  cases hn : p.loop.window with
  | none => exact absurd hn hwin
  | some n =>
    have hfit := hp n hn
    show p.inflight.length ≤ n
    cases hphase : p.phase with
    | refilling j =>
      rw [hphase] at hfit
      exact Nat.le_trans (Nat.le_add_right _ _) hfit
    | filling =>
      rw [hphase] at hfit
      exact hfit
    | waiting =>
      rw [hphase] at hfit
      exact hfit
    | returned =>
      rw [hphase] at hfit
      exact hfit

theorem inFlight_le_windows (hwin : ∀ lp ∈ loops, lp.window ≠ none) (ready : Completion)
    (who : Nat → Nat) (rr t : Nat) :
    inFlight (stateAt lanes ready who loops rr t).1 ≤ windowSum loops := by
  have hw : Windowed loops (stateAt lanes ready who loops rr t) := windowed_at ready who rr t
  generalize stateAt lanes ready who loops rr t = c at hw ⊢
  obtain ⟨rfl, hfits⟩ := hw
  rw [windowSum, List.map_map]
  exact List.sum_le_sum fun p hp => fits_window (hfits p hp)
    (hwin p.loop (List.mem_map_of_mem hp))

/-! ## a run that fills all -/

/-- the first action of a client with something to submit -/
theorem first_move (lanes : Nat) (ready : Completion) (t : Nat) (lp : Loop cl) (w : World)
    (h : lp.first < lp.stop) :
    ∃ p' w', Party.move lanes ready t (Party.start lp) w = some (p', w') ∧
      p'.inflight.length = 1 := by
  have hroom : lp.room [] = true := by
    unfold Loop.room
    cases hn : lp.window with
    | none => rfl
    | some n => exact decide_eq_true (lp.window_pos n hn)
  refine ⟨_, _, if_pos ⟨h, hroom⟩, rfl⟩

/-- **Each thread may submit before any request is retired.** -/
theorem fill_all (hne : ∀ lp ∈ loops, lp.first < lp.stop) (ready : Completion) (rr : Nat) {m : Nat}
    (hm : m ≤ loops.length) :
    inFlight (stateAt lanes ready id loops rr m).1 = m ∧
      ∀ k, m ≤ k → (stateAt lanes ready id loops rr m).1[k]? = (loops.map Party.start)[k]? := by
  induction m with
  | zero =>
    refine ⟨?_, fun k _ => rfl⟩
    show ((loops.map Party.start).map fun p => p.inflight.length).sum = 0
    rw [List.map_map]
    show (loops.map fun _ => 0).sum = 0
    rw [List.map_const', List.sum_replicate_nat, Nat.mul_zero]
  | succ m ih =>
    obtain ⟨hcount, hrest⟩ := ih (by omega)
    have hlt : m < loops.length := by omega
    have hat : (stateAt lanes ready id loops rr m).1[m]? = some (Party.start loops[m]) := by
      rw [hrest m (Nat.le_refl m), List.getElem?_map, List.getElem?_eq_getElem hlt]
      rfl
    obtain ⟨p', w', hmove, hone⟩ := first_move lanes ready m loops[m]
      (stateAt lanes ready id loops rr m).2 (hne _ (List.getElem_mem hlt))
    have hstep : stateAt lanes ready id loops rr (m + 1)
        = ((stateAt lanes ready id loops rr m).1.set m p', w') := Turns.turn_eq hat hmove
    have hsum := Turns.sum_set (fun p : Party cl => p.inflight.length) hat p'
    have hzero : (Party.start loops[m]).inflight.length = 0 := rfl
    rw [hstep]
    refine ⟨?_, fun k hk => ?_⟩
    · unfold inFlight at hcount
      show (((stateAt lanes ready id loops rr m).1.set m p').map fun p => p.inflight.length).sum
        = m + 1
      omega
    · rw [List.getElem?_set_ne (by omega)]
      exact hrest k (by omega)

/-- an even split of the window over the threads: held exactly when there are enough requests in it -/
theorem held_iff {concurrency t : Nat} (ht : 0 < t) (hlen : loops.length = t)
    (hwin : loops.map Loop.window = (List.range t).map fun k => some (windowOf concurrency t k))
    (hne : concurrency < t → ∀ lp ∈ loops, lp.first < lp.stop) :
    Held concurrency lanes loops ↔ t ≤ concurrency := by
  have hsum : windowSum loops = ((List.range t).map (windowOf concurrency t)).sum := by
    have hmap : loops.map (fun lp => lp.window.getD 0)
        = (loops.map Loop.window).map fun n => n.getD 0 := by
      rw [List.map_map]
      rfl
    rw [windowSum, hmap, hwin, List.map_map]
    rfl
  have hsome : ∀ lp ∈ loops, lp.window ≠ none := by
    intro lp hlp hnone
    have hmem : lp.window ∈ loops.map Loop.window := List.mem_map_of_mem hlp
    rw [hwin] at hmem
    obtain ⟨k, _, hk⟩ := List.mem_map.mp hmem
    rw [hnone] at hk
    cases hk
  constructor
  · intro h
    refine Nat.le_of_not_lt fun hlt => ?_
    have hbound := h.bounded (fun _ _ => false) id 0 t
    rw [(fill_all (hne hlt) _ 0 (Nat.le_of_eq hlen.symm)).1] at hbound
    omega
  · intro hle
    have hall : windowSum loops = concurrency := hsum.trans (windows_sum ht hle)
    refine ⟨fun ready who rr t' => ?_, hall⟩
    rw [← hall]
    exact inFlight_le_windows hsome ready who rr t'

end

/-! ## the two drivers -/

/-- with no more threads than requests no block is empty -/
theorem block_nonempty {count t : Nat} (ht : 0 < t) (h : t ≤ count) (k : Nat) :
    blockStart count t k < blockStart count t (k + 1) := by
  have hle : count * k + t ≤ count * (k + 1) := by
    rw [Nat.mul_succ]
    exact Nat.add_le_add_left h _
  calc count * k / t < count * k / t + 1 := Nat.lt_succ_self _
    _ = (count * k + t) / t := (Nat.add_div_right _ ht).symm
    _ ≤ count * (k + 1) / t := Nat.div_le_div_right hle

/-- more threads than the window has requests: there are at least as many requests -/
theorem threadCount_le {clientThreads count concurrency : Nat} (hc : 0 < concurrency)
    (h : concurrency < threadCount clientThreads count) :
    threadCount clientThreads count ≤ count := by
  unfold threadCount at h ⊢
  omega

theorem native_held_iff (opt : Native.Options) (count : Nat) (record : Bool) :
    Held opt.concurrency opt.numLanes (Native.dispatchOneByOneThreaded opt count record) ↔
      threadCount opt.clientThreads count ≤ opt.concurrency := by
  have ht := threadCount_pos (n := count) opt.clientThreads_pos
  refine held_iff ht ?_ ?_ fun hlt lp hlp => ?_
  · exact (List.length_map _).trans List.length_range
  · exact List.map_map
  · obtain ⟨k, _, rfl⟩ := List.mem_map.mp hlp
    exact block_nonempty ht (threadCount_le opt.concurrency_pos hlt) k

theorem python_held_iff (args : Python.Args) (indices : List Nat) (record : Bool) :
    Held args.concurrency args.numLanes
        (Python.runOneByOneThreaded args indices record args.clientThreads) ↔
      threadCount args.clientThreads indices.length ≤ args.concurrency := by
  have ht := threadCount_pos (n := indices.length) args.clientThreads_pos
  refine held_iff ht ?_ ?_ fun hlt lp hlp => ?_
  · exact (List.length_map _).trans List.length_range
  · exact List.map_map
  · obtain ⟨k, hk, rfl⟩ := List.mem_map.mp hlp
    have hle := threadCount_le args.concurrency_pos hlt
    show 0 < List.length _
    rw [List.length_drop, List.length_take,
      Nat.min_eq_left (blockStart_le (List.mem_range.mp hk))]
    exact Nat.sub_pos_of_lt (block_nonempty ht hle k)

/-- **The total in flight is held at `--concurrency`**, and the windows add up to it, exactly when
there are no more client threads than that. -/
theorem concurrency_held_iff (opt : Native.Options) (args : Python.Args) (count : Nat)
    (indices : List Nat) (record : Bool) :
    (Held opt.concurrency opt.numLanes (Native.dispatchOneByOneThreaded opt count record) ↔
      min opt.clientThreads (max 1 count) ≤ opt.concurrency) ∧
    (Held args.concurrency args.numLanes
        (Python.runOneByOneThreaded args indices record args.clientThreads) ↔
      min args.clientThreads (max 1 indices.length) ≤ args.concurrency) :=
  ⟨native_held_iff opt count record, python_held_iff args indices record⟩

/-- a window of one for two client threads -/
def Native.narrow : Native.Options where
  service := { serviceMs := 5 }
  concurrency := 1
  waitBatch := 8
  numLanes := 1
  clientThreads := 2
  concurrency_pos := Nat.zero_lt_one
  waitBatch_pos := by decide
  numLanes_pos := Nat.zero_lt_one
  clientThreads_pos := Nat.two_pos
  seed := 42

/-- two requests are in flight at once, and the windows are 1 and 1 -/
theorem narrow_overfull :
    inFlight (stateAt 1 (fun _ _ => false) id (Native.dispatchOneByOneThreaded Native.narrow 2 true)
      0 2).1 = 2 ∧
    windowSum (Native.dispatchOneByOneThreaded Native.narrow 2 true) = 2 ∧
    ¬ Held 1 1 (Native.dispatchOneByOneThreaded Native.narrow 2 true) :=
  ⟨rfl, rfl, fun h => absurd h.windows (by decide)⟩

end Bench
end RayX
