import Mathlib.Data.List.Nodup
import Mathlib.Logic.Function.Iterate
import RayX.Lib.Run

/-!
# Graphs of futures

A finite graph of tasks launched in the order of their numbers.  Task `k` waits for the futures of
the earlier tasks `deps` and then computes its value from theirs; which of the tasks that are ready
fires next is up to the scheduler.

* `FutureGraph`, `FutureGraph.fire`   the graph, and one task that fires;
* `FutureGraph.Solves`                the values that the equations of the graph give;
* `FutureGraph.progress`              **a graph that is not done has a task to fire**;
* `FutureGraph.Yields`                what holds of every schedule of a graph: each task fires at most
                                      once and after the tasks it waits for, no schedule is stuck
                                      before all have fired, and task `k` gets the value `v`;
* `FutureGraph.yields`                **a solution is what every schedule computes**;
* `fanIn`, `chain`                    independent tasks with a join, and a chain of continuations.
-/

namespace Sys

/-- a task: the futures it waits for, and its value from theirs -/
structure FutureNode (β : Type*) where
  deps : List Nat
  fn : List β → β

structure FutureGraph (β : Type*) where
  size : Nat
  node : Nat → FutureNode β
  earlier : ∀ k < size, ∀ d ∈ (node k).deps, d < k

/-- the values of the futures `ds`, if all of them are ready -/
def readyValues {β : Type*} (s : Nat → Option β) : List Nat → Option (List β)
  | [] => some []
  | d :: ds => (s d).bind fun v => (readyValues s ds).map fun vs => v :: vs

namespace FutureGraph

section
variable {β : Type*}

/-- no task has fired -/
def idle : Nat → Option β := fun _ => none

/-- task `k` fires: it has not yet, and what it waits for is ready -/
def fire (g : FutureGraph β) (s : Nat → Option β) (k : Nat) : Option (Nat → Option β) :=
  if k < g.size ∧ (s k).isNone then
    (readyValues s (g.node k).deps).map fun vs => Function.update s k (some ((g.node k).fn vs))
  else none

/-- the values `val` satisfy the equation of every task -/
def Solves (g : FutureGraph β) (val : Nat → β) : Prop :=
  ∀ k < g.size, val k = (g.node k).fn ((g.node k).deps.map val)

variable {g : FutureGraph β} {s s' : Nat → Option β} {val : Nat → β} {k : Nat}

theorem readyValues_map {ds : List Nat} {vs : List β} (hs : ∀ j v, s j = some v → v = val j)
    (h : readyValues s ds = some vs) : vs = ds.map val := by
  induction ds generalizing vs with
  | nil =>
    cases h
    rfl
  | cons d ds ih =>
    obtain ⟨v, hv, h⟩ := Option.bind_eq_some_iff.mp h
    obtain ⟨ws, hws, h⟩ := Option.map_eq_some_iff.mp h
    rw [← h, ih hws, hs d v hv, List.map_cons]

theorem readyValues_mem {ds : List Nat} {vs : List β} (h : readyValues s ds = some vs) :
    ∀ d ∈ ds, s d ≠ none := by
  induction ds generalizing vs with
  | nil =>
    intro d hd
    cases hd
  | cons d ds ih =>
    obtain ⟨v, hv, h⟩ := Option.bind_eq_some_iff.mp h
    obtain ⟨ws, hws, h⟩ := Option.map_eq_some_iff.mp h
    intro e he
    rcases List.mem_cons.mp he with rfl | he
    · rw [hv]
      exact Option.some_ne_none v
    · exact ih hws e he

theorem readyValues_of_mem {ds : List Nat} (h : ∀ d ∈ ds, s d ≠ none) :
    ∃ vs, readyValues s ds = some vs := by
  induction ds with
  | nil => exact ⟨[], rfl⟩
  | cons d ds ih =>
    obtain ⟨v, hv⟩ := Option.ne_none_iff_exists'.mp (h d List.mem_cons_self)
    obtain ⟨vs, hvs⟩ := ih (fun e he => h e (List.mem_cons_of_mem d he))
    refine ⟨v :: vs, ?_⟩
    rw [readyValues, hv, hvs]
    rfl

/-- **What a task that fires does.** -/
theorem fire_cases (h : g.fire s k = some s') : k < g.size ∧ s k = none ∧
    ∃ vs, readyValues s (g.node k).deps = some vs ∧
      s' = Function.update s k (some ((g.node k).fn vs)) := by
  unfold fire at h
  split at h
  · rename_i hk
    obtain ⟨vs, hvs, h⟩ := Option.map_eq_some_iff.mp h
    exact ⟨hk.1, Option.isNone_iff_eq_none.mp hk.2, vs, hvs, h.symm⟩
  · cases h

theorem fire_of_ready (hk : k < g.size) (hs : s k = none) (h : ∀ d ∈ (g.node k).deps, s d ≠ none) :
    ∃ s', g.fire s k = some s' := by
  obtain ⟨vs, hvs⟩ := readyValues_of_mem h
  refine ⟨Function.update s k (some ((g.node k).fn vs)), ?_⟩
  rw [fire, if_pos ⟨hk, Option.isNone_iff_eq_none.mpr hs⟩, hvs]
  rfl

/-! ## what every schedule keeps -/

/-- a future that is ready has the value of its equation, and so have those it waited for -/
structure Sound (g : FutureGraph β) (val : Nat → β) (s : Nat → Option β) : Prop where
  value : ∀ j v, s j = some v → v = val j
  after : ∀ j, s j ≠ none → ∀ d ∈ (g.node j).deps, s d ≠ none

theorem sound_idle : Sound g val idle := by
  constructor
  · intro j v h
    cases h
  · intro j h
    exact absurd rfl h

theorem Sound.fire (hval : g.Solves val) (hs : Sound g val s) (h : g.fire s k = some s') :
    Sound g val s' := by
  obtain ⟨hk, hnone, vs, hvs, rfl⟩ := fire_cases h
  have hv : (g.node k).fn vs = val k := by
    rw [readyValues_map hs.value hvs]
    exact (hval k hk).symm
  -- a ready future stays ready
  have hmono : ∀ d, s d ≠ none → Function.update s k (some ((g.node k).fn vs)) d ≠ none := by
    intro d hd
    by_cases hdk : d = k
    · rw [hdk, Function.update_self]
      exact Option.some_ne_none _
    · rw [Function.update_of_ne hdk]
      exact hd
  constructor
  · intro j v hj
    by_cases hjk : j = k
    · rw [hjk, Function.update_self] at hj
      cases hj
      rw [hjk, hv]
    · rw [Function.update_of_ne hjk] at hj
      exact hs.value j v hj
  · intro j hj d hd
    by_cases hjk : j = k
    · rw [hjk] at hd
      exact hmono d (readyValues_mem hvs d hd)
    · rw [Function.update_of_ne hjk] at hj
      exact hmono d (hs.after j hj d hd)

theorem sound_run (hval : g.Solves val) {ks : List Nat} (h : run g.fire idle ks = some s) :
    Sound g val s :=
  run_inv (fun _ _ _ hs hf => hs.fire hval hf) h sound_idle

/-- the tasks fired so far are those whose futures are ready, each once -/
theorem fired_run {ks : List Nat} (h : run g.fire idle ks = some s) :
    ks.Nodup ∧ (∀ k ∈ ks, k < g.size) ∧ ∀ k, s k ≠ none ↔ k ∈ ks := by
  refine run_history (C := fun _ _ => True)
    (P := fun ks s => ks.Nodup ∧ (∀ k ∈ ks, k < g.size) ∧ ∀ k, s k ≠ none ↔ k ∈ ks)
    ?_ ?_ (stepsMeet_labels _ _ _ (fun _ _ => trivial)) h
  · rintro ks s k s' _ ⟨hnd, hsize, hmem⟩ _ hf
    obtain ⟨hk, hnone, vs, _, rfl⟩ := fire_cases hf
    have hnew : k ∉ ks := fun hin => (hmem k).mpr hin hnone
    refine ⟨?_, ?_, ?_⟩
    · rw [List.nodup_append]
      refine ⟨hnd, List.nodup_singleton k, ?_⟩
      rintro a ha b hb rfl
      exact hnew (List.mem_singleton.mp hb ▸ ha)
    · intro j hj
      rcases List.mem_append.mp hj with hj | hj
      · exact hsize j hj
      · rw [List.mem_singleton.mp hj]
        exact hk
    · intro j
      rw [List.mem_append, List.mem_singleton]
      by_cases hjk : j = k
      · rw [hjk, Function.update_self]
        exact iff_of_true (Option.some_ne_none _) (Or.inr rfl)
      · rw [Function.update_of_ne hjk, hmem j]
        exact ⟨Or.inl, fun h => h.resolve_right hjk⟩
  · refine ⟨List.nodup_nil, ?_, ?_⟩
    · intro k hk
      cases hk
    · intro k
      exact iff_of_false (fun h => h rfl) (List.not_mem_nil)

/-- **Progress.**  As long as a task has not fired, one of them can. -/
theorem progress (hk : k < g.size) (hs : s k = none) : ∃ j s', g.fire s j = some s' := by
  induction k using Nat.strongRecOn with
  | ind k ih =>
    -- the task itself can fire, or an earlier one that it waits for cannot have
    by_cases hd : ∀ d ∈ (g.node k).deps, s d ≠ none
    · obtain ⟨s', hs'⟩ := fire_of_ready hk hs hd
      exact ⟨k, s', hs'⟩
    · push Not at hd
      obtain ⟨d, hmem, hnone⟩ := hd
      have hlt := g.earlier k hk d hmem
      exact ih d hlt (by omega) hnone

/-- **Every schedule of the graph.**  No schedule fires a task twice, or before the tasks it waits
for; none ends before all the tasks have fired; whenever task `k` has, its value is `v`. -/
structure Yields (g : FutureGraph β) (k : Nat) (v : β) : Prop where
  once : ∀ ks s, run g.fire idle ks = some s → ks.Nodup ∧ ∀ j ∈ ks, j < g.size
  after : ∀ ks s, run g.fire idle ks = some s →
    ∀ j, s j ≠ none → ∀ d ∈ (g.node j).deps, s d ≠ none
  live : ∀ ks s, run g.fire idle ks = some s → s k = none → ∃ j s', g.fire s j = some s'
  value : ∀ ks s x, run g.fire idle ks = some s → s k = some x → x = v

theorem yields (hval : g.Solves val) (hk : k < g.size) : g.Yields k (val k) where
  once _ _ h := ⟨(fired_run h).1, (fired_run h).2.1⟩
  after _ _ h := (sound_run hval h).after
  live _ _ _ hs := progress hk hs
  value _ _ x h hx := (sound_run hval h).value k x hx

/-! ## two shapes -/

/-- `parts` independent tasks, and a task that joins their values in the order of the launch -/
def fanIn (parts : Nat) (leaf : Nat → β) (join : List β → β) : FutureGraph β where
  size := parts + 1
  node k := if k < parts then ⟨[], fun _ => leaf k⟩ else ⟨List.range parts, join⟩
  earlier := by
    intro k hk d hd
    by_cases hlt : k < parts
    · rw [if_pos hlt] at hd
      cases hd
    · rw [if_neg hlt] at hd
      have := List.mem_range.mp hd
      omega

theorem fanIn_yields (parts : Nat) (leaf : Nat → β) (join : List β → β) :
    (fanIn parts leaf join).Yields parts (join ((List.range parts).map leaf)) := by
  have hsolve : (fanIn parts leaf join).Solves
      (fun k => if k < parts then leaf k else join ((List.range parts).map leaf)) := by
    intro k _
    by_cases hlt : k < parts
    · simp only [fanIn, if_pos hlt]
    · simp only [fanIn, if_neg hlt]
      congr 1
      refine List.map_congr_left (fun d hd => ?_)
      rw [if_pos (List.mem_range.mp hd)]
  have h := yields hsolve (show parts < parts + 1 by omega)
  rw [if_neg (Nat.lt_irrefl parts)] at h
  exact h

/-- a ready future, and `steps` continuations, each on the one before -/
def chain (steps : Nat) (x : β) (f : β → β) : FutureGraph β where
  size := steps + 1
  node
    | 0 => ⟨[], fun _ => x⟩
    | k + 1 => ⟨[k], fun vs => f (vs.headD x)⟩
  earlier := by
    intro k _ d hd
    cases k with
    | zero => cases hd
    | succ k =>
      rw [List.mem_singleton.mp hd]
      exact Nat.lt_succ_self k

theorem chain_yields (steps : Nat) (x : β) (f : β → β) :
    (chain steps x f).Yields steps (f^[steps] x) := by
  have hsolve : (chain steps x f).Solves (fun k => f^[k] x) := by
    intro k _
    cases k with
    | zero => rfl
    | succ k => exact Function.iterate_succ_apply' f k x
  exact yields hsolve (show steps < steps + 1 by omega)

end

end FutureGraph

end Sys
