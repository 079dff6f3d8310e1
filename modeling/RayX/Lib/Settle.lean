import RayX.Lib.Run
import RayX.Lib.Prog
import Mathlib.Data.Multiset.DershowitzManna
import Mathlib.SetTheory.Ordinal.Family
import Mathlib.Algebra.BigOperators.Group.Finset.Piecewise

/-!
# Systems that come to rest

Some labels of a step function are the system's own moves, the others belong to its environment.

* `Rests`, `Endless`        no own move is enabled, and a run of own moves without end;
* `not_endless`             a measure that every own move lowers: no run of them is endless;
* `comes_to_rest`           .. and some run of them ends in a state that rests;
* `Work`                    multisets of pending pieces of work; `Work.replace` and `Work.frame` for
                            the piece that a move works on;
* `Prog.rank`, `rank_step`  an effect of a body lowers its rank.
-/

namespace Sys

section
variable {σ α : Type*} (step : σ → α → Option σ) (own : α → Bool)

def Rests (s : σ) : Prop := ∀ a, own a = true → step s a = none

def Endless (s : σ) : Prop :=
  ∃ f : Nat → σ, f 0 = s ∧ ∀ n, ∃ a, own a = true ∧ step (f n) a = some (f (n + 1))

/-- the run is one of own moves -/
def Own (as : List α) : Prop := ∀ a ∈ as, own a = true

variable {step own} {β : Type*} {r : β → β → Prop} {μ : σ → β} {I : σ → Prop}

theorem not_endless (hr : WellFounded r) (hI : ∀ s a s', I s → step s a = some s' → I s')
    (hμ : ∀ s a s', I s → own a = true → step s a = some s' → r (μ s') (μ s)) {s : σ} (h : I s) :
    ¬ Endless step own s := by
  rintro ⟨f, rfl, hf⟩
  have hinv : ∀ n, I (f n) := by
    intro n
    induction n with
    | zero => exact h
    | succ n ih =>
      obtain ⟨a, _, hs⟩ := hf n
      exact hI _ a _ ih hs
  have hdown : ∀ n, r (μ (f (n + 1))) (μ (f n)) := by
    intro n
    obtain ⟨a, ha, hs⟩ := hf n
    exact hμ _ a _ (hinv n) ha hs
  -- the least value of the measure has one below it
  obtain ⟨m, ⟨k, hk⟩, hmin⟩ := hr.has_min (Set.range fun n => μ (f n)) ⟨_, 0, rfl⟩
  refine hmin _ ⟨k + 1, rfl⟩ ?_
  rw [← hk]
  exact hdown k

theorem comes_to_rest (hr : WellFounded r) (hI : ∀ s a s', I s → step s a = some s' → I s')
    (hμ : ∀ s a s', I s → own a = true → step s a = some s' → r (μ s') (μ s)) {s : σ} (h : I s) :
    ∃ as s', Own own as ∧ run step s as = some s' ∧ Rests step own s' := by
  by_cases hrest : Rests step own s
  · exact ⟨[], s, fun _ ha => absurd ha List.not_mem_nil, rfl, hrest⟩
  · simp only [Rests, not_forall] at hrest
    obtain ⟨a, ha, hs⟩ := hrest
    obtain ⟨m, hm⟩ := Option.ne_none_iff_exists'.mp hs
    have hlt := hμ s a m h ha hm
    obtain ⟨as, s', hown, hrun, hrests⟩ := comes_to_rest hr hI hμ (hI s a m h hm)
    refine ⟨a :: as, s', ?_, run_cons.mpr ⟨m, hm, hrun⟩, hrests⟩
    intro b hb
    rcases List.mem_cons.mp hb with rfl | hb
    · exact ha
    · exact hown b hb
termination_by hr.wrap (μ s)
decreasing_by exact hlt

end

/-! ## pending work -/

/-- two pieces of work are some -/
theorem Work.two {α : Type*} (y z : α) : ({y} + {z} : Multiset α) ≠ ∅ := by
  intro h
  have hy : y ∈ ({y} + {z} : Multiset α) := Multiset.mem_cons_self y {z}
  rw [h] at hy
  exact Multiset.notMem_zero y hy

/-- the work of a family of components, with one of them set apart -/
theorem Work.split {α β : Type*} (w : β → Multiset α) (f : Nat → β) {n i : Nat} (hi : i < n) :
    ∃ X, ∑ j ∈ Finset.range n, w (f j) = X + w (f i) ∧
      ∀ v, ∑ j ∈ Finset.range n, w (Function.update f i v j) = X + w v := by
  have hmem : i ∈ Finset.range n := Finset.mem_range.mpr hi
  have hupd : ∀ v, ∑ j ∈ Finset.range n, w (Function.update f i v j) =
      (∑ j ∈ Finset.range n \ {i}, w (f j)) + w v := by
    intro v
    have hcomp : (fun j => w (Function.update f i v j)) = Function.update (fun j => w (f j)) i (w v) :=
      Function.comp_update w f i v
    rw [hcomp, Finset.sum_update_of_mem hmem, add_comm]
  refine ⟨_, ?_, hupd⟩
  rw [← hupd (f i), Function.update_eq_self]

section
variable {α : Type*} [Preorder α] {M N X Y Z : Multiset α}

/-- some pieces of work are replaced by smaller ones -/
abbrev Work.Less (M N : Multiset α) : Prop := Multiset.IsDershowitzMannaLT M N

/-- one piece of work is done, or is replaced by smaller ones -/
theorem Work.replace {z : α} (X : Multiset α) (h : ∀ y ∈ Y, y < z) : Work.Less (X + Y) (X + {z}) :=
  ⟨X, Y, {z}, Multiset.singleton_ne_zero z, rfl, rfl,
    fun y hy => ⟨z, Multiset.mem_singleton_self z, h y hy⟩⟩

/-- the rest of the work is as it was -/
theorem Work.frame (X : Multiset α) (h : Work.Less M N) : Work.Less (X + M) (X + N) := by
  obtain ⟨W, Y, Z, hZ, rfl, rfl, hlt⟩ := h
  exact ⟨X + W, Y, Z, hZ, (add_assoc X W Y).symm, (add_assoc X W Z).symm, hlt⟩

/-- one component of a list of components has done some work -/
theorem Work.set {β : Type*} {f : β → Multiset α} {xs : List β} {i : Nat} {x y : β}
    (hx : xs[i]? = some x) (h : Work.Less (f y) (f x)) :
    Work.Less ((xs.set i y).map f).sum (xs.map f).sum := by
  induction xs generalizing i with
  | nil => cases hx
  | cons w xs ih =>
    cases i with
    | zero =>
      cases hx
      show Work.Less (f y + (xs.map f).sum) (f x + (xs.map f).sum)
      rw [add_comm (f y), add_comm (f x)]
      exact Work.frame _ h
    | succ i => exact Work.frame (f w) (ih hx)

end

/-! ## the rank of a body -/

namespace Prog
variable {σ ε α : Type}

noncomputable def rank : Prog σ ε α → Ordinal.{0}
  | ret _ => 0
  | throw _ => 0
  | poll _ k => ⨆ b, (k b).rank + 1
  | now k => ⨆ t, (k t).rank + 1
  | sleep _ k => k.rank + 1
  | load k => ⨆ s, (k s).rank + 1
  | store _ k => k.rank + 1

theorem rank_lt_iSup {ι : Type} (f : ι → Ordinal.{0}) (i : ι) : f i < ⨆ j, f j + 1 :=
  Ordinal.lt_iSup_iff.mpr ⟨i, Order.lt_add_one_iff.mpr le_rfl⟩

/-- **An effect of a body lowers its rank.** -/
theorem rank_step {τ : Type} {stop : τ → Bool → τ × Bool} {t : Int64} {p p' : Prog σ ε α}
    {s s' : σ} {u u' : τ} (h : p.step stop t s u = some (p', s', u')) : p'.rank < p.rank := by
  cases p with
  | ret a => cases h
  | throw e => cases h
  | poll fin k =>
    cases h
    exact rank_lt_iSup (fun b => (k b).rank) _
  | now k =>
    cases h
    exact rank_lt_iSup (fun t => (k t).rank) _
  | sleep ms k =>
    cases h
    exact Order.lt_add_one_iff.mpr le_rfl
  | load k =>
    cases h
    exact rank_lt_iSup (fun s => (k s).rank) _
  | store s' k =>
    cases h
    exact Order.lt_add_one_iff.mpr le_rfl

end Prog

end Sys
