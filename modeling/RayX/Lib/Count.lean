import Mathlib.Data.Set.Card
import Mathlib.Logic.Function.Basic

/-!
# Counting the holders of a resource

`f : α → Option β` says what each of any number of parties holds.  The number of holders follows
the updates of `f`.

* `holders f`                who holds something;
* `count_take`, `count_give`   one more and one fewer holder;
* `count_swap`               a holder that holds something else;
* `count_zero`               nobody holds anything;
* `total n w f`              the weights of the first `n` components of a family, and
                             `total_update` for one of them that moves.
-/

namespace Sys

section
variable {α β : Type*} {f : α → Option β} {a : α} {b : β}

def holders (f : α → Option β) : Set α := {a | f a ≠ none}

theorem mem_holders : a ∈ holders f ↔ f a ≠ none := Iff.rfl

variable [DecidableEq α]

theorem holders_update_some : holders (Function.update f a (some b)) = insert a (holders f) := by
  ext x
  by_cases hx : x = a
  · simp [hx, holders]
  · simp [hx, holders]

theorem holders_update_none : holders (Function.update f a none) = holders f \ {a} := by
  ext x
  by_cases hx : x = a
  · simp [hx, holders]
  · simp [hx, holders]

variable {n : Nat}

theorem count_take (h : f a = none) (hn : (holders f).encard = n) :
    (holders (Function.update f a (some b))).encard = (n + 1 : Nat) := by
  have hnot : a ∉ holders f := fun ha => mem_holders.mp ha h
  rw [holders_update_some, Set.encard_insert_of_notMem hnot, hn]
  rfl

theorem count_give (h : f a ≠ none) (hn : (holders f).encard = n) :
    0 < n ∧ (holders (Function.update f a none)).encard = (n - 1 : Nat) := by
  have hsum := Set.encard_sdiff_singleton_add_one (mem_holders.mpr h)
  rw [hn, ← holders_update_none] at hsum
  have hpos : 0 < n := by
    by_contra hz
    rw [Nat.eq_zero_of_not_pos hz] at hsum
    simp at hsum
  refine ⟨hpos, ENat.add_left_injective_of_ne_top ENat.one_ne_top ?_⟩
  show (holders (Function.update f a none)).encard + 1 = ((n - 1 : Nat) : ℕ∞) + 1
  rw [hsum]
  exact_mod_cast (Nat.sub_add_cancel hpos).symm

theorem count_swap (h : f a ≠ none) (hn : (holders f).encard = n) :
    (holders (Function.update f a (some b))).encard = n := by
  rw [holders_update_some, Set.insert_eq_of_mem h, hn]

omit [DecidableEq α] in
theorem count_zero (hn : (holders f).encard = (0 : Nat)) (a : α) : f a = none := by
  have hempty : holders f = ∅ := Set.encard_eq_zero.mp hn
  by_contra ha
  have hmem := mem_holders.mpr ha
  rw [hempty] at hmem
  exact Set.notMem_empty a hmem

end

/-! ## weights of a family -/

section
variable {τ : Type*} {w : τ → Nat} {f : Nat → τ}

/-- the sum of the weights of the components `0 .. n - 1` -/
def total (w : τ → Nat) (f : Nat → τ) : Nat → Nat
  | 0 => 0
  | n + 1 => total w f n + w (f n)

theorem total_succ (n : Nat) : total w f (n + 1) = total w f n + w (f n) := rfl

/-- a component outside does not count -/
theorem total_update_of_le {n j : Nat} (hj : n ≤ j) (x : τ) :
    total w (Function.update f j x) n = total w f n := by
  induction n with
  | zero => rfl
  | succ n ih =>
    have hne : n ≠ j := by omega
    rw [total_succ, total_succ, ih (by omega), Function.update_of_ne hne]

/-- **One component moves**: its old weight goes, its new one comes. -/
theorem total_update {n j : Nat} (hj : j < n) (x : τ) :
    total w (Function.update f j x) n + w (f j) = total w f n + w x := by
  induction n with
  | zero => omega
  | succ n ih =>
    rw [total_succ, total_succ]
    by_cases hjn : j = n
    · rw [← hjn, total_update_of_le (Nat.le_refl j), Function.update_self]
      omega
    · have hne : n ≠ j := fun h => hjn h.symm
      have hrest := ih (by omega)
      rw [Function.update_of_ne hne]
      omega

theorem le_total {n j : Nat} (hj : j < n) : w (f j) ≤ total w f n := by
  induction n with
  | zero => omega
  | succ n ih =>
    rw [total_succ]
    by_cases hjn : j = n
    · rw [hjn]
      omega
    · have hrest := ih (by omega)
      omega

theorem total_zero {n : Nat} (h : ∀ i < n, w (f i) = 0) : total w f n = 0 := by
  induction n with
  | zero => rfl
  | succ n ih =>
    have hlast := h n (Nat.lt_succ_self n)
    rw [total_succ, ih (fun i hi => h i (by omega)), hlast]

theorem total_le (h : ∀ x, w x ≤ 1) (n : Nat) : total w f n ≤ n := by
  induction n with
  | zero => exact Nat.le_refl 0
  | succ n ih =>
    have hlast := h (f n)
    rw [total_succ]
    omega

/-- weights `0` and `1` that sum to `n` are all `1` -/
theorem total_full {n j : Nat} (h : ∀ x, w x ≤ 1) (hn : total w f n = n) (hj : j < n) :
    w (f j) = 1 := by
  induction n with
  | zero => omega
  | succ n ih =>
    have hlast := h (f n)
    have hle := total_le (f := f) h n
    rw [total_succ] at hn
    by_cases hjn : j = n
    · rw [hjn]
      omega
    · exact ih (by omega) (by omega)

theorem total_ones {n : Nat} (h : ∀ i < n, w (f i) = 1) : total w f n = n := by
  induction n with
  | zero => rfl
  | succ n ih =>
    rw [total_succ, ih (fun i hi => h i (by omega)), h n (Nat.lt_succ_self n)]

/-- weights that do not sum to `n` are not all `1` -/
theorem exists_of_total_ne {n : Nat} (hne : total w f n ≠ n) : ∃ j < n, w (f j) ≠ 1 := by
  by_contra hall
  push Not at hall
  exact hne (total_ones hall)

end

end Sys
