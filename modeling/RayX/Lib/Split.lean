import Mathlib.Data.List.Basic
import Mathlib.Data.List.Perm.Basic

/-!
# Splitting a list by position

`splitIdx p i as` has the elements of `as` for which `p` holds, and the others, both in order; the
first element is number `i`.

* `splitIdx_perm`, `splitIdx_sublist`   nothing is lost, nothing comes twice, the order is kept;
* `mem_splitIdx`                        the elements of the first part by their position;
* `countP_le_splitIdx`, `splitIdx_le`   bounds of its length.
-/

namespace Sys
variable {α : Type}

def splitIdx (p : Nat → α → Bool) : Nat → List α → List α × List α
  | _, [] => ([], [])
  | i, a :: as =>
    let r := splitIdx p (i + 1) as
    if p i a then (a :: r.1, r.2) else (r.1, a :: r.2)

theorem splitIdx_cons (p : Nat → α → Bool) (i : Nat) (a : α) (as : List α) :
    splitIdx p i (a :: as) =
      if p i a then (a :: (splitIdx p (i + 1) as).1, (splitIdx p (i + 1) as).2)
      else ((splitIdx p (i + 1) as).1, a :: (splitIdx p (i + 1) as).2) := rfl

theorem splitIdx_perm (p : Nat → α → Bool) (i : Nat) (as : List α) :
    ((splitIdx p i as).1 ++ (splitIdx p i as).2).Perm as := by
  induction as generalizing i with
  | nil => exact .refl _
  | cons a as ih =>
    rw [splitIdx_cons]
    split
    · exact (ih (i + 1)).cons a
    · exact List.perm_middle.trans ((ih (i + 1)).cons a)

theorem splitIdx_sublist (p : Nat → α → Bool) (i : Nat) (as : List α) :
    (splitIdx p i as).1.Sublist as ∧ (splitIdx p i as).2.Sublist as := by
  induction as generalizing i with
  | nil => exact ⟨.refl _, .refl _⟩
  | cons a as ih =>
    obtain ⟨h1, h2⟩ := ih (i + 1)
    rw [splitIdx_cons]
    split
    · exact ⟨h1.cons_cons a, h2.cons a⟩
    · exact ⟨h1.cons a, h2.cons_cons a⟩

theorem mem_splitIdx {p : Nat → α → Bool} {i : Nat} {as : List α} {a : α}
    (h : a ∈ (splitIdx p i as).1) : ∃ j, as[j]? = some a ∧ p (i + j) a = true := by
  induction as generalizing i with
  | nil => cases h
  | cons b as ih =>
    rw [splitIdx_cons] at h
    have htail : a ∈ (splitIdx p (i + 1) as).1 →
        ∃ j, (b :: as)[j]? = some a ∧ p (i + j) a = true := by
      intro ht
      obtain ⟨j, hj, hp⟩ := ih ht
      exact ⟨j + 1, hj, by rw [← hp]; congr 1; omega⟩
    split at h
    · rename_i hb
      rcases List.mem_cons.mp h with rfl | ht
      · exact ⟨0, rfl, hb⟩
      · exact htail ht
    · exact htail h

/-- elements that have `q` are in the first part if `p` follows from it -/
theorem countP_le_splitIdx {p : Nat → α → Bool} {q : α → Bool} {i : Nat} {as : List α}
    (h : ∀ j a, as[j]? = some a → q a = true → p (i + j) a = true) :
    as.countP q ≤ (splitIdx p i as).1.length := by
  induction as generalizing i with
  | nil => exact Nat.le_refl 0
  | cons a as ih =>
    have htail := ih (i := i + 1) fun j b hj hb => by
      have := h (j + 1) b hj hb
      rwa [show i + 1 + j = i + (j + 1) by omega]
    rw [splitIdx_cons, List.countP_cons]
    by_cases hq : q a = true
    · have ha : p i a = true := h 0 a rfl hq
      rw [if_pos hq, if_pos ha, List.length_cons]
      omega
    · rw [if_neg hq]
      split
      · rw [List.length_cons]
        omega
      · exact htail

/-- a first part from the first `m` positions -/
theorem splitIdx_le {p : Nat → α → Bool} {i m : Nat} {as : List α}
    (h : ∀ j a, as[j]? = some a → p (i + j) a = true → j < m) :
    (splitIdx p i as).1.length ≤ m := by
  induction as generalizing i m with
  | nil => exact Nat.zero_le m
  | cons a as ih =>
    have htail := ih (i := i + 1) (m := m - 1) fun j b hj hb => by
      have := h (j + 1) b hj (by rwa [show i + (j + 1) = i + 1 + j by omega])
      omega
    rw [splitIdx_cons]
    split
    · rename_i ha
      have hm := h 0 a rfl ha
      rw [List.length_cons]
      omega
    · show (splitIdx p (i + 1) as).1.length ≤ m
      omega

end Sys
