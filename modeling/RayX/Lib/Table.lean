import Mathlib.Data.List.Basic

/-!
# Tables

A table is a list of keys and values that is searched from the front.

* `lookup_cons_isSome`, `lookup_map`     an entry more, and a function of the values;
* `mem_of_lookup`                        what is found is in the table;
* `lookup_cons_ne`, `lookup_filter_ne`   entries of another key, in front or taken out.
-/

namespace Sys

section
variable {κ α β : Type*} [BEq κ] {l : List (κ × α)} {k k' : κ} {a : α}

/-- a key that is known stays known -/
theorem lookup_cons_isSome (h : (l.lookup k).isSome) : (((k', a) :: l).lookup k).isSome := by
  rw [List.lookup_cons]
  cases k == k' with
  | true => rfl
  | false => exact h

theorem lookup_map (f : α → β) (k : κ) (l : List (κ × α)) :
    (l.map fun p => (p.1, f p.2)).lookup k = (l.lookup k).map f := by
  induction l with
  | nil => rfl
  | cons p l ih =>
    rw [List.map_cons, List.lookup_cons, List.lookup_cons]
    split
    · rfl
    · exact ih

variable [LawfulBEq κ]

theorem mem_of_lookup (h : l.lookup k = some a) : (k, a) ∈ l := by
  obtain ⟨l₁, l₂, hl, _⟩ := List.lookup_eq_some_iff.mp h
  rw [hl]
  exact List.mem_append_right l₁ List.mem_cons_self

/-- an entry of another key does not hide those behind it -/
theorem lookup_cons_ne (h : k ≠ k') : ((k', a) :: l).lookup k = l.lookup k := by
  rw [List.lookup_cons, beq_eq_false_iff_ne.mpr h]

/-- taking out the entries of another key -/
theorem lookup_filter_ne {p : κ × α → Bool} (hp : ∀ q : κ × α, q.1 = k → p q = true) :
    (l.filter p).lookup k = l.lookup k := by
  induction l with
  | nil => rfl
  | cons q l ih =>
    obtain ⟨k', a⟩ := q
    cases hq : p (k', a) with
    | true => rw [List.filter_cons_of_pos hq, List.lookup_cons, List.lookup_cons, ih]
    | false =>
      have hne : k ≠ k' := fun heq => Bool.false_ne_true (hq.symm.trans (hp _ heq.symm))
      rw [List.filter_cons_of_neg (Bool.eq_false_iff.mp hq), ih, lookup_cons_ne hne]

end

end Sys
