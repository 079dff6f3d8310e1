import Mathlib.Algebra.BigOperators.Group.List.Basic
import Mathlib.Algebra.Ring.Int.Defs
import Mathlib.Data.List.Nodup
import Mathlib.Data.Nat.ModEq
import Mathlib.Order.Basic

/-!
# Lists of ranges

A list of half-open ranges that cut an interval into consecutive pieces, over any linear order.

* `Tiles a b l`        each range of `l` starts where the one before ends, from `a` to `b`;
* `Tiles.disjoint`, `Tiles.cover`   **the ranges are disjoint and cover the interval**;
* `Tiles.sum_modEq`    partial values that telescope along each range telescope along the interval;
* `span`, `Tiles.sum_span`   the integers of an interval, **summed range by range**.
-/

namespace Sys

section
variable {α : Type*} [LinearOrder α]

/-- each range starts where the one before ends, and none ends before it starts -/
def Tiles : α → α → List (α × α) → Prop
  | a, b, [] => a = b
  | a, b, r :: l => r.1 = a ∧ a ≤ r.2 ∧ Tiles r.2 b l

variable {a b : α} {l : List (α × α)}

theorem Tiles.le (h : Tiles a b l) : a ≤ b := by
  induction l generalizing a with
  | nil => exact le_of_eq h
  | cons r l ih => exact le_trans h.2.1 (ih h.2.2)

/-- the ranges of a tiling lie inside the interval -/
theorem Tiles.inside (h : Tiles a b l) : ∀ r ∈ l, a ≤ r.1 ∧ r.1 ≤ r.2 ∧ r.2 ≤ b := by
  induction l generalizing a with
  | nil =>
    intro r hr
    cases hr
  | cons r l ih =>
    obtain ⟨h1, h2, h3⟩ := h
    intro r' hr'
    rcases List.mem_cons.mp hr' with rfl | hr'
    · exact ⟨le_of_eq h1.symm, h1 ▸ h2, h3.le⟩
    · obtain ⟨h4, h5, h6⟩ := ih h3 r' hr'
      exact ⟨le_trans h2 h4, h5, h6⟩

/-- **Disjoint.**  No point lies in two ranges. -/
theorem Tiles.disjoint (h : Tiles a b l) :
    l.Pairwise (fun r r' => ∀ x, r.1 ≤ x ∧ x < r.2 → ¬ (r'.1 ≤ x ∧ x < r'.2)) := by
  induction l generalizing a with
  | nil => exact List.Pairwise.nil
  | cons r l ih =>
    obtain ⟨_, _, h3⟩ := h
    refine List.Pairwise.cons (fun r' hr' x hx hx' => ?_) (ih h3)
    exact not_lt_of_ge (le_trans (h3.inside r' hr').1 hx'.1) hx.2

/-- **Cover.**  The points of the ranges are those of the interval. -/
theorem Tiles.cover (h : Tiles a b l) (x : α) : (a ≤ x ∧ x < b) ↔ ∃ r ∈ l, r.1 ≤ x ∧ x < r.2 := by
  induction l generalizing a with
  | nil =>
    have hab : a = b := h
    constructor
    · rintro ⟨h1, h2⟩
      exact absurd (lt_of_le_of_lt h1 h2) (hab ▸ lt_irrefl a)
    · rintro ⟨r, hr, _⟩
      cases hr
  | cons r l ih =>
    obtain ⟨h1, h2, h3⟩ := h
    constructor
    · rintro ⟨hax, hxb⟩
      rcases lt_or_ge x r.2 with hx | hx
      · exact ⟨r, List.mem_cons_self, h1 ▸ hax, hx⟩
      · obtain ⟨r', hr', hin⟩ := (ih h3).mp ⟨hx, hxb⟩
        exact ⟨r', List.mem_cons_of_mem r hr', hin⟩
    · rintro ⟨r', hr', hin⟩
      rcases List.mem_cons.mp hr' with rfl | hr'
      · exact ⟨h1 ▸ hin.1, lt_of_lt_of_le hin.2 h3.le⟩
      · obtain ⟨h4, h5⟩ := (ih h3).mpr ⟨r', hr', hin⟩
        exact ⟨le_trans h2 h4, h5⟩

/-- **Telescoping.**  Values of the ranges that take `f` from the start to the end of each mod `m` sum
to one that takes `f` from the start to the end of the interval. -/
theorem Tiles.sum_modEq {ι : Type*} {g : ι → α × α} {l : List ι} {f : α → Nat} {v : ι → Nat}
    {m : Nat} (h : Tiles a b (l.map g)) (hv : ∀ i ∈ l, Nat.ModEq m (v i + f (g i).1) (f (g i).2)) :
    Nat.ModEq m ((l.map v).sum + f a) (f b) := by
  induction l generalizing a with
  | nil =>
    have hab : a = b := h
    rw [hab, List.map_nil, List.sum_nil, Nat.zero_add]
  | cons i l ih =>
    obtain ⟨h1, _, h3⟩ := h
    have hi : Nat.ModEq m (v i + f a) (f (g i).2) := h1 ▸ hv i List.mem_cons_self
    have hl := ih h3 (fun j hj => hv j (List.mem_cons_of_mem i hj))
    have hsum : ((i :: l).map v).sum + f a = (l.map v).sum + (v i + f a) := by
      rw [List.map_cons, List.sum_cons]
      omega
    rw [hsum]
    exact (hi.add_left _).trans hl

end

/-! ## the integers of an interval -/

/-- the integers of `[a, b)` in order -/
def span (a b : Int) : List Int := (List.range (b - a).toNat).map fun j : Nat => a + (j : Int)

section
variable {a b c : Int}

theorem span_nodup (a b : Int) : (span a b).Nodup :=
  List.nodup_range.map fun i j hij => by
    have hij : a + (i : Int) = a + (j : Int) := hij
    omega

theorem span_append (h1 : a ≤ b) (h2 : b ≤ c) : span a b ++ span b c = span a c := by
  have hlen : (c - a).toNat = (b - a).toNat + (c - b).toNat := by omega
  rw [span, span, span, hlen, List.range_add, List.map_append, List.map_map]
  congr 1
  refine List.map_congr_left fun j _ => ?_
  show b + (j : Int) = a + (((b - a).toNat + j : Nat) : Int)
  omega

/-- **A sum over the integers of an interval** is the sum of those over the ranges of a tiling. -/
theorem Tiles.sum_span {l : List (Int × Int)} (h : Tiles a b l) (f : Int → Int) :
    (l.map fun r => ((span r.1 r.2).map f).sum).sum = ((span a b).map f).sum := by
  induction l generalizing a with
  | nil =>
    have hab : a = b := h
    rw [hab, span, Int.sub_self]
    rfl
  | cons r l ih =>
    obtain ⟨h1, h2, h3⟩ := h
    rw [List.map_cons, List.sum_cons, ih h3, h1, ← span_append h2 h3.le, List.map_append,
      List.sum_append]

end

end Sys
