import Mathlib.Data.List.Nodup
import Mathlib.Data.List.Perm.Basic

/-!
# The best `k` of a list

The best `k` elements of a list under a total order that is given as a test, as a stable sort cuts them.

* `topk`             sort and keep the first `k`;
* `topk_sorted`, `topk_length`, `topk_subperm`   what comes out;
* `topk_perm`        the order of the list does not matter;
* `topk_beyond`      an element after `k` others is not missed;
* `topk_append`      **parts may be cut to their best `k` before they are merged**.
-/

namespace Sys
variable {α : Type}

def topk (le : α → α → Bool) (k : Nat) (l : List α) : List α := (l.mergeSort le).take k

/-- a total order on the elements of a list without repetitions -/
structure Ranks (le : α → α → Bool) (l : List α) : Prop where
  trans : ∀ a b c, le a b = true → le b c = true → le a c = true
  total : ∀ a b, (le a b || le b a) = true
  antisymm : ∀ a ∈ l, ∀ b ∈ l, le a b = true → le b a = true → a = b
  nodup : l.Nodup

section
variable {le : α → α → Bool} {k : Nat} {l l' : List α}

theorem Ranks.perm (h : Ranks le l) (hp : l.Perm l') : Ranks le l' where
  trans := h.trans
  total := h.total
  antisymm a ha b hb := h.antisymm a (hp.mem_iff.mpr ha) b (hp.mem_iff.mpr hb)
  nodup := hp.nodup_iff.mp h.nodup

theorem Ranks.sublist (h : Ranks le l) (hs : l'.Sublist l) : Ranks le l' where
  trans := h.trans
  total := h.total
  antisymm a ha b hb := h.antisymm a (hs.subset ha) b (hs.subset hb)
  nodup := h.nodup.sublist hs

theorem Ranks.sorted (h : Ranks le l) : (l.mergeSort le).Pairwise fun a b => le a b = true :=
  List.pairwise_mergeSort h.trans h.total l

/-- of two different elements the earlier one is not after the other -/
theorem Ranks.strict (h : Ranks le l) {a b : α} (ha : a ∈ l) (hb : b ∈ l) (hab : le a b = true)
    (hne : a ≠ b) : le b a = false := by
  cases hba : le b a with
  | false => rfl
  | true => exact absurd (h.antisymm a ha b hb hab hba) hne

/-! ## what comes out -/

theorem topk_sorted (h : Ranks le l) : (topk le k l).Pairwise fun a b => le a b = true :=
  h.sorted.sublist (List.take_sublist _ _)

theorem topk_length : (topk le k l).length = min k l.length := by
  rw [topk, List.length_take, List.length_mergeSort]

/-- up to its order, a part of the list -/
theorem topk_subperm : (topk le k l).Subperm l :=
  (List.take_sublist _ _).subperm.trans (List.mergeSort_perm l le).subperm

theorem topk_nodup (h : l.Nodup) : (topk le k l).Nodup :=
  ((List.mergeSort_perm l le).nodup_iff.mpr h).sublist (List.take_sublist _ _)

/-! ## the order of the list -/

theorem sort_perm (h : Ranks le l) (hp : l.Perm l') : l.mergeSort le = l'.mergeSort le := by
  have hall : (l.mergeSort le).Perm (l'.mergeSort le) :=
    ((List.mergeSort_perm l le).trans hp).trans (List.mergeSort_perm l' le).symm
  refine hall.eq_of_pairwise (fun a b ha hb hab hba => ?_) h.sorted (h.perm hp).sorted
  exact h.antisymm a (List.mem_mergeSort.mp ha) b (hp.mem_iff.mpr (List.mem_mergeSort.mp hb)) hab hba

theorem topk_perm (h : Ranks le l) (hp : l.Perm l') : topk le k l = topk le k l' := by
  rw [topk, topk, sort_perm h hp]

/-! ## cutting -/

/-- an element behind `k` others of the list does not come among the best `k` -/
theorem topk_beyond (h : Ranks le l) {x : α} (hk : k ≤ l.countP fun b => !le x b) :
    topk le k (x :: l) = topk le k l := by
  obtain ⟨front, back, hx, hl, _⟩ := List.mergeSort_cons h.trans h.total x l
  have hsorted : (front ++ x :: back).Pairwise fun a b => le a b = true := by
    rw [← hx]
    exact List.pairwise_mergeSort h.trans h.total (x :: l)
  -- what is not behind `x` stands before it
  have hback : back.countP (fun b => !le x b) = 0 := by
    rw [List.countP_eq_zero]
    intro b hb
    have hxb := (List.pairwise_cons.mp (List.pairwise_append.mp hsorted).2.1).1 b hb
    rw [hxb]
    exact Bool.false_ne_true
  have hcount : l.countP (fun b => !le x b) = front.countP fun b => !le x b := by
    rw [← (List.mergeSort_perm l le).countP_eq, hl, List.countP_append, hback, Nat.add_zero]
  have hlen : k ≤ front.length := by
    rw [hcount] at hk
    exact Nat.le_trans hk List.countP_le_length
  rw [topk, topk, hx, hl, List.take_append_of_le_length hlen, List.take_append_of_le_length hlen]

/-- and so for a list of such elements -/
theorem topk_beyond_all (rest : List α) (hrest : Ranks le (rest ++ l))
    (hk : ∀ x ∈ rest, k ≤ l.countP fun b => !le x b) : topk le k (rest ++ l) = topk le k l := by
  induction rest with
  | nil => rfl
  | cons x rest ih =>
    have htail : Ranks le (rest ++ l) := hrest.sublist (List.sublist_cons_self _ _)
    have hx : k ≤ (rest ++ l).countP fun b => !le x b := by
      rw [List.countP_append]
      exact Nat.le_trans (hk x List.mem_cons_self) (Nat.le_add_left _ _)
    rw [List.cons_append, topk_beyond htail hx]
    exact ih htail fun y hy => hk y (List.mem_cons_of_mem _ hy)

/-- **One part is cut first.** -/
theorem topk_cut {a b : List α} (h : Ranks le (a ++ b)) :
    topk le k (topk le k a ++ b) = topk le k (a ++ b) := by
  have ha : Ranks le a := h.sublist (List.sublist_append_left a b)
  have hsplit : ((a.mergeSort le).drop k ++ (topk le k a ++ b)).Perm (a ++ b) := by
    refine List.Perm.trans ?_ ((List.mergeSort_perm a le).append_right b)
    rw [← List.append_assoc]
    refine List.Perm.append_right b ?_
    refine List.perm_append_comm.trans (List.Perm.of_eq ?_)
    rw [topk, List.take_append_drop]
  have hall : Ranks le ((a.mergeSort le).drop k ++ (topk le k a ++ b)) := h.perm hsplit.symm
  rw [← topk_perm hall hsplit]
  refine (topk_beyond_all _ hall fun x hx => ?_).symm
  -- `x` was cut off, so the part has `k` elements before it
  have hsorted := ha.sorted
  rw [← List.take_append_drop k (a.mergeSort le)] at hsorted
  have hbefore := (List.pairwise_append.mp hsorted).2.2
  have hlen : (topk le k a).length = k := by
    have hdrop := List.length_pos_of_mem hx
    rw [List.length_drop] at hdrop
    rw [topk, List.length_take]
    omega
  have hcount : (topk le k a).countP (fun b => !le x b) = (topk le k a).length := by
    rw [List.countP_eq_length]
    intro b hb
    have hbx := hbefore b hb x hx
    have hbmem : b ∈ a := List.mem_mergeSort.mp (List.mem_of_mem_take hb)
    have hxmem : x ∈ a := List.mem_mergeSort.mp (List.mem_of_mem_drop hx)
    have hne : b ≠ x := by
      rintro rfl
      have hnodup := (List.mergeSort_perm a le).nodup_iff.mpr ha.nodup
      rw [← List.take_append_drop k (a.mergeSort le)] at hnodup
      exact (List.nodup_append.mp hnodup).2.2 b hb b hx rfl
    rw [ha.strict hbmem hxmem hbx hne]
    rfl
  rw [List.countP_append, hcount, hlen]
  exact Nat.le_add_right _ _

/-- **Parts may be cut to their best `k` before they are merged.** -/
theorem topk_append {a b : List α} (h : Ranks le (a ++ b)) :
    topk le k (topk le k a ++ topk le k b) = topk le k (a ++ b) := by
  have hcutb : Ranks le (topk le k b ++ a) := by
    have hb : (topk le k b).Subperm b := topk_subperm
    obtain ⟨c, hc, hs⟩ := hb
    exact (h.sublist ((List.Sublist.refl a).append hs)).perm
      (List.perm_append_comm.trans (hc.append_right a))
  have hflip : Ranks le (a ++ topk le k b) := hcutb.perm List.perm_append_comm
  have hswap : Ranks le (b ++ a) := h.perm List.perm_append_comm
  calc topk le k (topk le k a ++ topk le k b) = topk le k (a ++ topk le k b) := topk_cut hflip
    _ = topk le k (topk le k b ++ a) := topk_perm hflip List.perm_append_comm
    _ = topk le k (b ++ a) := topk_cut hswap
    _ = topk le k (a ++ b) := topk_perm hswap List.perm_append_comm

end

end Sys
