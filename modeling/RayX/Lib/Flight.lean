import Mathlib.Algebra.BigOperators.Group.List.Basic
import Mathlib.Algebra.Order.Group.Nat
import Mathlib.Data.List.Range
import Mathlib.Data.List.Perm.Basic
import Mathlib.Tactic.Linarith
import Mathlib.Tactic.Ring

/-!
# Requests in flight

A closed loop numbers its requests as it sends them, holds at most `c` of them at a time, and takes
their replies in any order.

* `Flight`, `Flight.Move`   the requests in the air with their times, and what can happen to them;
* `Flight.Law`              the numbers are used once, and the air is never full beyond `c`;
* `law_move`                one move keeps it;
* `waits_le`                **the waits of all requests together are at most `c` times the time that
                            has passed**;
* `outstanding`             how many requests a loop of `n` requests holds at each reply;
* `mean_outstanding_iff`    **their mean is within a half of `c` exactly when `c (c - 1) ≤ n`.**
-/

namespace Sys

/-- `air`: the number of each request in the air and the time at which it was sent; `landed`: the
numbers of the replies, in their order; `waits`: the time that each of them took; `lost`: the numbers
of the requests that failed -/
structure Flight where
  now : Nat
  start : Nat
  sent : Nat := 0
  air : List (Nat × Nat) := []
  landed : List Nat := []
  waits : List Nat := []
  lost : List Nat := []

namespace Flight

inductive Move (c : Nat) (f : Flight) : Flight → Prop
  | tick (d : Nat) : Move c f { f with now := f.now + d }
  | send (h : f.air.length < c) :
      Move c f { f with sent := f.sent + 1, air := f.air ++ [(f.sent, f.now)] }
  | land {pre post : List (Nat × Nat)} {i t : Nat} (h : f.air = pre ++ (i, t) :: post) :
      Move c f { f with
        air := pre ++ post
        landed := f.landed ++ [i]
        waits := f.waits ++ [f.now - t] }
  | lose {pre post : List (Nat × Nat)} {i t : Nat} (h : f.air = pre ++ (i, t) :: post) :
      Move c f { f with air := pre ++ post, lost := f.lost ++ [i] }

/-- the time that the requests in the air have taken so far -/
def pending (f : Flight) : Nat := (f.air.map fun r => f.now - r.2).sum

structure Law (c : Nat) (f : Flight) : Prop where
  started : f.start ≤ f.now
  past : ∀ r ∈ f.air, r.2 ≤ f.now
  width : f.air.length ≤ c
  numbered : (f.landed ++ f.lost ++ f.air.map Prod.fst).Perm (List.range f.sent)
  waited : f.waits.length = f.landed.length
  busy : f.waits.sum + f.pending ≤ c * (f.now - f.start)

variable {c : Nat} {f f' : Flight}

theorem law_start (c now : Nat) : Law c { now := now, start := now } where
  started := le_refl now
  past := fun _ h => absurd h List.not_mem_nil
  width := Nat.zero_le c
  numbered := List.Perm.refl []
  waited := rfl
  busy := Nat.zero_le _

/-- each request in the air waits on -/
theorem pending_tick (h : ∀ r ∈ f.air, r.2 ≤ f.now) (d : Nat) :
    pending { f with now := f.now + d } = f.pending + f.air.length * d := by
  unfold pending
  dsimp only
  generalize f.air = air at h
  induction air with
  | nil => simp
  | cons r rs ih =>
    have hr := h r List.mem_cons_self
    have hrs := ih fun q hq => h q (List.mem_cons_of_mem r hq)
    rw [List.map_cons, List.sum_cons, List.map_cons, List.sum_cons, hrs, List.length_cons,
      Nat.succ_mul]
    omega

/-- what is left in the air without one request -/
theorem Law.remove {pre post : List (Nat × Nat)} {i t : Nat} (h : Law c f)
    (ha : f.air = pre ++ (i, t) :: post) :
    (∀ r ∈ pre ++ post, r.2 ≤ f.now) ∧ (pre ++ post).length ≤ c := by
  have hwid := h.width
  refine ⟨?_, ?_⟩
  · intro r hr
    refine h.past r ?_
    rw [ha]
    rcases List.mem_append.mp hr with hr | hr
    · exact List.mem_append_left _ hr
    · exact List.mem_append_right _ (List.mem_cons_of_mem _ hr)
  · rw [ha] at hwid
    simp only [List.length_append, List.length_cons] at hwid ⊢
    omega

/-- its number comes first among those in the air -/
theorem Law.numbered_split {pre post : List (Nat × Nat)} {i t : Nat} (h : Law c f)
    (ha : f.air = pre ++ (i, t) :: post) :
    (f.landed ++ f.lost ++ i :: (pre ++ post).map Prod.fst).Perm (List.range f.sent) := by
  have hnum := h.numbered
  rw [ha, List.map_append, List.map_cons] at hnum
  refine List.Perm.trans ?_ hnum
  rw [List.map_append]
  exact List.Perm.append_left _ List.perm_middle.symm

theorem law_move (h : Law c f) (hm : Move c f f') : Law c f' := by
  cases hm with
  | tick d =>
    refine { h with started := ?_, past := ?_, busy := ?_ }
    · exact h.started.trans (Nat.le_add_right _ _)
    · exact fun r hr => (h.past r hr).trans (Nat.le_add_right _ _)
    · rw [pending_tick h.past]
      have hwide : f.air.length * d ≤ c * d := Nat.mul_le_mul_right d h.width
      have hsplit : c * (f.now + d - f.start) = c * (f.now - f.start) + c * d := by
        rw [← Nat.mul_add]
        congr 1
        have hle := h.started
        omega
      have hbusy := h.busy
      show f.waits.sum + (f.pending + f.air.length * d) ≤ c * (f.now + d - f.start)
      omega
  | send hlt =>
    refine { h with past := ?_, width := ?_, numbered := ?_, busy := ?_ }
    · intro r hr
      rcases List.mem_append.mp hr with hr | hr
      · exact h.past r hr
      · rw [List.mem_singleton.mp hr]
    · show (f.air ++ [_]).length ≤ c
      rw [List.length_append]
      exact hlt
    · show (f.landed ++ f.lost ++ (f.air ++ [_]).map Prod.fst).Perm (List.range (f.sent + 1))
      rw [List.map_append, ← List.append_assoc, List.range_succ]
      exact h.numbered.append_right _
    · have hpend : pending { f with sent := f.sent + 1, air := f.air ++ [(f.sent, f.now)] } =
          f.pending := by
        simp [pending]
      rw [hpend]
      exact h.busy
  | @land pre post i t ha =>
    obtain ⟨hpast, hwid⟩ := h.remove ha
    have hbusy := h.busy
    refine { started := h.started, past := hpast, width := hwid, numbered := ?_, waited := ?_, busy := ?_ }
    · refine List.Perm.trans ?_ (h.numbered_split ha)
      show (f.landed ++ [i] ++ f.lost ++ (pre ++ post).map Prod.fst).Perm _
      rw [List.append_assoc f.landed, List.append_assoc f.landed, List.append_assoc f.landed]
      exact List.Perm.append_left _ List.perm_middle.symm
    · show (f.waits ++ [_]).length = (f.landed ++ [i]).length
      rw [List.length_append, List.length_append, h.waited]
      rfl
    · unfold pending at hbusy ⊢
      rw [ha] at hbusy
      simp only [List.map_append, List.map_cons, List.sum_append, List.sum_cons, List.sum_nil,
        Nat.add_zero] at hbusy ⊢
      omega
  | @lose pre post i t ha =>
    obtain ⟨hpast, hwid⟩ := h.remove ha
    have hbusy := h.busy
    refine { h with past := hpast, width := hwid, numbered := ?_, busy := ?_ }
    · refine List.Perm.trans ?_ (h.numbered_split ha)
      show (f.landed ++ (f.lost ++ [i]) ++ (pre ++ post).map Prod.fst).Perm _
      rw [← List.append_assoc f.landed, List.append_assoc (f.landed ++ f.lost)]
      exact List.Perm.refl _
    · unfold pending at hbusy ⊢
      rw [ha] at hbusy
      simp only [List.map_append, List.map_cons, List.sum_append, List.sum_cons] at hbusy ⊢
      omega

/-- each number is in the air, has landed or is lost -/
theorem Law.counted (h : Law c f) : f.sent = f.landed.length + f.lost.length + f.air.length := by
  have hlen := h.numbered.length_eq
  rw [List.length_append, List.length_append, List.length_map, List.length_range] at hlen
  exact hlen.symm

/-- **The waits together are at most `c` times the time that has passed.** -/
theorem Law.waits_le (h : Law c f) : f.waits.sum ≤ c * (f.now - f.start) :=
  (Nat.le_add_right _ _).trans h.busy

end Flight

/-! ## how full the air is -/

/-- the requests that a loop of `n` requests over a window of `c` holds at its reply number `j` -/
def outstanding (c n j : Nat) : Nat := min c (n - j)

/-- .. at each of its replies -/
def outstandings (c n : Nat) : List Nat := (List.range n).map (outstanding c n)

/-- one request more is one reply more before the others -/
theorem outstandings_succ (c n : Nat) :
    outstandings c (n + 1) = min c (n + 1) :: outstandings c n := by
  unfold outstandings
  rw [List.range_succ_eq_map, List.map_cons, List.map_map]
  congr 1
  refine List.map_congr_left fun j _ => ?_
  show min c (n + 1 - (j + 1)) = min c (n - j)
  rw [Nat.add_sub_add_right]

theorem sum_outstandings_small {c n : Nat} (h : n ≤ c) :
    2 * (outstandings c n).sum = n * (n + 1) := by
  induction n with
  | zero => rfl
  | succ n ih =>
    have hrest := ih (Nat.le_of_succ_le h)
    rw [outstandings_succ, List.sum_cons, Nat.min_eq_right h, Nat.mul_add, hrest]
    ring

theorem sum_outstandings {c n : Nat} (h : c ≤ n) :
    2 * (outstandings c n).sum + c * (c - 1) = 2 * (c * n) := by
  induction n with
  | zero =>
    rw [Nat.le_zero.mp h]
    rfl
  | succ n ih =>
    rcases Nat.lt_or_eq_of_le h with hlt | heq
    · have hrest := ih (Nat.le_of_lt_succ hlt)
      rw [outstandings_succ, List.sum_cons, Nat.min_eq_left h]
      linarith
    · have hsmall := sum_outstandings_small (c := c) (n := n + 1) heq.ge
      rw [hsmall, heq, Nat.add_sub_cancel]
      ring

/-- **The mean of what a loop holds comes within a half of its window exactly when the loop is long
enough**: `c (c - 1) ≤ n`. -/
theorem mean_outstanding_iff {c n : Nat} (hc : 1 ≤ c) (hn : 1 ≤ n) :
    (2 * c - 1) * n ≤ 2 * (outstandings c n).sum ↔ c * (c - 1) ≤ n := by
  obtain ⟨d, rfl⟩ : ∃ d, c = d + 1 := ⟨c - 1, by omega⟩
  have hodd : 2 * (d + 1) - 1 = 2 * d + 1 := by omega
  rw [hodd, Nat.add_sub_cancel]
  by_cases h : d + 1 ≤ n
  · have hsum := sum_outstandings h
    rw [Nat.add_sub_cancel] at hsum
    constructor
    · intro hle
      linarith
    · intro hle
      linarith
  · -- a loop that never fills its window
    have hlt : n ≤ d := by omega
    have hsum := sum_outstandings_small (c := d + 1) (n := n) (by omega)
    rw [hsum]
    constructor
    · intro hle
      have hle' : 2 * d + 1 ≤ n + 1 := Nat.le_of_mul_le_mul_right (by linarith) hn
      omega
    · intro hle
      have hd : 1 ≤ d := hn.trans hlt
      have hbig : d + 1 ≤ (d + 1) * d := Nat.le_mul_of_pos_right _ hd
      omega

end Sys
