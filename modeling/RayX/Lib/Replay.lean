import Mathlib.Data.List.Basic
import Mathlib.Data.List.Range

/-!
# Replaying the committed part of a history

A history is a numbered sequence of operations, some of which commit.  A sequential object replays
the committed ones in order.

* `committed op done n`   the committed operations among the first `n`;
* `replay apply v ops`    the sequential object: `apply` one operation after the other;
* `committed_succ_done`, `committed_succ_skip`, `committed_congr`, `committed_stable`   how a
                          history grows;
* `replay_map`            a second meaning of the operations agrees with the first one as long as
                          every prefix stays where the two agree.
-/

namespace Sys

section
variable {Op V W : Type*}

/-- the operations among the first `n` that are done, in order -/
def committed (op : Nat → Option Op) (done : Nat → Bool) (n : Nat) : List Op :=
  (List.range n).filterMap fun i => if done i then op i else none

def replay (apply : Op → V → V) (v : V) (ops : List Op) : V := ops.foldl (fun v c => apply c v) v

variable {op op' : Nat → Option Op} {done done' : Nat → Bool} {n m : Nat}

theorem committed_succ : committed op done (n + 1) =
    committed op done n ++ (if done n then op n else none).toList := by
  unfold committed
  rw [List.range_succ, List.filterMap_append]
  cases h : (if done n then op n else none) <;> simp [h]

theorem committed_succ_done {c : Op} (hd : done n = true) (hc : op n = some c) :
    committed op done (n + 1) = committed op done n ++ [c] := by
  rw [committed_succ, if_pos hd, hc]
  rfl

theorem committed_succ_skip (hd : done n = false) :
    committed op done (n + 1) = committed op done n := by
  rw [committed_succ, hd]
  simp

/-- the first `n` operations decide what is committed among them -/
theorem committed_congr (ho : ∀ i, i < n → op' i = op i) (hd : ∀ i, i < n → done' i = done i) :
    committed op' done' n = committed op done n := by
  induction n with
  | zero => rfl
  | succ n ih =>
    have hrest := ih (fun i hi => ho i (Nat.lt_succ_of_lt hi)) (fun i hi => hd i (Nat.lt_succ_of_lt hi))
    rw [committed_succ, committed_succ, hrest, ho n (Nat.lt_succ_self n), hd n (Nat.lt_succ_self n)]

/-- operations that do not commit change nothing -/
theorem committed_stable (hm : m ≤ n) (hd : ∀ i, m ≤ i → i < n → done i = false) :
    committed op done n = committed op done m := by
  induction n with
  | zero =>
    obtain rfl : m = 0 := by omega
    rfl
  | succ n ih =>
    rcases Nat.lt_or_ge n m with hlt | hge
    · obtain rfl : m = n + 1 := by omega
      rfl
    · rw [committed_succ_skip (hd n hge (Nat.lt_succ_self n))]
      exact ih hge (fun i h1 h2 => hd i h1 (Nat.lt_succ_of_lt h2))

variable {apply : Op → V → V} {apply' : Op → W → W}

theorem replay_concat (v : V) (ops : List Op) (c : Op) :
    replay apply v (ops ++ [c]) = apply c (replay apply v ops) := by
  unfold replay
  rw [List.foldl_append]
  rfl

/-- **Two meanings of one history.**  They agree along `f` as long as every committed prefix stays
in the set `P` in which one operation agrees. -/
theorem replay_map {f : V → W} {P : W → Prop}
    (hf : ∀ c v, P (f v) → P (apply' c (f v)) → f (apply c v) = apply' c (f v)) (v : V)
    (hP : ∀ k, k ≤ n → P (replay apply' (f v) (committed op done k))) :
    f (replay apply v (committed op done n)) = replay apply' (f v) (committed op done n) := by
  induction n with
  | zero => rfl
  | succ n ih =>
    have hrest := ih (fun k hk => hP k (Nat.le_succ_of_le hk))
    have hlast := hP (n + 1) (Nat.le_refl _)
    have hprev := hP n (Nat.le_succ n)
    cases h : (if done n then op n else none) with
    | none =>
      rw [committed_succ, h, Option.toList_none, List.append_nil]
      exact hrest
    | some c =>
      rw [committed_succ, h, Option.toList_some, replay_concat] at hlast
      rw [committed_succ, h, Option.toList_some, replay_concat, replay_concat, ← hrest]
      rw [← hrest] at hlast hprev
      exact hf c _ hprev hlast

end

end Sys
