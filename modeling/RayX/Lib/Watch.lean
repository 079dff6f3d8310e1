/-!
# Bounded polls of a shared document

A document that one party writes and another polls until it has seen what it looks for, or until its
deadline.  Between two polls the document may be written any number of times, and a read may fail.

* `WatchRound`     one round: what is written before it, whether the read succeeds, whether the deadline
                   has passed after it;
* `watch`          the loop of an observer with a memory;
* `put_of_foldl`   what a document holds after some writes, one of them put there;
* `watch_found`    **what an observer found, a read of the document gave it**, after some of the writes.
-/

namespace Sys

structure WatchRound (W : Type) where
  writes : List W
  reads : Bool
  late : Bool

section
variable {D W A R : Type}

/-- `look` at what a read gives, `none` for a failed one, in rounds until it finds something or the
deadline has passed; `none` while the observer still waits -/
def watch (write : D → W → D) (look : A → Option D → Option R × A) (d : D) (a : A) :
    List (WatchRound W) → Option (Option R × A)
  | [] => none
  | p :: ps =>
    let d := p.writes.foldl write d
    match look a (if p.reads then some d else none) with
    | (some r, a) => some (some r, a)
    | (none, a) => if p.late then some (none, a) else watch write look d a ps

variable {write : D → W → D} {look : A → Option D → Option R × A} {d : D} {a a' : A} {r : R}

/-- what a document holds after some writes was there before, or one of them put it there -/
theorem put_of_foldl {P : D → Prop} {Q : W → Prop} (hwrite : ∀ d w, P (write d w) → P d ∨ Q w)
    {ws : List W} (h : P (ws.foldl write d)) : P d ∨ ∃ w ∈ ws, Q w := by
  induction ws generalizing d with
  | nil => exact .inl h
  | cons w ws ih =>
    rcases ih h with h | ⟨w', hw', hputs⟩
    · exact (hwrite d w h).imp_right fun hputs => ⟨w, List.mem_cons_self, hputs⟩
    · exact .inr ⟨w', List.mem_cons_of_mem w hw', hputs⟩

/-- **What an observer found** is what it saw in the document after some of the writes. -/
theorem watch_found {ps : List (WatchRound W)} (hfail : ∀ a, (look a none).1 = none)
    (h : watch write look d a ps = some (some r, a')) :
    ∃ ws a, ws <+: ps.flatMap WatchRound.writes ∧ look a (some (ws.foldl write d)) = (some r, a') := by
  induction ps generalizing d a with
  | nil => cases h
  | cons p ps ih =>
    unfold watch at h
    dsimp only at h
    split at h
    · rename_i r' b heq
      cases h
      cases hr : p.reads with
      | false =>
        rw [hr, if_neg Bool.false_ne_true] at heq
        have hnone := hfail a
        rw [heq] at hnone
        cases hnone
      | true =>
        rw [hr, if_pos rfl] at heq
        exact ⟨p.writes, a, List.prefix_append _ _, heq⟩
    · split at h
      · cases h
      · obtain ⟨ws, b, hws, hb⟩ := ih h
        refine ⟨p.writes ++ ws, b, (List.prefix_append_right_inj _).mpr hws, ?_⟩
        rw [List.foldl_append]
        exact hb

end

end Sys
