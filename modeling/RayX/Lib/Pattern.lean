import Mathlib.Data.List.Basic

/-!
# Linear patterns

Regular expressions without choice: anchors and runs of a fixed number of characters, matched from
the beginning of a text as `re.match` does.

* `Pattern.reads`     the match; `$` holds at the end and before a newline that ends the text;
* `Pattern.word`      a literal;
* `reads_chars`, `reads_word`, `reads_stop`   one part after the other.
-/

namespace Sys

inductive Pattern (α : Type) where
  /-- `^` -/
  | start
  /-- `$` -/
  | stop
  /-- `[p]{n}` -/
  | chars (n : Nat) (p : α → Bool)

namespace Pattern
variable {α : Type} [DecidableEq α]

/-- the parts of a pattern at a position: is it the start of the text, and what is left of it -/
def reads (newline : α) : List (Pattern α) → Bool → List α → Bool
  | [], _, _ => true
  | .start :: ps, atStart, s => atStart && reads newline ps atStart s
  | .stop :: ps, atStart, s =>
    (decide (s = []) || decide (s = [newline])) && reads newline ps atStart s
  | .chars n p :: ps, atStart, s =>
    decide (n ≤ s.length) && (s.take n).all p && reads newline ps (atStart && n == 0) (s.drop n)

/-- a literal -/
def word (w : List α) : List (Pattern α) := w.map fun c => .chars 1 (· == c)

variable {newline : α} {ps : List (Pattern α)} {b : Bool} {s : List α}

theorem reads_start : reads newline (.start :: ps) true s = reads newline ps true s := by
  simp [reads]

theorem reads_stop : reads newline [.stop] b s = true ↔ s = [] ∨ s = [newline] := by
  simp [reads]

theorem reads_chars {n : Nat} {p : α → Bool} :
    reads newline (.chars n p :: ps) b s = true ↔
      ∃ u v, s = u ++ v ∧ u.length = n ∧ u.all p = true ∧
        reads newline ps (b && n == 0) v = true := by
  rw [reads, Bool.and_eq_true, Bool.and_eq_true, decide_eq_true_iff]
  constructor
  · rintro ⟨⟨hn, hp⟩, hps⟩
    exact ⟨s.take n, s.drop n, (List.take_append_drop n s).symm, List.length_take_of_le hn, hp, hps⟩
  · rintro ⟨u, v, rfl, rfl, hp, hps⟩
    rw [List.take_left, List.drop_left, List.length_append]
    exact ⟨⟨Nat.le_add_right _ _, hp⟩, hps⟩

theorem reads_word (w : List α) :
    reads newline (word w ++ ps) b s = true ↔
      ∃ v, s = w ++ v ∧ reads newline ps (b && w.isEmpty) v = true := by
  induction w generalizing b s with
  | nil => simp [word]
  | cons c w ih =>
    have hcons : word (c :: w) ++ ps = .chars 1 (· == c) :: (word w ++ ps) := rfl
    rw [hcons, reads_chars]
    constructor
    · rintro ⟨u, v, rfl, hlen, hall, hv⟩
      obtain ⟨a, rfl⟩ := List.length_eq_one_iff.mp hlen
      obtain ⟨v, rfl, hps⟩ := ih.mp hv
      rw [List.all_cons, List.all_nil, Bool.and_true, beq_iff_eq] at hall
      refine ⟨v, by rw [hall]; rfl, ?_⟩
      simpa using hps
    · rintro ⟨v, rfl, hps⟩
      refine ⟨[c], w ++ v, rfl, rfl, by simp, ih.mpr ⟨v, rfl, ?_⟩⟩
      simpa using hps

end Pattern

end Sys
