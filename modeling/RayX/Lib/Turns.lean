import Mathlib.Algebra.BigOperators.Group.List.Basic
import Mathlib.Algebra.GroupWithZero.Nat

/-!
# Parties that take turns

Finitely many parties over a shared store.  At each time one party has the turn; it moves, or it waits
or has ended and nothing changes.

* `turn`, `exec`     one turn, and the state at each time of a schedule;
* `exec_inv`         what every move keeps holds at all times;
* `Fair`             each party has the turn again and again;
* `Progress`         a measure that each move lowers, and parties that do not wait for ever;
* `exec_ends`        **under a fair schedule all parties end, and stay so**.
-/

namespace Sys
namespace Turns
variable {P S : Type}

/-- a move at a time; `none` for a party that waits or has ended -/
abbrev Move (P S : Type) := Nat → P → S → Option (P × S)

def turn (move : Move P S) (t k : Nat) (c : List P × S) : List P × S :=
  match c.1[k]? with
  | none => c
  | some p =>
    match move t p c.2 with
    | none => c
    | some (p', s') => (c.1.set k p', s')

def exec (move : Move P S) (who : Nat → Nat) (c : List P × S) : Nat → List P × S
  | 0 => c
  | t + 1 => turn move t (who t) (exec move who c t)

section
variable {move : Move P S} {who : Nat → Nat} {c : List P × S}

theorem turn_eq {t k : Nat} {p p' : P} {s' : S} (hk : c.1[k]? = some p)
    (hm : move t p c.2 = some (p', s')) : turn move t k c = (c.1.set k p', s') := by
  unfold turn
  rw [hk]
  dsimp only
  rw [hm]

theorem turn_cases (move : Move P S) (t k : Nat) (c : List P × S) : turn move t k c = c ∨
    ∃ p p' s', c.1[k]? = some p ∧ move t p c.2 = some (p', s') ∧
      turn move t k c = (c.1.set k p', s') := by
  cases hk : c.1[k]? with
  | none =>
    refine Or.inl ?_
    unfold turn
    rw [hk]
  | some p =>
    cases hm : move t p c.2 with
    | none =>
      refine Or.inl ?_
      unfold turn
      rw [hk]
      dsimp only
      rw [hm]
    | some r => exact Or.inr ⟨p, r.1, r.2, rfl, hm, turn_eq hk hm⟩

theorem exec_inv (Inv : List P × S → Prop) (h0 : Inv c)
    (hmove : ∀ t k p p' s' c, Inv c → c.1[k]? = some p → move t p c.2 = some (p', s') →
      Inv (c.1.set k p', s')) (t : Nat) : Inv (exec move who c t) := by
  induction t with
  | zero => exact h0
  | succ t ih =>
    show Inv (turn move t (who t) (exec move who c t))
    rcases turn_cases move t (who t) (exec move who c t) with heq | ⟨p, p', s', hk, hm, heq⟩
    · rw [heq]
      exact ih
    · rw [heq]
      exact hmove t (who t) p p' s' _ ih hk hm

theorem exec_length (t : Nat) : (exec move who c t).1.length = c.1.length :=
  exec_inv (fun c' => c'.1.length = c.1.length) rfl
    (fun _ _ _ _ _ _ ih _ _ => List.length_set.trans ih) t

end

/-! ## termination -/

def Fair (who : Nat → Nat) (n : Nat) : Prop := ∀ k, k < n → ∀ t, ∃ t', t ≤ t' ∧ who t' = k

structure Progress (move : Move P S) (ended : P → Prop) (weight : P → Nat) : Prop where
  lowers : ∀ {t p s p' s'}, move t p s = some (p', s') → weight p' < weight p
  moves : ∀ {p}, ¬ ended p → ∃ T, ∀ t, T ≤ t → ∀ s, move t p s ≠ none
  stops : ∀ {t p s}, ended p → move t p s = none

section
variable {move : Move P S} {ended : P → Prop} {weight : P → Nat} {who : Nat → Nat} {c : List P × S}

theorem sum_set {l : List P} {k : Nat} {p : P} (f : P → Nat) (hk : l[k]? = some p) (p' : P) :
    ((l.set k p').map f).sum + f p = (l.map f).sum + f p' := by
  induction l generalizing k with
  | nil => cases hk
  | cons q l ih =>
    cases k with
    | zero =>
      cases hk
      rw [List.set_cons_zero, List.map_cons, List.map_cons, List.sum_cons, List.sum_cons]
      omega
    | succ k =>
      have := ih hk
      rw [List.set_cons_succ, List.map_cons, List.map_cons, List.sum_cons, List.sum_cons]
      omega

theorem sum_set_lt {l : List P} {k : Nat} {p p' : P} (hk : l[k]? = some p)
    (hlt : weight p' < weight p) : ((l.set k p').map weight).sum < (l.map weight).sum := by
  have := sum_set weight hk p'
  omega

/-- from one time to a later one nothing has changed, or the measure is lower -/
theorem exec_later (h : Progress move ended weight) {t t' : Nat} (htt : t ≤ t') :
    (exec move who c t').1 = (exec move who c t).1 ∨
      ((exec move who c t').1.map weight).sum < ((exec move who c t).1.map weight).sum := by
  induction t' with
  | zero =>
    have ht : t = 0 := by omega
    rw [ht]
    exact Or.inl rfl
  | succ t' ih =>
    by_cases heq : t = t' + 1
    · rw [heq]
      exact Or.inl rfl
    have ih := ih (by omega)
    have hsucc : exec move who c (t' + 1) = turn move t' (who t') (exec move who c t') := rfl
    rcases turn_cases move t' (who t') (exec move who c t') with hsame |
      ⟨p, p', s', hk, hm, hset⟩
    · rw [hsucc, hsame]
      exact ih
    · rw [hsucc, hset]
      have hlow := sum_set_lt hk (h.lowers hm)
      rcases ih with hlist | hlt
      · rw [← hlist]
        exact Or.inr hlow
      · exact Or.inr (Nat.lt_trans hlow hlt)

/-- a party that has not ended moves at some later time -/
theorem exec_lower (h : Progress move ended weight) (hfair : Fair who c.1.length) (t : Nat)
    (hnot : ¬ ∀ p ∈ (exec move who c t).1, ended p) :
    ∃ t', t ≤ t' ∧
      ((exec move who c t').1.map weight).sum < ((exec move who c t).1.map weight).sum := by
  obtain ⟨p, hp⟩ := Classical.not_forall.mp hnot
  obtain ⟨hmem, hend⟩ := Classical.not_imp.mp hp
  obtain ⟨k, hk⟩ := List.mem_iff_getElem?.mp hmem
  have hlen : (exec move who c t).1.length = c.1.length := exec_length t
  have hlt : k < c.1.length := by
    rw [← hlen]
    exact (List.getElem?_eq_some_iff.mp hk).1
  obtain ⟨T, hT⟩ := h.moves hend
  obtain ⟨t', ht', hwho⟩ := hfair k hlt (max t T)
  have hlater : (exec move who c t').1 = (exec move who c t).1 ∨ _ :=
    exec_later h (show t ≤ t' by omega)
  rcases hlater with hsame | hlow
  · -- party `k` is still where it was, and it has the turn
    refine ⟨t' + 1, by omega, ?_⟩
    have hk' : (exec move who c t').1[k]? = some p := by rw [hsame, hk]
    cases hm : move t' p (exec move who c t').2 with
    | none => exact absurd hm (hT t' (by omega) _)
    | some r =>
      show ((turn move t' (who t') (exec move who c t')).1.map weight).sum < _
      rw [hwho, turn_eq hk' hm, ← hsame]
      exact sum_set_lt hk' (h.lowers hm)
  · exact ⟨t', by omega, hlow⟩

/-- **Under a fair schedule all parties end.** -/
theorem exec_ends (h : Progress move ended weight) (hfair : Fair who c.1.length) :
    ∃ T, ∀ p ∈ (exec move who c T).1, ended p := by
  have hfrom : ∀ n t, ((exec move who c t).1.map weight).sum ≤ n →
      ∃ T, ∀ p ∈ (exec move who c T).1, ended p := by
    intro n
    induction n with
    | zero =>
      intro t hle
      refine ⟨t, Classical.not_not.mp fun hnot => ?_⟩
      obtain ⟨t', _, hlt⟩ := exec_lower h hfair t hnot
      omega
    | succ n ih =>
      intro t hle
      by_cases hend : ∀ p ∈ (exec move who c t).1, ended p
      · exact ⟨t, hend⟩
      · obtain ⟨t', _, hlt⟩ := exec_lower h hfair t hend
        exact ih t' (by omega)
  exact hfrom _ 0 (Nat.le_refl _)

/-- what has ended stays as it is -/
theorem exec_stays (h : Progress move ended weight) {T : Nat}
    (hend : ∀ p ∈ (exec move who c T).1, ended p) {t : Nat} (ht : T ≤ t) :
    exec move who c t = exec move who c T := by
  induction t with
  | zero => rw [show T = 0 by omega]
  | succ t ih =>
    by_cases heq : T = t + 1
    · rw [heq]
    have ih := ih (by omega)
    show turn move t (who t) (exec move who c t) = _
    rw [ih]
    rcases turn_cases move t (who t) (exec move who c T) with hsame |
      ⟨p, p', s', hk, hm, _⟩
    · exact hsame
    · rw [h.stops (hend p (List.mem_of_getElem? hk))] at hm
      cases hm

end

end Turns
end Sys
