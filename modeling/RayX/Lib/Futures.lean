/-!
# Observed futures

Futures that become ready on their own while a program tests them.  Every test of readiness has a number,
and a future is ready from some test on, or never.

* `Outcome`                  a computation returns, throws, waits for ever, or has no defined meaning;
* `Observed`                 futures by the tests at which they are ready, and what they hold;
* `Observed.found`, `missed` what a pass over the futures finds ready, one test for each;
* `Observed.getAll`          the values of some futures; a future that never becomes ready blocks;
* `getAll_cases`             the values of some futures: one throws, or one blocks, or all have come.
-/

namespace Sys

inductive Outcome (ε α : Type) where
  | returned (a : α)
  | threw (e : ε)
  | blocked
  | undefined
  deriving DecidableEq, Repr

namespace Outcome
variable {ε α β : Type}

def bind : Outcome ε α → (α → Outcome ε β) → Outcome ε β
  | returned a, f => f a
  | threw e, _ => threw e
  | blocked, _ => blocked
  | undefined, _ => undefined

instance : Monad (Outcome ε) where
  pure := returned
  bind := bind

@[simp] theorem returned_bind (a : α) (f : α → Outcome ε β) :
    (returned a >>= f : Outcome ε β) = f a := rfl

@[simp] theorem threw_bind (e : ε) (f : α → Outcome ε β) :
    (threw e >>= f : Outcome ε β) = threw e := rfl

@[simp] theorem undefined_bind (f : α → Outcome ε β) : (undefined >>= f : Outcome ε β) = undefined := rfl

/-- the computation has a meaning, and `P` holds of what it returns, if it does -/
def Holds (P : α → Prop) : Outcome ε α → Prop
  | returned a => P a
  | threw _ => True
  | blocked => True
  | undefined => False

@[simp] theorem holds_pure (P : α → Prop) (a : α) : (pure a : Outcome ε α).Holds P = P a := rfl

end Outcome

structure Observed (ε ρ : Type) where
  /-- future `i` is ready at test `t` -/
  ready : Nat → Nat → Bool
  mono : ∀ i s t, s ≤ t → ready s i = true → ready t i = true
  /-- what future `i` holds once it is ready -/
  value : Nat → Option (Except ε ρ)
  settled : ∀ i t, ready t i = true → value i ≠ none

namespace Observed
variable {ε ρ : Type}

/-- what the pass over `n` futures from test `t` on finds ready; it tests future `i` at `t + i` -/
def found (f : Observed ε ρ) (t n : Nat) : List Nat := (List.range n).filter fun i => f.ready (t + i) i

def missed (f : Observed ε ρ) (t n : Nat) : List Nat := (List.range n).filter fun i => !f.ready (t + i) i

def allReady (f : Observed ε ρ) (t n : Nat) : Bool := (List.range n).all fun i => f.ready (t + i) i

def get (f : Observed ε ρ) (i : Nat) : Outcome ε ρ :=
  match f.value i with
  | none => .blocked
  | some (.error e) => .threw e
  | some (.ok v) => .returned v

/-- the values of the futures `is` in order -/
def getAll (f : Observed ε ρ) : List Nat → Outcome ε (List (Nat × ρ))
  | [] => .returned []
  | i :: is => (f.get i).bind fun v => (f.getAll is).bind fun vs => .returned ((i, v) :: vs)

/-- one of the futures holds an exception, and those before it hold values -/
def Throws (f : Observed ε ρ) : List Nat → Prop
  | [] => False
  | i :: is =>
    match f.value i with
    | none => False
    | some (.error _) => True
    | some (.ok _) => f.Throws is

section
variable {f : Observed ε ρ} {t n : Nat}

theorem found_add_missed : (f.found t n).length + (f.missed t n).length = n := by
  have h := List.length_eq_countP_add_countP (fun i => f.ready (t + i) i) (l := List.range n)
  have hnot : (fun i => decide ¬ f.ready (t + i) i = true) = fun i => !f.ready (t + i) i := by
    funext i
    cases f.ready (t + i) i <;> rfl
  rw [List.length_range, hnot, List.countP_eq_length_filter, List.countP_eq_length_filter] at h
  exact h.symm

theorem found_length_le : (f.found t n).length ≤ n := by
  have := found_add_missed (f := f) (t := t) (n := n)
  omega

theorem found_full : (f.found t n).length = n ↔ ∀ i < n, f.ready (t + i) i = true := by
  have hlen : (f.found t n).length = n ↔ (f.found t n).length = (List.range n).length := by
    rw [List.length_range]
  rw [hlen, found, List.length_filter_eq_length_iff]
  exact ⟨fun h i hi => h i (List.mem_range.mpr hi), fun h i hi => h i (List.mem_range.mp hi)⟩

theorem found_lt : (f.found t n).length < n ↔ ∃ i < n, f.ready (t + i) i = false := by
  have hle := found_length_le (f := f) (t := t) (n := n)
  have hfull := found_full (f := f) (t := t) (n := n)
  constructor
  · intro h
    by_cases hex : ∃ i < n, f.ready (t + i) i = false
    · exact hex
    · have hall : ∀ i < n, f.ready (t + i) i = true := fun i hi =>
        (Bool.not_eq_false _).mp fun hc => hex ⟨i, hi, hc⟩
      have := hfull.mpr hall
      omega
  · rintro ⟨i, hi, hno⟩
    have hne : (f.found t n).length ≠ n := fun hc => by
      rw [hfull.mp hc i hi] at hno
      cases hno
    omega

theorem found_none : (f.found t n).length = 0 ↔ ∀ i < n, f.ready (t + i) i = false := by
  rw [List.length_eq_zero_iff, found, List.filter_eq_nil_iff]
  exact ⟨fun h i hi => (Bool.not_eq_true _).mp (h i (List.mem_range.mpr hi)),
    fun h i hi => (Bool.not_eq_true _).mpr (h i (List.mem_range.mp hi))⟩

/-- a later pass finds as many futures exactly if none has become ready -/
theorem found_same {s : Nat} (hst : s ≤ t) : (f.found t n).length = (f.found s n).length ↔
    ∀ i < n, f.ready (t + i) i = true → f.ready (s + i) i = true := by
  -- the earlier pass finds those of the later one that were ready
  have hsub : f.found s n = (f.found t n).filter fun i => f.ready (s + i) i := by
    unfold found
    rw [List.filter_filter]
    refine List.filter_congr fun i _ => ?_
    cases hs : f.ready (s + i) i with
    | false => rfl
    | true => rw [f.mono i (s + i) (t + i) (by omega) hs]; rfl
  rw [hsub, eq_comm, List.length_filter_eq_length_iff]
  constructor
  · intro h i hi hready
    exact h i (List.mem_filter.mpr ⟨List.mem_range.mpr hi, hready⟩)
  · intro h i hi
    obtain ⟨hrange, hready⟩ := List.mem_filter.mp hi
    exact h i (List.mem_range.mp hrange) hready

/-- of some futures, one throws, or one never becomes ready, or all have values -/
theorem getAll_cases (f : Observed ε ρ) (is : List Nat) :
    (f.Throws is ∧ ∃ e, f.getAll is = .threw e) ∨
    (¬ f.Throws is ∧ f.getAll is = .blocked ∧ ∃ i ∈ is, f.value i = none) ∨
    (¬ f.Throws is ∧ ∃ got, f.getAll is = .returned got ∧ got.length = is.length) := by
  induction is with
  | nil => exact Or.inr (Or.inr ⟨fun h => h, [], rfl, rfl⟩)
  | cons i is ih =>
    rw [Throws, getAll, get]
    cases hv : f.value i with
    | none => exact Or.inr (Or.inl ⟨fun h => h, rfl, i, List.mem_cons_self, hv⟩)
    | some r =>
      cases r with
      | error e => exact Or.inl ⟨trivial, e, rfl⟩
      | ok v =>
        show (f.Throws is ∧ ∃ e, (f.getAll is).bind _ = _) ∨
          (¬ f.Throws is ∧ (f.getAll is).bind _ = _ ∧ _) ∨
          (¬ f.Throws is ∧ ∃ got, (f.getAll is).bind _ = _ ∧ _)
        rcases ih with ⟨ht, e, he⟩ | ⟨ht, hb, j, hj, hnone⟩ | ⟨ht, got, hgot, hlen⟩
        · rw [he]
          exact Or.inl ⟨ht, e, rfl⟩
        · rw [hb]
          exact Or.inr (Or.inl ⟨ht, rfl, j, List.mem_cons_of_mem i hj, hnone⟩)
        · rw [hgot]
          exact Or.inr (Or.inr ⟨ht, (i, v) :: got, rfl, congrArg Nat.succ hlen⟩)

/-- of futures that all become ready, one throws or all have values -/
theorem getAll_settled {is : List Nat} (h : ∀ i ∈ is, f.value i ≠ none) :
    (f.Throws is ∧ ∃ e, f.getAll is = .threw e) ∨
      (¬ f.Throws is ∧ ∃ got, f.getAll is = .returned got ∧ got.length = is.length) := by
  rcases f.getAll_cases is with hc | ⟨_, _, i, hi, hnone⟩ | hc
  · exact Or.inl hc
  · exact absurd hnone (h i hi)
  · exact Or.inr hc

theorem getAll_found (f : Observed ε ρ) (t n : Nat) :
    (f.Throws (f.found t n) ∧ ∃ e, f.getAll (f.found t n) = .threw e) ∨
      (¬ f.Throws (f.found t n) ∧ ∃ got, f.getAll (f.found t n) = .returned got ∧
        got.length = (f.found t n).length) :=
  getAll_settled fun i hi => f.settled i _ (List.mem_filter.mp hi).2

end

end Observed

end Sys
