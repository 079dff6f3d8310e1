import Mathlib.Data.List.Dedup
import Mathlib.Data.List.Forall2
import Mathlib.Data.List.Sort

/-!
# Collecting over a list

* `bind_ok_iff`, `mapM_mem`, `mapM_forall₂`, `mapM_error`, `mapM_total`   a computation that throws, in
                             sequence and over the members of a list;
* `forall₂_mem`              two lists in step;
* `sortedSet`                the distinct members in order, with `mem_sortedSet`, `sortedSet_one` and
                             `sortedSet_eq_iff`.
-/

namespace Sys

section
variable {ε α β : Type*} {f : α → Except ε β}

theorem bind_ok_iff {γ : Type u} {β : Type u} {x : Except ε γ} {f : γ → Except ε β} {b : β} :
    (x >>= f) = .ok b ↔ ∃ c, x = .ok c ∧ f c = .ok b := by
  cases x with
  | error e =>
    constructor
    · intro h
      cases h
    · rintro ⟨c, hc, _⟩
      cases hc
  | ok c =>
    constructor
    · intro h
      exact ⟨c, rfl, h⟩
    · rintro ⟨c', hc, h⟩
      cases hc
      exact h

/-- the results are those of the members -/
theorem mapM_mem {l : List α} {rs : List β} (h : l.mapM f = .ok rs) :
    (∀ a ∈ l, ∃ r ∈ rs, f a = .ok r) ∧ ∀ r ∈ rs, ∃ a ∈ l, f a = .ok r := by
  induction l generalizing rs with
  | nil =>
    cases h
    exact ⟨List.forall_mem_nil _, List.forall_mem_nil _⟩
  | cons a l ih =>
    rw [List.mapM_cons] at h
    cases ha : f a with
    | error e =>
      rw [ha] at h
      cases h
    | ok r =>
      cases hl : l.mapM f with
      | error e =>
        rw [ha, hl] at h
        cases h
      | ok rs' =>
        rw [ha, hl] at h
        cases h
        obtain ⟨hto, hfrom⟩ := ih hl
        constructor
        · intro b hb
          rcases List.mem_cons.mp hb with rfl | hb
          · exact ⟨r, List.mem_cons_self, ha⟩
          · obtain ⟨q, hq, hfq⟩ := hto b hb
            exact ⟨q, List.mem_cons_of_mem r hq, hfq⟩
        · intro q hq
          rcases List.mem_cons.mp hq with rfl | hq
          · exact ⟨a, List.mem_cons_self, ha⟩
          · obtain ⟨b, hb, hfb⟩ := hfrom q hq
            exact ⟨b, List.mem_cons_of_mem a hb, hfb⟩

/-- .. one for each, in their order -/
theorem mapM_forall₂ {l : List α} {rs : List β} :
    l.mapM f = .ok rs ↔ List.Forall₂ (fun a r => f a = .ok r) l rs := by
  induction l generalizing rs with
  | nil =>
    rw [List.forall₂_nil_left_iff, List.mapM_nil]
    exact ⟨fun h => (Except.ok.inj h).symm, fun h => congrArg Except.ok h.symm⟩
  | cons a l ih =>
    rw [List.mapM_cons, List.forall₂_cons_left_iff]
    constructor
    · intro h
      obtain ⟨r, hr, h⟩ := bind_ok_iff.mp h
      obtain ⟨rs', hrs, h⟩ := bind_ok_iff.mp h
      exact ⟨r, rs', hr, ih.mp hrs, (Except.ok.inj h).symm⟩
    · rintro ⟨r, rs', hr, hrs, rfl⟩
      rw [hr, ih.mpr hrs]
      rfl

/-- what is thrown is thrown by a member -/
theorem mapM_error {l : List α} {e : ε} (h : l.mapM f = .error e) : ∃ a ∈ l, f a = .error e := by
  induction l with
  | nil => cases h
  | cons a l ih =>
    rw [List.mapM_cons] at h
    cases ha : f a with
    | error e' =>
      rw [ha] at h
      cases h
      exact ⟨a, List.mem_cons_self, ha⟩
    | ok r =>
      rw [ha] at h
      cases hl : l.mapM f with
      | error e' =>
        rw [hl] at h
        cases h
        obtain ⟨b, hb, he⟩ := ih hl
        exact ⟨b, List.mem_cons_of_mem a hb, he⟩
      | ok rs =>
        rw [hl] at h
        cases h

/-- two lists in step have the same of what they have in pairs -/
theorem forall₂_mem {R : α → β → Prop} {l : List α} {l' : List β}
    (h : List.Forall₂ R l l') {P : α → Prop} {Q : β → Prop} (hpq : ∀ a b, R a b → (P a ↔ Q b)) :
    (∀ a ∈ l, P a) ↔ ∀ b ∈ l', Q b := by
  induction h with
  | nil => simp
  | cons hab _ ih => rw [List.forall_mem_cons, List.forall_mem_cons, hpq _ _ hab, ih]

/-- no member throws -/
theorem mapM_total {l : List α} (h : ∀ a ∈ l, ∃ r, f a = .ok r) : ∃ rs, l.mapM f = .ok rs := by
  induction l with
  | nil => exact ⟨[], rfl⟩
  | cons a l ih =>
    obtain ⟨r, hr⟩ := h a List.mem_cons_self
    obtain ⟨rs, hrs⟩ := ih fun b hb => h b (List.mem_cons_of_mem a hb)
    refine ⟨r :: rs, ?_⟩
    rw [List.mapM_cons, hr, hrs]
    rfl

end

section
variable {α : Type*} [DecidableEq α] (r : α → α → Prop) [DecidableRel r]

/-- `sorted(set(l))` -/
def sortedSet (l : List α) : List α := l.dedup.insertionSort r

theorem mem_sortedSet {l : List α} {x : α} : x ∈ sortedSet r l ↔ x ∈ l := by
  rw [sortedSet, List.mem_insertionSort, List.mem_dedup]

theorem nodup_sortedSet (l : List α) : (sortedSet r l).Nodup :=
  (List.perm_insertionSort r l.dedup).nodup_iff.mpr l.nodup_dedup

/-- one class is left: the list is not empty, and all its members are equal -/
theorem sortedSet_one {l : List α} {x : α} : sortedSet r l = [x] ↔ l ≠ [] ∧ ∀ y ∈ l, y = x := by
  constructor
  · intro h
    constructor
    · intro hl
      rw [hl] at h
      cases h
    · intro y hy
      have hmem := (mem_sortedSet r).mpr hy
      rw [h] at hmem
      exact List.mem_singleton.mp hmem
  · rintro ⟨hne, hall⟩
    apply List.perm_singleton.mp
    rw [List.perm_ext_iff_of_nodup (nodup_sortedSet r l) (List.nodup_singleton x)]
    intro y
    rw [mem_sortedSet, List.mem_singleton]
    refine ⟨hall y, ?_⟩
    rintro rfl
    obtain ⟨z, hz⟩ := List.exists_mem_of_ne_nil l hne
    rw [← hall z hz]
    exact hz

theorem sortedSet_eq_iff [Std.Antisymm r] [Std.Total r] [IsTrans α r] {l l' : List α} :
    sortedSet r l = sortedSet r l' ↔ ∀ x, x ∈ l ↔ x ∈ l' := by
  constructor
  · intro h x
    rw [← mem_sortedSet r, h, mem_sortedSet]
  · intro h
    refine List.Perm.eq_of_pairwise' (List.pairwise_insertionSort r _)
      (List.pairwise_insertionSort r _) ?_
    refine (List.perm_ext_iff_of_nodup (nodup_sortedSet r l) (nodup_sortedSet r l')).mpr ?_
    intro x
    rw [mem_sortedSet, mem_sortedSet]
    exact h x

end

end Sys
