import Mathlib.Data.List.Nodup

/-!
# Consume-once handles

A board of promises, each set at most once, and a growing list of handles, each the only owner of
one promise: to take the value out of a handle leaves it without a future for good.

* `Handles`     what is read off a handle: its promise, whether it still holds its future, and what
                has been taken out of it;
* `Handles.Fair`, `Handles.Once`   one handle against the board, and all of them;
* `Once.grow`, `Once.alloc`, `Once.take`   a promise is set, a handle is made, a handle is read;
* `Once.unique` no two handles own one promise.
-/

namespace Sys

structure Handles (τ κ γ : Type*) where
  key : τ → κ
  valid : τ → Bool
  got : τ → List γ

namespace Handles

section
variable {τ κ β γ : Type*} (H : Handles τ κ γ) (made : τ → β → γ → Prop)

/-- `made h v g`: out of `h` the value `v` is taken as `g` -/
def Fair (board : κ → List β) (h : τ) : Prop :=
  (H.valid h = true ∧ H.got h = []) ∨
    (H.valid h = false ∧ ∃ v g, board (H.key h) = [v] ∧ H.got h = [g] ∧ made h v g)

structure Once (board : κ → List β) (hs : List τ) : Prop where
  distinct : (hs.map H.key).Nodup
  fair : ∀ h ∈ hs, H.Fair made board h

variable {H made} {board board' : κ → List β} {hs : List τ}

theorem once_nil : H.Once made board [] where
  distinct := List.nodup_nil
  fair := by simp

theorem Fair.grow {h : τ} (hf : H.Fair made board h)
    (hb : ∀ v, board (H.key h) = [v] → board' (H.key h) = [v]) : H.Fair made board' h := by
  rcases hf with hf | ⟨hv, v, g, hk, hg, hm⟩
  · exact Or.inl hf
  · exact Or.inr ⟨hv, v, g, hb v hk, hg, hm⟩

/-- promises may be set, a promise that is set stays as it is -/
theorem Once.grow (h : H.Once made board hs)
    (hb : ∀ k v, board k = [v] → board' k = [v]) : H.Once made board' hs where
  distinct := h.distinct
  fair := fun x hx => (h.fair x hx).grow (fun v => hb _ v)

theorem Once.alloc (h : H.Once made board hs) {x : τ} (hk : H.key x ∉ hs.map H.key)
    (hv : H.valid x = true) (hg : H.got x = []) : H.Once made board (hs ++ [x]) where
  distinct := by
    rw [List.map_append, List.map_singleton]
    exact h.distinct.append (List.nodup_singleton _)
      (fun k hk' hkx => hk (by rw [List.mem_singleton.mp hkx] at hk'; exact hk'))
  fair := by
    intro y hy
    rcases List.mem_append.mp hy with hy | hy
    · exact h.fair y hy
    · rw [List.mem_singleton.mp hy]
      exact Or.inl ⟨hv, hg⟩

theorem Once.take (h : H.Once made board hs) {i : Nat} {x y : τ} (hi : hs[i]? = some x)
    {v : β} {g : γ} (hb : board (H.key x) = [v]) (hk : H.key y = H.key x)
    (hy : H.valid y = false) (hg : H.got y = [g]) (hm : made y v g) :
    H.Once made board (hs.set i y) where
  distinct := by
    have hsame : (hs.set i y).map H.key = hs.map H.key := by
      apply List.ext_getElem?
      intro j
      rw [List.getElem?_map, List.getElem?_map]
      by_cases hj : i = j
      · subst hj
        rw [List.getElem?_set_self (List.getElem?_eq_some_iff.mp hi).1, hi]
        exact congrArg some hk
      · rw [List.getElem?_set_ne hj]
    rw [hsame]
    exact h.distinct
  fair := by
    intro z hz
    rcases List.mem_or_eq_of_mem_set hz with hz | rfl
    · exact h.fair z hz
    · exact Or.inr ⟨hy, v, g, by rw [hk]; exact hb, hg, hm⟩

theorem Once.unique (h : H.Once made board hs) {x y : τ} (hx : x ∈ hs) (hy : y ∈ hs)
    (hk : H.key x = H.key y) : x = y :=
  List.inj_on_of_nodup_map h.distinct hx hy hk

/-- what was taken out of a handle is the value of its promise, once -/
theorem Fair.taken {h : τ} (hf : H.Fair made board h) {g : γ} (hg : g ∈ H.got h) :
    H.valid h = false ∧ H.got h = [g] ∧ ∃ v, board (H.key h) = [v] ∧ made h v g := by
  rcases hf with ⟨_, hn⟩ | ⟨hv, v, g', hk, hg', hm⟩
  · rw [hn] at hg
    cases hg
  · rw [hg', List.mem_singleton] at hg
    subst hg
    exact ⟨hv, hg', v, hk, hm⟩

end

end Handles

end Sys
