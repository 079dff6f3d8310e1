import Mathlib.Data.List.Nodup
import Mathlib.Logic.Function.Basic

/-!
# Loans from a store

The contents of some cells are moved out into a list, one after the other, and moved back by
position.  A cell that was moved from holds `none`.

* `Loan.take`, `Loan.put`   the two loops;
* `Loan.take_fst`           the list holds what the cells held;
* `Loan.put_take`           **moved out and back, every cell is as it was**, if no cell comes twice.
-/

namespace Sys
namespace Loan
variable {κ α : Type} [DecidableEq κ] {ks : List κ} {s : κ → Option α}

def take : List κ → (κ → Option α) → List (Option α) × (κ → Option α)
  | [], s => ([], s)
  | k :: ks, s =>
    let r := take ks (Function.update s k none)
    (s k :: r.1, r.2)

def put : List κ → List (Option α) → (κ → Option α) → κ → Option α
  | k :: ks, v :: vs, s => put ks vs (Function.update s k v)
  | _, _, s => s

theorem take_fst (h : ks.Nodup) : (take ks s).1 = ks.map s := by
  induction ks generalizing s with
  | nil => rfl
  | cons k ks ih =>
    obtain ⟨hk, hks⟩ := List.nodup_cons.mp h
    rw [take, List.map_cons, ih hks]
    show s k :: ks.map (Function.update s k none) = s k :: ks.map s
    congr 1
    apply List.map_congr_left
    intro x hx
    have hne : x ≠ k := fun hxk => hk (hxk ▸ hx)
    exact Function.update_of_ne hne _ _

/-- a cell that is not put back can be written before or after -/
theorem put_update {k : κ} (h : k ∉ ks) (vs : List (Option α)) (v : Option α) :
    put ks vs (Function.update s k v) = Function.update (put ks vs s) k v := by
  induction ks generalizing vs s with
  | nil => rfl
  | cons x ks ih =>
    cases vs with
    | nil => rfl
    | cons w vs =>
      have hne : x ≠ k := fun hxk => h (hxk ▸ List.mem_cons_self)
      rw [put, Function.update_comm hne.symm, ih (fun hk => h (List.mem_cons_of_mem _ hk)), put]

theorem put_take (h : ks.Nodup) : put ks (take ks s).1 (take ks s).2 = s := by
  induction ks generalizing s with
  | nil => rfl
  | cons k ks ih =>
    obtain ⟨hk, hks⟩ := List.nodup_cons.mp h
    rw [take, put, put_update hk, ih hks, Function.update_idem, Function.update_eq_self]

end Loan
end Sys
