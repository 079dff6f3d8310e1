import Mathlib.Order.Lattice

/-!
# One-time events and the reads of an observer

An event happens once or never; an observer reads at times that do not go back, and once it has seen an
event it sees it for good.

* `happened`        the event is over at a time;
* `ReadTimes`           the times of the reads;
* `ReadTimes.sees_mono`, `happened_before`   what a later read sees, and what is seen of an earlier event.
-/

namespace Sys

section
variable {T : Type} [LinearOrder T]

/-- `none` for an event that never happens -/
def happened (e : Option T) (t : T) : Bool := e.any fun x => x ≤ t

theorem happened_iff {e : Option T} {t : T} : happened e t = true ↔ ∃ x, e = some x ∧ x ≤ t := by
  cases e <;> simp [happened]

theorem happened_mono {e : Option T} {s t : T} (h : s ≤ t) (he : happened e s = true) :
    happened e t = true := by
  obtain ⟨x, hx, hle⟩ := happened_iff.mp he
  exact happened_iff.mpr ⟨x, hx, hle.trans h⟩

/-- an event before one that has happened has happened -/
theorem happened_before {d x t : T} (h : d < x) (hx : x ≤ t) : happened (some d) t = true :=
  happened_iff.mpr ⟨d, rfl, h.le.trans hx⟩

structure ReadTimes (T : Type) [LinearOrder T] where
  time : Nat → T
  mono : Monotone time

def ReadTimes.sees (r : ReadTimes T) (e : Option T) (k : Nat) : Bool := happened e (r.time k)

theorem ReadTimes.sees_mono (r : ReadTimes T) {e : Option T} {j k : Nat} (h : j ≤ k)
    (he : r.sees e j = true) : r.sees e k = true :=
  happened_mono (r.mono h) he

end

end Sys
