import Mathlib.Order.Monotone.Basic
import Mathlib.Data.List.Basic

/-!
# A deadman over the time stamp of a file

One party writes a file from time to time.  Another reads the time stamp of the file, and when the stamp
has not changed for too long it takes the writer for dead.  The stamps are coarse, and between the reads
and the clock readings of the watcher any time may pass.

* `Mtime`            the stamp that a file system gives to a write;
* `Deadman`          the watcher: the last stamp it saw, and since when it waits for another;
* `Deadman.Watch`    what it knows of the writes, with a lemma for each of its moves;
* `Watch.silent`     **between its start and its last look there was no write that the stamp could show**.
-/

namespace Sys

/-- the clock of a file system, `grain` coarse -/
structure Mtime where
  of : Nat → Nat
  grain : Nat
  mono : Monotone of
  lt : ∀ t, t < of t + grain

/-- the stamp of a file that was written at the times `beats`, the newest first -/
def Mtime.stamp (m : Mtime) (beats : List Nat) : Option Nat := beats.head?.map m.of

/-- `readAt`: the time of the last look -/
structure Deadman where
  last : Option Nat := none
  start : Nat := 0
  readAt : Nat := 0

namespace Deadman

def arm (d : Deadman) (stamp : Option Nat) (now : Nat) : Deadman := { d with last := stamp, readAt := now }

def restart (d : Deadman) (now : Nat) : Deadman := { d with start := now }

def expired (d : Deadman) (timeout now : Nat) : Bool := d.start + timeout < now

/-- the times of the writes, the newest first -/
structure Beats (beats : List Nat) (now : Nat) : Prop where
  sorted : beats.Pairwise (· ≥ ·)
  past : ∀ w ∈ beats, w ≤ now

section
variable {m : Mtime} {beats : List Nat} {now now' : Nat} {d : Deadman}

theorem Beats.nil (now : Nat) : Beats [] now := ⟨List.Pairwise.nil, fun _ h => nomatch h⟩

theorem Beats.cons (h : Beats beats now) : Beats (now :: beats) now := by
  constructor
  · exact List.pairwise_cons.mpr ⟨fun w hw => h.past w hw, h.sorted⟩
  · intro w hw
    rcases List.mem_cons.mp hw with rfl | hw
    · exact Nat.le_refl _
    · exact h.past w hw

theorem Beats.later (h : Beats beats now) (hle : now ≤ now') : Beats beats now' :=
  ⟨h.sorted, fun w hw => Nat.le_trans (h.past w hw) hle⟩

/-- no write is newer than the one that the stamp is of -/
theorem Beats.head (h : Beats beats now) {l : Nat} (hl : m.stamp beats = some l) :
    ∃ w₀, w₀ ≤ now ∧ l = m.of w₀ ∧ ∀ w ∈ beats, w ≤ w₀ := by
  cases beats with
  | nil => cases hl
  | cons w₀ beats =>
    refine ⟨w₀, h.past w₀ List.mem_cons_self, (Option.some.inj hl).symm, ?_⟩
    intro w hw
    rcases List.mem_cons.mp hw with rfl | hw
    · exact Nat.le_refl _
    · exact (List.pairwise_cons.mp h.sorted).1 w hw

/-- the stamp `last` is that of a write before `t` -/
def Origin (m : Mtime) (d : Deadman) (t : Nat) : Prop := ∀ l, d.last = some l → ∃ w₀, w₀ ≤ t ∧ l = m.of w₀

/-- **What the deadman knows.**  From `start` to the last look there was no write of another stamp. -/
structure Watch (m : Mtime) (beats : List Nat) (d : Deadman) : Prop where
  origin : Origin m d d.start
  quiet : ∀ w ∈ beats, d.start ≤ w → w < d.readAt → d.last = some (m.of w)

theorem Origin.arm (h : Beats beats now) : Origin m (d.arm (m.stamp beats) now) now := by
  intro l hl
  obtain ⟨w₀, hle, hof, _⟩ := h.head hl
  exact ⟨w₀, hle, hof⟩

/-- the start is put after the look that saw the stamp -/
theorem Watch.restart {t : Nat} (ho : Origin m d t) (ht : t ≤ now) (hr : d.readAt ≤ now) :
    Watch m beats (d.restart now) := by
  constructor
  · intro l hl
    obtain ⟨w₀, hle, hof⟩ := ho l hl
    exact ⟨w₀, Nat.le_trans hle ht, hof⟩
  · intro w _ hs hlt
    exact absurd (Nat.lt_of_le_of_lt hs hlt) (Nat.not_lt.mpr hr)

/-- a look that sees the same stamp -/
theorem Watch.look (h : Watch m beats d) (hb : Beats beats now) (hs : m.stamp beats = d.last) :
    Watch m beats (d.arm (m.stamp beats) now) := by
  constructor
  · show Origin m (d.arm (m.stamp beats) now) d.start
    intro l hl
    exact h.origin l (hs ▸ hl)
  · intro w hw hstart _
    show m.stamp beats = some (m.of w)
    cases hl : m.stamp beats with
    | none =>
      have hnil : beats = [] := by
        cases beats with
        | nil => rfl
        | cons w₀ beats => cases hl
      rw [hnil] at hw
      cases hw
    | some l =>
      obtain ⟨w₁, _, hof, hmax⟩ := hb.head hl
      obtain ⟨w₀, hle, hof₀⟩ := h.origin l (hs ▸ hl)
      have hlow : l ≤ m.of w := hof₀ ▸ m.mono (Nat.le_trans hle hstart)
      have hhigh : m.of w ≤ l := hof ▸ m.mono (hmax w hw)
      rw [Nat.le_antisymm hlow hhigh]

/-- a write after the last look -/
theorem Watch.beat (h : Watch m beats d) (hr : d.readAt ≤ now) : Watch m (now :: beats) d := by
  constructor
  · exact h.origin
  · intro w hw hs hlt
    rcases List.mem_cons.mp hw with rfl | hw
    · exact absurd hlt (Nat.not_lt.mpr hr)
    · exact h.quiet w hw hs hlt

/-- **The writer was silent.**  A write between the start and the last look falls into the grain of the
stamp that the watcher holds, which is that of a write before its start. -/
theorem Watch.silent (h : Watch m beats d) {w : Nat} (hw : w ∈ beats) (hs : d.start ≤ w)
    (hr : w < d.readAt) : ∃ w₀, w₀ ≤ d.start ∧ d.last = some (m.of w₀) ∧ w < m.of w₀ + m.grain := by
  have hlast := h.quiet w hw hs hr
  obtain ⟨w₀, hle, hof⟩ := h.origin _ hlast
  refine ⟨w₀, hle, hof ▸ hlast, ?_⟩
  rw [← hof]
  exact m.lt w

end

end Deadman
end Sys
