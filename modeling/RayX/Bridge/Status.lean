import RayX.Bridge.Slot

/-!
# The status of a refused bridge call

What `acquire` reports when it fails, against the Runtimes of the run: `CALL_RUNTIME_ABSENT` says
that no Runtime is attached, `CALL_RUNTIME_DRAINING` that one is shutting down.

* `Attached`, `Draining`   a Runtime is published, a `drain_and_unpublish` has begun and not returned;
* `Accurate`               the status of a refused `acquire` says which;
* `Flagged`                the invariant: `draining_` outlives the drain until the next publish;
* `bridge_status_iff`      **the status is right except between a drain and the next publish**.
-/

namespace RayX
open Sys

namespace Bridge

/-- a Runtime has been published and has not begun its `drain_and_unpublish` -/
def Attached (s : Bridge) : Prop := ∃ r, s.phase r = .live

def Draining (s : Bridge) : Prop := ∃ r, s.phase r = .draining

/-- what the two statuses say -/
def Accurate (s : Bridge) : Prop :=
  ∀ why, s.slot.acquire.1 = .error why → (why = .draining ↔ s.Draining) ∧
    (why = .absent ↔ ¬ s.Attached ∧ ¬ s.Draining)

/-- the two fields that `acquire` reads, after the steps `as` -/
structure Flagged (as : List Act) (s : Bridge) : Prop where
  live : ∀ r, s.phase r = .live → s.slot.bridge = some r ∧ .publish r ∈ as
  drains : s.Draining → s.slot.draining = true
  flag : s.slot.draining = true → s.slot.bridge = none ∧ ∃ r, .publish r ∈ as
  never : s.slot.bridge = none → s.slot.draining = false → ∀ r, .publish r ∉ as

variable {s s' : Bridge} {as : List Act}

theorem flagged_init : Flagged [] {} where
  live := by simp
  drains := by simp [Draining]
  flag := by simp
  never := by simp

/-- the Runtime that a step publishes -/
def Act.publishes : Act → Option Nat
  | .publish r => some r
  | _ => none

/-- a step that neither publishes nor begins a drain -/
theorem Flagged.keep (h : Flagged as s) {a : Act} (ha : a.publishes = none)
    (hlive : ∀ r, s'.phase r = .live → s.phase r = .live)
    (hdrain : ∀ r, s'.phase r = .draining → s.phase r = .draining)
    (hb : s'.slot.bridge = s.slot.bridge) (hd : s'.slot.draining = s.slot.draining) :
    Flagged (as ++ [a]) s' where
  live r hr := by
    obtain ⟨hbr, hpub⟩ := h.live r (hlive r hr)
    exact ⟨hb.trans hbr, List.mem_append_left _ hpub⟩
  drains hr := by
    obtain ⟨r, hr⟩ := hr
    rw [hd]
    exact h.drains ⟨r, hdrain r hr⟩
  flag hf := by
    rw [hd] at hf
    obtain ⟨hnone, r, hr⟩ := h.flag hf
    exact ⟨hb.trans hnone, r, List.mem_append_left _ hr⟩
  never hnone hf := by
    rw [hb] at hnone
    rw [hd] at hf
    intro r hr
    rcases List.mem_append.mp hr with hr | hr
    · exact h.never hnone hf r hr
    · rw [← List.mem_singleton.mp hr] at ha
      exact Option.some_ne_none r ha

/-- one Runtime moves to a phase that is neither of the two -/
theorem Flagged.move (h : Flagged as s) {a : Act} (ha : a.publishes = none) {x : Nat}
    {p : RuntimePhase} (hphase : s'.phase = Function.update s.phase x p) (h1 : p ≠ .live)
    (h2 : p ≠ .draining) (hslot : s'.slot = s.slot) : Flagged (as ++ [a]) s' := by
  have hof : ∀ q, q ≠ p → ∀ r, s'.phase r = q → s.phase r = q := by
    intro q hq r hr
    rw [hphase] at hr
    by_cases hrx : r = x
    · rw [hrx, Function.update_self] at hr
      exact absurd hr.symm hq
    · rw [Function.update_of_ne hrx] at hr
      exact hr
  exact h.keep ha (hof _ h1.symm) (hof _ h2.symm) (by rw [hslot]) (by rw [hslot])

theorem acquire_slot (s : Slot) :
    s.acquire.2.bridge = s.bridge ∧ s.acquire.2.draining = s.draining := by
  unfold Slot.acquire
  split
  · exact ⟨rfl, rfl⟩
  · exact ⟨rfl, rfl⟩

theorem release_slot (s : Slot) :
    s.release.bridge = s.bridge ∧ s.release.draining = s.draining := by
  unfold Slot.release
  split
  · exact ⟨rfl, rfl⟩
  · exact ⟨rfl, rfl⟩

/-- **Every step keeps what the flag says.** -/
theorem Flagged.step (h : Flagged as s) (hg : Gate s) {a : Act} (hs : step s a = some s') :
    Flagged (as ++ [a]) s' := by
  cases a with
  | attach r threads hpx =>
    simp only [Bridge.step, Option.ite_none_right_eq_some] at hs
    obtain ⟨_, hs⟩ := hs
    split at hs <;> cases hs
    · exact h.move rfl (p := .attached) rfl (by decide) (by decide) rfl
    · exact h.move rfl (p := .gone) rfl (by decide) (by decide) rfl
  | publish r =>
    simp only [Bridge.step, Option.ite_none_right_eq_some, Option.some.injEq] at hs
    obtain ⟨hr, rfl⟩ := hs
    have hholds : (s.phase r).holds = true := by
      rw [hr]
      rfl
    refine ⟨fun x hx => ?_, ?_, fun hf => absurd hf Bool.false_ne_true,
      fun hb => absurd hb (Option.some_ne_none r)⟩
    · rw [(hg.only hholds hx rfl).1]
      exact ⟨rfl, by simp⟩
    · rintro ⟨x, hx⟩
      cases (hg.only hholds hx rfl).2
  | drainBegin r =>
    simp only [Bridge.step, Option.ite_none_right_eq_some, Option.some.injEq] at hs
    obtain ⟨hr, rfl⟩ := hs
    have hholds : (s.phase r).holds = true := by
      rw [hr]
      rfl
    refine ⟨fun x hx => ?_, fun _ => rfl,
      fun _ => ⟨rfl, r, List.mem_append_left _ (h.live r hr).2⟩,
      fun _ hf => absurd hf.symm Bool.false_ne_true⟩
    cases (hg.only hholds hx rfl).2
  | drainEnd r =>
    simp only [Bridge.step, Option.ite_none_right_eq_some, Option.some.injEq] at hs
    obtain ⟨_, rfl⟩ := hs
    exact h.move rfl (p := .drained) rfl (by decide) (by decide) rfl
  | other call hpx =>
    simp only [Bridge.step, Option.ite_none_right_eq_some, Option.some.injEq] at hs
    obtain ⟨_, rfl⟩ := hs
    exact h.keep rfl (fun _ hr => hr) (fun _ hr => hr) rfl rfl
  | build r =>
    simp only [Bridge.step, Option.ite_none_right_eq_some, Option.some.injEq] at hs
    obtain ⟨_, rfl⟩ := hs
    exact h.move rfl (p := .built) rfl (by decide) (by decide) rfl
  | buildFails r hpx =>
    simp only [Bridge.step, Option.ite_none_right_eq_some, Option.some.injEq] at hs
    obtain ⟨_, rfl⟩ := hs
    exact h.move rfl (p := .gone) rfl (by decide) (by decide) rfl
  | teardown r =>
    simp only [Bridge.step, Option.ite_none_right_eq_some, Option.some.injEq] at hs
    obtain ⟨_, rfl⟩ := hs
    exact h.move rfl (p := .torn) rfl (by decide) (by decide) rfl
  | detach r hpx =>
    simp only [Bridge.step, Option.ite_none_right_eq_some, Option.some.injEq] at hs
    obtain ⟨_, rfl⟩ := hs
    exact h.move rfl (p := .gone) rfl (by decide) (by decide) rfl
  | acquire c =>
    have hacq := acquire_slot s.slot
    simp only [Bridge.step] at hs
    split at hs
    · rename_i hc hslot
      cases hs
      rw [hslot] at hacq
      exact h.keep rfl (fun _ hr => hr) (fun _ hr => hr) hacq.1 hacq.2
    · rename_i hc hslot
      cases hs
      rw [hslot] at hacq
      exact h.keep rfl (fun _ hr => hr) (fun _ hr => hr) hacq.1 hacq.2
    · cases hs
  | dispatch c throws =>
    simp only [Bridge.step] at hs
    split at hs
    · cases hs
      exact h.keep rfl (fun _ hr => hr) (fun _ hr => hr) rfl rfl
    · cases hs
  | release c =>
    have hrel := release_slot s.slot
    simp only [Bridge.step] at hs
    split at hs
    · cases hs
      exact h.keep rfl (fun _ hr => hr) (fun _ hr => hr) hrel.1 hrel.2
    · cases hs

theorem flagged_reach (h : run step {} as = some s) : Flagged as s := by
  refine (run_history (P := fun as s => Gate s ∧ Flagged as s) (C := fun _ _ => True) ?_
    ⟨gate_init, flagged_init⟩ (stepsMeet_labels step _ _ (fun _ _ => trivial)) h).2
  rintro as s a s' - ⟨hg, hf⟩ - hs
  exact ⟨hg.step hs, hf.step hg hs⟩

/-- **The status of a refused call.**  After any steps, `acquire` reports what the Runtimes are doing
exactly when one is attached or draining or none has been published yet. -/
theorem bridge_status_iff (h : run step {} as = some s) :
    s.Accurate ↔ s.Attached ∨ s.Draining ∨ ∀ r, Act.publish r ∉ as := by
  have hf := flagged_reach h
  cases hb : s.slot.bridge with
  | some r =>
    have hr := (gate_reach ⟨as, h⟩).published r hb
    refine iff_of_true ?_ (Or.inl ⟨r, hr⟩)
    intro why hwhy
    rw [Slot.acquire, hb] at hwhy
    cases hwhy
  | none =>
    have hoff : ¬ s.Attached := by
      rintro ⟨r, hr⟩
      rw [(hf.live r hr).1] at hb
      cases hb
    cases hd : s.slot.draining with
    | true =>
      have hacq : s.slot.acquire.1 = .error .draining := by
        rw [Slot.acquire, hb, hd]
        rfl
      obtain ⟨_, r, hr⟩ := hf.flag hd
      constructor
      · intro hacc
        exact Or.inr (Or.inl ((hacc _ hacq).1.mp rfl))
      · rintro (hat | hdr | hno)
        · exact absurd hat hoff
        · intro why hwhy
          rw [hacq] at hwhy
          cases hwhy
          exact ⟨iff_of_true rfl hdr, iff_of_false (by decide) (fun hn => hn.2 hdr)⟩
        · exact absurd hr (hno r)
    | false =>
      have hacq : s.slot.acquire.1 = .error .absent := by
        rw [Slot.acquire, hb, hd]
        rfl
      have hdr : ¬ s.Draining := by
        intro hdr
        rw [hf.drains hdr] at hd
        cases hd
      refine iff_of_true ?_ (Or.inr (Or.inr (hf.never hb hd)))
      intro why hwhy
      rw [hacq] at hwhy
      cases hwhy
      exact ⟨iff_of_false (by decide) hdr, iff_of_true rfl ⟨hoff, hdr⟩⟩

/-- the first Runtime has been shut down, a caller asks -/
def betweenRun : List Act :=
  [.attach 0 4 (.ok true), .build 0, .publish 0, .drainBegin 0, .drainEnd 0, .teardown 0,
    .detach 0 (.ok true)]

/-- a Runtime that builds its lanes, and nobody published before it -/
theorem bridge_status_first : ∃ s, run step {} (betweenRun.take 2) = some s ∧ s.Accurate := by
  have hnone : ∀ r, Act.publish r ∉ betweenRun.take 2 := by simp [betweenRun]
  exact ⟨_, rfl, (bridge_status_iff rfl).mpr (Or.inr (Or.inr hnone))⟩

/-- after the last Runtime the status is that of a shutdown in progress -/
theorem status_between : ∃ s, run step {} betweenRun = some s ∧
    s.slot.acquire.1 = .error .draining ∧ ¬ s.Draining ∧ ¬ s.Accurate := by
  have hidle : ∀ s, run step {} betweenRun = some s → ¬ s.Draining := by
    rintro s hrun ⟨r, hr⟩
    cases hrun
    cases r with
    | zero => cases hr
    | succ r => cases hr
  refine ⟨_, rfl, rfl, hidle _ rfl, fun hacc => ?_⟩
  exact hidle _ rfl ((hacc _ rfl).1.mp rfl)

end Bridge

end RayX
