import RayX.Lib.Run

/-!
# Numbers drawn in one place and appended in another

Threads draw numbers from a counter, and append what they drew to a log of bounded length.  Drawing and
appending are two steps, and other threads move in between.

* `Stamps`, `Stamps.Moves`   the counter, the log and the numbers held, and the moves of one thread;
* `Stamps.Inv`               each number drawn is in the log, held, or was drawn for nothing;
* `Stamps.InTurn`            the numbers drawn after the one that is appended are all still held;
* `Stamping.sorted_iff`      **the log is in the order of its numbers exactly when every number was
                             appended in turn.**
-/

namespace Sys

structure Stamps (ι : Type*) where
  next : Nat
  log : List Nat
  bound : Nat
  held : ι → Option Nat

namespace Stamps

section
variable {ι : Type*}

/-- the thread that moves appends nothing, or no thread has appended a number drawn later -/
def InTurn (t : Stamps ι) (i : ι) : Prop :=
  ∀ k, t.held i = some k → t.log.length < t.bound → ∀ m, k < m → m < t.next → ∃ j, t.held j = some m

def Sorted (t : Stamps ι) : Prop := t.log.Pairwise (· < ·)

structure Inv (t : Stamps ι) : Prop where
  logged : ∀ k ∈ t.log, k < t.next
  held : ∀ i k, t.held i = some k → k < t.next ∧ k ∉ t.log
  distinct : ∀ i j k, t.held i = some k → t.held j = some k → i = j
  /-- while there is room no number is lost -/
  kept : t.log.length < t.bound → ∀ k < t.next, k ∈ t.log ∨ ∃ i, t.held i = some k

theorem Inv.init {t : Stamps ι} (hnext : t.next = 0) (hlog : t.log = []) (hheld : ∀ i, t.held i = none) :
    t.Inv := by
  constructor
  · intro k hk
    rw [hlog] at hk
    cases hk
  · intro i k hk
    rw [hheld] at hk
    cases hk
  · intro i j k hk
    rw [hheld] at hk
    cases hk
  · intro _ k hk
    rw [hnext] at hk
    cases hk

end

section
variable {ι : Type*} [DecidableEq ι]

/-- the moves of thread `i`: a thread that holds a number appends it next -/
inductive Moves (i : ι) (t : Stamps ι) : Stamps ι → Prop
  | rests (h : t.held i = none) : Moves i t t
  | draws (h : t.held i = none) :
      Moves i t { t with next := t.next + 1, held := Function.update t.held i (some t.next) }
  | appends (k : Nat) (h : t.held i = some k) (hroom : t.log.length < t.bound) :
      Moves i t { t with log := t.log ++ [k], held := Function.update t.held i none }
  | drops (k : Nat) (h : t.held i = some k) (hfull : t.bound ≤ t.log.length) :
      Moves i t { t with held := Function.update t.held i none }

variable {t t' : Stamps ι} {i : ι}

/-- a thread that holds nothing any more -/
theorem distinct_clear (hI : t.Inv) (j l : ι) (k : Nat)
    (hj : Function.update t.held i none j = some k) (hl : Function.update t.held i none l = some k) :
    j = l := by
  rcases update_some hj with ⟨-, hnew⟩ | ⟨-, hj⟩
  · cases hnew
  · rcases update_some hl with ⟨-, hnew⟩ | ⟨-, hl⟩
    · cases hnew
    · exact hI.distinct j l k hj hl

theorem Moves.inv (h : Moves i t t') (hI : t.Inv) : t'.Inv := by
  cases h with
  | rests => exact hI
  | draws hnone =>
    constructor
    · intro k hk
      exact Nat.lt_succ_of_lt (hI.logged k hk)
    · intro j k hk
      rcases update_some hk with ⟨-, hnew⟩ | ⟨-, hold⟩
      · cases hnew
        exact ⟨Nat.lt_succ_self _, fun hmem => Nat.lt_irrefl _ (hI.logged _ hmem)⟩
      · exact ⟨Nat.lt_succ_of_lt (hI.held j k hold).1, (hI.held j k hold).2⟩
    · intro j l k hj hl
      -- the number drawn is greater than those held
      rcases update_some hj with ⟨hji, hj⟩ | ⟨-, hj⟩
      · rcases update_some hl with ⟨hli, -⟩ | ⟨-, hl⟩
        · rw [hji, hli]
        · cases hj
          exact absurd (hI.held l _ hl).1 (Nat.lt_irrefl _)
      · rcases update_some hl with ⟨-, hl⟩ | ⟨-, hl⟩
        · cases hl
          exact absurd (hI.held j _ hj).1 (Nat.lt_irrefl _)
        · exact hI.distinct j l k hj hl
    · intro hroom k hk
      rcases Nat.lt_succ_iff_lt_or_eq.mp hk with hlt | heq
      · rcases hI.kept hroom k hlt with hlog | ⟨j, hj⟩
        · exact Or.inl hlog
        · refine Or.inr ⟨j, update_keeps ?_ hj⟩
          intro h
          rw [h, hnone] at hj
          cases hj
      · rw [heq]
        exact Or.inr ⟨i, Function.update_self ..⟩
  | appends k hk hroom =>
    constructor
    · intro m hm
      rcases List.mem_append.mp hm with hold | hnew
      · exact hI.logged m hold
      · rw [List.mem_singleton.mp hnew]
        exact (hI.held i k hk).1
    · intro j m hm
      rcases update_some hm with ⟨-, hnew⟩ | ⟨hj, hold⟩
      · cases hnew
      · refine ⟨(hI.held j m hold).1, ?_⟩
        intro hmem
        rcases List.mem_append.mp hmem with hlog | hnew
        · exact (hI.held j m hold).2 hlog
        · rw [List.mem_singleton.mp hnew] at hold
          exact hj (hI.distinct j i k hold hk)
    · exact distinct_clear hI
    · intro _ m hm
      rcases hI.kept hroom m hm with hlog | ⟨j, hj⟩
      · exact Or.inl (List.mem_append_left [k] hlog)
      · by_cases hji : j = i
        · rw [hji, hk] at hj
          cases hj
          exact Or.inl (List.mem_append_right t.log (List.mem_singleton_self k))
        · exact Or.inr ⟨j, update_keeps hji hj⟩
  | drops k hk hfull =>
    refine ⟨hI.logged, ?_, distinct_clear hI, ?_⟩
    · intro j m hm
      rcases update_some hm with ⟨-, hnew⟩ | ⟨-, hold⟩
      · cases hnew
      · exact hI.held j m hold
    · intro hroom
      exact absurd hroom (Nat.not_lt_of_le hfull)

omit [DecidableEq ι] in
/-- what is appended comes last exactly when it is appended in turn -/
theorem Inv.last_iff (hI : t.Inv) {k : Nat} (hk : t.held i = some k) (hroom : t.log.length < t.bound) :
    (∀ m ∈ t.log, m < k) ↔ t.InTurn i := by
  constructor
  · intro h k' hk' _ m hkm hm
    rw [hk] at hk'
    cases hk'
    rcases hI.kept hroom m hm with hlog | hheld
    · exact absurd (h m hlog) (Nat.not_lt_of_lt hkm)
    · exact hheld
  · intro h m hm
    rcases Nat.lt_trichotomy m k with hlt | heq | hgt
    · exact hlt
    · rw [heq] at hm
      exact absurd hm (hI.held i k hk).2
    · -- a later number is held, so it is not in the log
      obtain ⟨j, hj⟩ := h k hk hroom m hgt (hI.logged m hm)
      exact absurd hm (hI.held j m hj).2

/-- **A move keeps the order exactly when it is in turn.** -/
theorem Moves.sorted_iff (h : Moves i t t') (hI : t.Inv) : t'.Sorted ↔ t.Sorted ∧ t.InTurn i := by
  -- a move that does not append leaves the log alone
  have hrest : (∀ k, t.held i = some k → ¬ t.log.length < t.bound) →
      (t.Sorted ↔ t.Sorted ∧ t.InTurn i) := by
    intro hno
    have hturn : t.InTurn i := fun k hk hroom => absurd hroom (hno k hk)
    exact ⟨fun hs => ⟨hs, hturn⟩, fun hs => hs.1⟩
  cases h with
  | rests hnone =>
    refine hrest ?_
    intro k hk
    rw [hnone] at hk
    cases hk
  | draws hnone =>
    refine hrest ?_
    intro k hk
    rw [hnone] at hk
    cases hk
  | appends k hk hroom =>
    rw [← hI.last_iff hk hroom]
    show (t.log ++ [k]).Pairwise (· < ·) ↔ _
    rw [List.pairwise_append]
    constructor
    · rintro ⟨hs, -, hlast⟩
      exact ⟨hs, fun m hm => hlast m hm k (List.mem_singleton_self k)⟩
    · rintro ⟨hs, hlast⟩
      refine ⟨hs, List.pairwise_singleton _ k, ?_⟩
      intro m hm l hl
      rw [List.mem_singleton.mp hl]
      exact hlast m hm
  | drops k hk hfull =>
    refine hrest ?_
    intro _ _
    exact Nat.not_lt_of_le hfull

end

end Stamps

/-! ## systems with stamps -/

section
variable {σ α ι : Type*} [DecidableEq ι]

/-- a system whose view moves like stamps: a label is a step of the thread `who a`, or of none -/
structure Stamping (step : σ → α → Option σ) (view : σ → Stamps ι) (who : α → Option ι) : Prop where
  others : ∀ s a s', who a = none → step s a = some s' → view s' = view s
  moves : ∀ s a s' i, who a = some i → step s a = some s' → Stamps.Moves i (view s) (view s')

/-- the step is in turn, whoever takes it -/
def TakesTurn (view : σ → Stamps ι) (who : α → Option ι) (s : σ) (a : α) : Prop :=
  ∀ i, who a = some i → (view s).InTurn i

variable {step : σ → α → Option σ} {view : σ → Stamps ι} {who : α → Option ι}

/-- **The log of a run is in order exactly when its steps were in turn.** -/
theorem Stamping.sorted_iff (h : Stamping step view who) {s₀ s : σ} {as : List α}
    (h0 : (view s₀).Inv) (hs : (view s₀).Sorted) (hr : run step s₀ as = some s) :
    (view s).Sorted ↔ stepsMeet step (TakesTurn view who) s₀ as := by
  have hinv : ∀ s a s', (view s).Inv → step s a = some s' → (view s').Inv := by
    intro s a s' hI hstep
    cases hw : who a with
    | none =>
      rw [h.others s a s' hw hstep]
      exact hI
    | some i => exact (h.moves s a s' i hw hstep).inv hI
  have hiff : ∀ s a s', (view s).Inv → step s a = some s' →
      ((view s').Sorted ↔ (view s).Sorted ∧ TakesTurn view who s a) := by
    intro s a s' hI hstep
    cases hw : who a with
    | none =>
      rw [h.others s a s' hw hstep]
      refine ⟨fun hsorted => ⟨hsorted, ?_⟩, fun hsorted => hsorted.1⟩
      intro i hi
      rw [hw] at hi
      cases hi
    | some i =>
      rw [(h.moves s a s' i hw hstep).sorted_iff hI]
      refine ⟨fun hsorted => ⟨hsorted.1, ?_⟩, fun hsorted => ⟨hsorted.1, hsorted.2 i hw⟩⟩
      intro j hj
      rw [hw] at hj
      cases hj
      exact hsorted.2
  rw [run_iff_meet (I := fun s => (view s).Inv) (P := fun s => (view s).Sorted) hinv hiff hr h0]
  exact ⟨fun hall => hall.2, fun hall => ⟨hs, hall⟩⟩

end

end Sys
