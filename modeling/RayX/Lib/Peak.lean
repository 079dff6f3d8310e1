import Mathlib.Order.Bounds.Basic
import RayX.Lib.Run

/-!
# A counter and its maximum

Threads enter and leave; a counter `live` follows them, and a second variable `peak` the largest value
of the counter.  A thread that has entered with the value `v` raises `peak` to `v` in a loop of its own:
it loads `peak`, and exchanges what it loaded for `v` until the exchange succeeds or what it loaded is not
below `v`.  The counter and its maximum are never updated together.

* `seen`             what a function of the state has been along a run;
* `Climb`, `Gauge`, `Gauge.Moves`   the loops, the two variables, and the moves of one thread,
                     `Climb.Moves` seen from that thread;
* `PeakInv`          the values seen are at most `peak`, but for the loops that are not over;
* `Gauges`           a system with a view that moves like a gauge;
* `PeakExact`, `Gauges.peakExact`   `peak` is exact when no loop is left, never above what was seen,
                     and a loop whose value is reached ends with its second step.
-/

namespace Sys

/-! ## the values along a run -/

section
variable {σ α β : Type*} {step : σ → α → Option σ} {f : σ → β} {s₀ s s' : σ} {as : List α} {a : α}

/-- the values of `f` at the states of the run so far -/
def seen (step : σ → α → Option σ) (f : σ → β) (s₀ : σ) (as : List α) : Set β :=
  {v | ∃ pre m, pre <+: as ∧ run step s₀ pre = some m ∧ f m = v}

theorem seen_nil : seen step f s₀ [] = {f s₀} := by
  ext v
  constructor
  · rintro ⟨pre, m, hpre, hm, hv⟩
    rw [List.prefix_nil.mp hpre] at hm
    cases hm
    exact hv.symm
  · intro hv
    exact ⟨[], s₀, List.prefix_refl _, rfl, hv.symm⟩

theorem seen_snoc (h : run step s₀ as = some s) (hs : step s a = some s') :
    seen step f s₀ (as ++ [a]) = insert (f s') (seen step f s₀ as) := by
  ext v
  constructor
  · rintro ⟨pre, m, hpre, hm, hv⟩
    rcases List.prefix_concat_iff.mp hpre with hall | hpre
    · rw [hall, run_snoc h hs] at hm
      cases hm
      exact Or.inl hv.symm
    · exact Or.inr ⟨pre, m, hpre, hm, hv⟩
  · rintro (hv | ⟨pre, m, hpre, hm, hv⟩)
    · exact ⟨as ++ [a], s', List.prefix_refl _, run_snoc h hs, hv.symm⟩
    · exact ⟨pre, m, hpre.trans (List.prefix_append _ _), hm, hv⟩

end

/-! ## the gauge -/

/-- inside the loop of a thread that entered with the value `v` -/
inductive Climb (κ : Type*) where
  | loads (v : κ)
  | swaps (v cur : κ)
  deriving DecidableEq

def Climb.value {κ : Type*} : Climb κ → κ
  | .loads v => v
  | .swaps v _ => v

/-- how many steps a loop takes at most once its value is reached -/
def Climb.rank {κ : Type*} [LinearOrder κ] : Climb κ → Nat
  | .loads _ => 2
  | .swaps v cur => if v ≤ cur then 1 else 2

theorem Climb.rank_le {κ : Type*} [LinearOrder κ] (r : Climb κ) : r.rank ≤ 2 := by
  cases r with
  | loads v => exact Nat.le_refl 2
  | swaps v cur =>
    rw [Climb.rank]
    split <;> omega

structure Gauge (ι κ : Type*) where
  live : κ
  peak : κ
  loop : ι → Option (Climb κ)

section
variable {ι κ : Type*} [DecidableEq ι] [LinearOrder κ]

/-- the moves of thread `i`; an exchange also fails for no reason -/
inductive Gauge.Moves (i : ι) (g : Gauge ι κ) : Gauge ι κ → Prop
  | rests (h : g.loop i = none) : Gauge.Moves i g g
  | enters (w : κ) (h : g.loop i = none) :
      Gauge.Moves i g { g with live := w, loop := Function.update g.loop i (some (.loads w)) }
  | leaves (w : κ) (h : g.loop i = none) (hw : w ≤ g.live) : Gauge.Moves i g { g with live := w }
  | loads (v : κ) (h : g.loop i = some (.loads v)) :
      Gauge.Moves i g { g with loop := Function.update g.loop i (some (.swaps v g.peak)) }
  | fails (v cur : κ) (h : g.loop i = some (.swaps v cur)) (hv : cur < v) :
      Gauge.Moves i g { g with loop := Function.update g.loop i (some (.swaps v g.peak)) }
  | raises (v cur : κ) (h : g.loop i = some (.swaps v cur)) (hv : cur < v) (hcur : g.peak = cur) :
      Gauge.Moves i g { g with peak := v, loop := Function.update g.loop i none }
  | stops (v cur : κ) (h : g.loop i = some (.swaps v cur)) (hv : v ≤ cur) :
      Gauge.Moves i g { g with loop := Function.update g.loop i none }

/-- a move of one thread: the counter, the maximum and its loop, before and after -/
inductive Climb.Moves (live peak : κ) : Option (Climb κ) → κ → κ → Option (Climb κ) → Prop
  | rests : Climb.Moves live peak none live peak none
  | enters (w : κ) : Climb.Moves live peak none w peak (some (.loads w))
  | leaves (w : κ) (hw : w ≤ live) : Climb.Moves live peak none w peak none
  | loads (v : κ) : Climb.Moves live peak (some (.loads v)) live peak (some (.swaps v peak))
  | fails (v cur : κ) (hv : cur < v) :
      Climb.Moves live peak (some (.swaps v cur)) live peak (some (.swaps v peak))
  | raises (v cur : κ) (hv : cur < v) (hcur : peak = cur) :
      Climb.Moves live peak (some (.swaps v cur)) live v none
  | stops (v cur : κ) (hv : v ≤ cur) : Climb.Moves live peak (some (.swaps v cur)) live peak none

/-- what `V`, the values of the counter so far, has to do with the gauge -/
structure PeakInv (V : Set κ) (g : Gauge ι κ) : Prop where
  live : g.live ∈ V
  peak : g.peak ∈ V
  value : ∀ i r, g.loop i = some r → r.value ∈ V
  loaded : ∀ i v cur, g.loop i = some (.swaps v cur) → cur ≤ g.peak
  /-- a value above the maximum is on its way to it -/
  covered : ∀ x ∈ V, x ≤ g.peak ∨ ∃ i r, g.loop i = some r ∧ x ≤ r.value

variable {i : ι} {g g' : Gauge ι κ} {V : Set κ}

theorem Climb.Moves.lift {live peak : κ} {o : Option (Climb κ)}
    (h : Climb.Moves g.live g.peak (g.loop i) live peak o) :
    Gauge.Moves i g ⟨live, peak, Function.update g.loop i o⟩ := by
  generalize hold : g.loop i = r at h
  -- a thread that is not in its loop leaves the family as it is
  have hsame : r = none → Function.update g.loop i none = g.loop := by
    intro hr
    rw [← hr, ← hold]
    exact Function.update_eq_self i g.loop
  cases h with
  | rests =>
    rw [hsame rfl]
    exact .rests hold
  | enters => exact .enters live hold
  | leaves _ hw =>
    rw [hsame rfl]
    exact .leaves live hold hw
  | loads v => exact .loads v hold
  | fails v cur hv => exact .fails v cur hold hv
  | raises _ cur hv hcur => exact .raises peak cur hold hv hcur
  | stops v cur hv => exact .stops v cur hold hv

theorem Gauge.Moves.peak_le (h : Gauge.Moves i g g') : g.peak ≤ g'.peak := by
  cases h with
  | raises v cur h hv hcur =>
    show g.peak ≤ v
    rw [hcur]
    exact le_of_lt hv
  | _ => exact le_refl _

/-- the other loops stay where they are -/
theorem Gauge.Moves.loop_ne (h : Gauge.Moves i g g') {j : ι} (hj : j ≠ i) : g'.loop j = g.loop j := by
  cases h with
  | rests => rfl
  | leaves => rfl
  | _ => exact Function.update_of_ne hj _ _

/-- a loop whose value is reached ends, or comes closer to its end -/
theorem Gauge.Moves.lowers (h : Gauge.Moves i g g') {r : Climb κ} (hr : g.loop i = some r)
    (hv : r.value ≤ g.peak) :
    g'.loop i = none ∨ ∃ r', g'.loop i = some r' ∧ r'.value = r.value ∧ r'.rank < r.rank := by
  -- what is loaded now is not below the value
  have hlast : ∀ v, v ≤ g.peak → (Climb.swaps v g.peak).rank = 1 := fun v hle => if_pos hle
  cases h with
  | rests hnone =>
    rw [hnone] at hr
    cases hr
  | enters w hnone =>
    rw [hnone] at hr
    cases hr
  | leaves w hnone hw =>
    rw [hnone] at hr
    cases hr
  | loads v hl =>
    rw [hl] at hr
    cases hr
    refine Or.inr ⟨.swaps v g.peak, Function.update_self .., rfl, ?_⟩
    rw [hlast v hv]
    exact Nat.lt_succ_self 1
  | fails v cur hl hlt =>
    rw [hl] at hr
    cases hr
    refine Or.inr ⟨.swaps v g.peak, Function.update_self .., rfl, ?_⟩
    have hrank : (Climb.swaps v cur).rank = 2 := if_neg (not_le_of_gt hlt)
    rw [hlast v hv, hrank]
    exact Nat.lt_succ_self 1
  | raises v cur hl hlt hcur => exact Or.inl (Function.update_self ..)
  | stops v cur hl hle => exact Or.inl (Function.update_self ..)

/-- what was covered still is, when the loop of the thread that moves is over or keeps its value -/
theorem PeakInv.covers (hI : PeakInv V g) (h : Gauge.Moves i g g')
    (hi : ∀ r, g.loop i = some r → r.value ≤ g'.peak ∨
      ∃ r', g'.loop i = some r' ∧ r.value = r'.value) :
    ∀ x ∈ V, x ≤ g'.peak ∨ ∃ j r, g'.loop j = some r ∧ x ≤ r.value := by
  intro x hx
  rcases hI.covered x hx with hpeak | ⟨j, r, hr, hxr⟩
  · exact Or.inl (le_trans hpeak h.peak_le)
  · by_cases hj : j = i
    · rw [hj] at hr
      rcases hi r hr with hdone | ⟨r', hr', hv⟩
      · exact Or.inl (le_trans hxr hdone)
      · rw [hv] at hxr
        exact Or.inr ⟨i, r', hr', hxr⟩
    · rw [← h.loop_ne hj] at hr
      exact Or.inr ⟨j, r, hr, hxr⟩

/-- the value of the thread that moves is in `V`, and what it loaded is not above the maximum -/
theorem PeakInv.moved (hI : PeakInv V g) (h : Gauge.Moves i g g') {x : Option (Climb κ)}
    (hloop : g'.loop = Function.update g.loop i x) (hlive : g'.live = g.live) (hpeak : g'.peak ∈ V)
    (hx : ∀ r, x = some r → ∃ v, r = .swaps v g'.peak ∧ v ∈ V)
    (hi : ∀ r, g.loop i = some r → r.value ≤ g'.peak ∨ ∃ r', x = some r' ∧ r.value = r'.value) :
    PeakInv (insert g'.live V) g' := by
  rw [hlive, Set.insert_eq_of_mem hI.live]
  constructor
  · rw [hlive]
    exact hI.live
  · exact hpeak
  · intro j r hr
    rw [hloop] at hr
    rcases update_some hr with ⟨-, hnew⟩ | ⟨-, hold⟩
    · obtain ⟨v, rfl, hv⟩ := hx r hnew
      exact hv
    · exact hI.value j r hold
  · intro j v cur hr
    rw [hloop] at hr
    rcases update_some hr with ⟨-, hnew⟩ | ⟨-, hold⟩
    · obtain ⟨w, hw, -⟩ := hx _ hnew
      cases hw
      exact le_refl _
    · exact le_trans (hI.loaded j v cur hold) h.peak_le
  · refine hI.covers h ?_
    rw [hloop, Function.update_self]
    exact hi

/-- **Every move keeps the invariant**, with the new value of the counter among those seen. -/
theorem PeakInv.moves (hI : PeakInv V g) (h : Gauge.Moves i g g') : PeakInv (insert g'.live V) g' := by
  have hall := h
  cases h with
  | rests hnone =>
    rw [Set.insert_eq_of_mem hI.live]
    exact hI
  | enters w hnone =>
    refine ⟨Or.inl rfl, Or.inr hI.peak, ?_, ?_, ?_⟩
    · intro j r hr
      rcases update_some hr with ⟨-, hnew⟩ | ⟨-, hold⟩
      · cases hnew
        exact Or.inl rfl
      · exact Or.inr (hI.value j r hold)
    · intro j v cur hr
      rcases update_some hr with ⟨-, hnew⟩ | ⟨-, hold⟩
      · cases hnew
      · exact hI.loaded j v cur hold
    · rintro x (hx | hx)
      · rw [hx]
        exact Or.inr ⟨i, .loads w, Function.update_self .., le_refl w⟩
      · refine hI.covers hall ?_ x hx
        intro r hr
        rw [hnone] at hr
        cases hr
  | leaves w hnone hw =>
    refine ⟨Or.inl rfl, Or.inr hI.peak, fun j r hr => Or.inr (hI.value j r hr), hI.loaded, ?_⟩
    rintro x (hx | hx)
    · -- a smaller value is covered by what covers the value it comes from
      rw [hx]
      rcases hI.covered g.live hI.live with hp | ⟨j, r, hr, hlr⟩
      · exact Or.inl (le_trans hw hp)
      · exact Or.inr ⟨j, r, hr, le_trans hw hlr⟩
    · exact hI.covered x hx
  | loads v hv =>
    refine hI.moved hall rfl rfl hI.peak ?_ ?_
    · intro r hr
      cases hr
      exact ⟨v, rfl, hI.value i _ hv⟩
    · intro r hr
      rw [hv] at hr
      cases hr
      exact Or.inr ⟨_, rfl, rfl⟩
  | fails v cur hv hlt =>
    refine hI.moved hall rfl rfl hI.peak ?_ ?_
    · intro r hr
      cases hr
      exact ⟨v, rfl, hI.value i _ hv⟩
    · intro r hr
      rw [hv] at hr
      cases hr
      exact Or.inr ⟨_, rfl, rfl⟩
  | raises v cur hv hlt hcur =>
    refine hI.moved hall rfl rfl (hI.value i _ hv) ?_ ?_
    · intro r hr
      cases hr
    · intro r hr
      rw [hv] at hr
      cases hr
      exact Or.inl (le_refl v)
  | stops v cur hv hle =>
    refine hI.moved hall rfl rfl hI.peak ?_ ?_
    · intro r hr
      cases hr
    · intro r hr
      rw [hv] at hr
      cases hr
      exact Or.inl (le_trans hle (hI.loaded i v cur hv))

omit [DecidableEq ι] in
/-- a fresh gauge -/
theorem PeakInv.init (hpeak : g.peak = g.live) (hloop : ∀ j, g.loop j = none) :
    PeakInv {g.live} g := by
  refine ⟨rfl, hpeak, ?_, ?_, ?_⟩
  · intro j r hr
    rw [hloop] at hr
    cases hr
  · intro j v cur hr
    rw [hloop] at hr
    cases hr
  · intro x hx
    rw [hpeak]
    exact Or.inl (le_of_eq hx)

omit [DecidableEq ι] in
/-- no loop is left: the maximum is exact -/
theorem PeakInv.isGreatest (hI : PeakInv V g) (hloop : ∀ j, g.loop j = none) :
    IsGreatest V g.peak := by
  refine ⟨hI.peak, ?_⟩
  intro x hx
  rcases hI.covered x hx with hle | ⟨j, r, hr, -⟩
  · exact hle
  · rw [hloop] at hr
    cases hr

end

/-! ## systems with a gauge -/

section
variable {σ α ι κ : Type*} [DecidableEq ι] [LinearOrder κ]

/-- a system whose view moves like a gauge: a label in `C` is a step of the thread `who a`, or of none -/
structure Gauges (step : σ → α → Option σ) (C : α → Prop) (I : σ → Prop) (view : σ → Gauge ι κ)
    (who : α → Option ι) : Prop where
  inv : ∀ s a s', I s → C a → step s a = some s' → I s'
  others : ∀ s a s', C a → who a = none → step s a = some s' → view s' = view s
  moves : ∀ s a s' i, I s → C a → who a = some i → step s a = some s' → Gauge.Moves i (view s) (view s')
  /-- a thread in its loop waits for nobody -/
  goes : ∀ s a i r, I s → C a → who a = some i → (view s).loop i = some r → ∃ s', step s a = some s'

/-- what the maximum tells after a run from `s₀` with the labels `as` -/
structure PeakExact (step : σ → α → Option σ) (C : α → Prop) (view : σ → Gauge ι κ)
    (who : α → Option ι) (s₀ : σ) (as : List α) (s : σ) : Prop where
  /-- no thread is in its loop: the maximum is the largest value the counter has had -/
  exact : (∀ i, (view s).loop i = none) →
    IsGreatest (seen step (fun s => (view s).live) s₀ as) (view s).peak
  /-- at any time it is a value the counter has had -/
  peak : (view s).peak ∈ seen step (fun s => (view s).live) s₀ as
  goes : ∀ i r, (view s).loop i = some r → ∀ a, C a → who a = some i → ∃ s', step s a = some s'
  /-- a loop whose value is reached is over once its thread has taken two more steps -/
  ends : ∀ i r, (view s).loop i = some r → r.value ≤ (view s).peak → ∀ bs s', (∀ b ∈ bs, C b) →
    run step s bs = some s' → 2 ≤ bs.countP (fun b => decide (who b = some i)) →
    ∃ pre m, pre <+: bs ∧ run step s pre = some m ∧ (view m).loop i = none

namespace Gauges
variable {step : σ → α → Option σ} {C : α → Prop} {I : σ → Prop} {view : σ → Gauge ι κ}
  {who : α → Option ι} {s₀ s : σ} {as : List α}

theorem peakInv (h : Gauges step C I view who) (h0 : I s₀) (hpeak : (view s₀).peak = (view s₀).live)
    (hloop : ∀ i, (view s₀).loop i = none) (hC : ∀ a ∈ as, C a) (hr : run step s₀ as = some s) :
    I s ∧ PeakInv (seen step (fun s => (view s).live) s₀ as) (view s) := by
  have hstep : ∀ as s a s', run step s₀ as = some s →
      (I s ∧ PeakInv (seen step (fun s => (view s).live) s₀ as) (view s)) → C a →
      step s a = some s' →
      I s' ∧ PeakInv (seen step (fun s => (view s).live) s₀ (as ++ [a])) (view s') := by
    intro as s a s' hr hI ha hs
    refine ⟨h.inv s a s' hI.1 ha hs, ?_⟩
    rw [seen_snoc hr hs]
    cases hw : who a with
    | none =>
      rw [h.others s a s' ha hw hs, Set.insert_eq_of_mem hI.2.live]
      exact hI.2
    | some i => exact hI.2.moves (h.moves s a s' i hI.1 ha hw hs)
  refine run_history (P := fun as s => I s ∧
    PeakInv (seen step (fun s => (view s).live) s₀ as) (view s)) hstep ?_
    (stepsMeet_labels step C s₀ hC) hr
  rw [seen_nil]
  exact ⟨h0, PeakInv.init hpeak hloop⟩

/-- **A loop ends** with its second step, whatever the others do meanwhile. -/
theorem ends (h : Gauges step C I view who) {i : ι} {r : Climb κ} {s' : σ} {bs : List α} (hI : I s)
    (hr : (view s).loop i = some r) (hv : r.value ≤ (view s).peak) (hC : ∀ b ∈ bs, C b)
    (hrun : run step s bs = some s')
    (hcount : r.rank ≤ bs.countP (fun b => decide (who b = some i))) :
    ∃ pre m, pre <+: bs ∧ run step s pre = some m ∧ (view m).loop i = none := by
  induction bs generalizing s r with
  | nil =>
    have hpos : 1 ≤ r.rank := by
      cases r with
      | loads v => exact Nat.le_succ 1
      | swaps v cur =>
        rw [Climb.rank]
        split <;> omega
    rw [List.countP_nil] at hcount
    omega
  | cons b bs ih =>
    obtain ⟨m, hm, hrest⟩ := run_cons.mp hrun
    have hb := hC b List.mem_cons_self
    have hIm := h.inv s b m hI hb hm
    have hCs : ∀ c ∈ bs, C c := fun c hc => hC c (List.mem_cons_of_mem b hc)
    -- the first step of the rest, then what the rest of the run gives
    have hgo : ∀ r', (view m).loop i = some r' → r'.value ≤ (view m).peak →
        r'.rank ≤ bs.countP (fun b => decide (who b = some i)) →
        ∃ pre k, pre <+: b :: bs ∧ run step s pre = some k ∧ (view k).loop i = none := by
      intro r' hr' hv' hc'
      obtain ⟨pre, k, hpre, hk, hnone⟩ := ih hIm hr' hv' hCs hrest hc'
      exact ⟨b :: pre, k, List.cons_prefix_cons.mpr ⟨rfl, hpre⟩, run_cons.mpr ⟨m, hm, hk⟩, hnone⟩
    rw [List.countP_cons] at hcount
    by_cases hw : who b = some i
    · have hmove := h.moves s b m i hI hb hw hm
      rcases hmove.lowers hr hv with hnone | ⟨r', hr', hval, hrank⟩
      · exact ⟨[b], m, List.cons_prefix_cons.mpr ⟨rfl, List.nil_prefix⟩,
          run_cons.mpr ⟨m, hm, rfl⟩, hnone⟩
      · rw [if_pos (decide_eq_true hw)] at hcount
        refine hgo r' hr' ?_ (by omega)
        rw [hval]
        exact le_trans hv hmove.peak_le
    · rw [if_neg (by simpa using hw)] at hcount
      cases ho : who b with
      | none =>
        have hview := h.others s b m hb ho hm
        refine hgo r ?_ ?_ hcount
        · rw [hview]
          exact hr
        · rw [hview]
          exact hv
      | some j =>
        have hmove := h.moves s b m j hI hb ho hm
        have hne : i ≠ j := by
          intro hij
          rw [hij] at hw
          exact hw ho
        refine hgo r ?_ (le_trans hv hmove.peak_le) hcount
        rw [hmove.loop_ne hne]
        exact hr

/-- **Peak counters are exact.** -/
theorem peakExact (h : Gauges step C I view who) (h0 : I s₀)
    (hpeak : (view s₀).peak = (view s₀).live) (hloop : ∀ i, (view s₀).loop i = none)
    (hC : ∀ a ∈ as, C a) (hr : run step s₀ as = some s) : PeakExact step C view who s₀ as s where
  exact hnone := (h.peakInv h0 hpeak hloop hC hr).2.isGreatest hnone
  peak := (h.peakInv h0 hpeak hloop hC hr).2.peak
  goes i r hl a ha hw := h.goes s a i r (h.peakInv h0 hpeak hloop hC hr).1 ha hw hl
  ends _ r hl hv _ _ hCb hrun hcount :=
    h.ends (h.peakInv h0 hpeak hloop hC hr).1 hl hv hCb hrun (Nat.le_trans r.rank_le hcount)

end Gauges

end

end Sys
