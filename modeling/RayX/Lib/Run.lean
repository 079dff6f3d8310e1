import Mathlib.Data.List.Basic
import Mathlib.Logic.Function.Basic
import Mathlib.Logic.Relation

/-!
# Runs of a partial step function

A system is a step function `step : σ → α → Option σ`: the label `α` resolves every choice of the
scheduler and of the environment, `none` means that the step is not enabled.

* `run step s as`        the state after the labels `as`;
* `Reach step s s'`      some run goes from `s` to `s'`;
* `run_inv`, `Reach.inv` what every step keeps, every run keeps;
* `stepsMeet`            every step of the run meets a condition on its source state and label,
                         `run_inv_of` is the invariant rule for such runs, `stepsMeet_iff` exchanges
                         the condition for one that agrees with it;
* `run_iff_meet`         a property that a step keeps exactly when it meets a condition;
* `run_history`          the invariant rule for a property of the labels so far and the state;
* `update_all`, `update_some`, `update_keeps`   a family of components, one of which moves;
* `Reach.project`        a view that every step leaves alone or moves along a relation carries
                         runs over to runs of that relation, and `Reach.view_inv` its invariants.
-/

namespace Sys

section
variable {σ α : Type*}

def run (step : σ → α → Option σ) : σ → List α → Option σ
  | s, [] => some s
  | s, a :: as => (step s a).bind (fun s' => run step s' as)

def Reach (step : σ → α → Option σ) (s s' : σ) : Prop := ∃ as, run step s as = some s'

/-- every step of the run meets `C` -/
def stepsMeet (step : σ → α → Option σ) (C : σ → α → Prop) : σ → List α → Prop
  | _, [] => True
  | s, a :: as => C s a ∧ ∀ s', step s a = some s' → stepsMeet step C s' as

variable {step : σ → α → Option σ}

theorem run_nil (s : σ) : run step s [] = some s := rfl

theorem run_cons {s s' : σ} {a : α} {as : List α} :
    run step s (a :: as) = some s' ↔ ∃ m, step s a = some m ∧ run step m as = some s' :=
  Option.bind_eq_some_iff

theorem run_append {s s' : σ} {as bs : List α} :
    run step s (as ++ bs) = some s' ↔ ∃ m, run step s as = some m ∧ run step m bs = some s' := by
  induction as generalizing s with
  | nil => simp [run_nil]
  | cons a as ih =>
    rw [List.cons_append, run_cons]
    constructor
    · rintro ⟨m, hm, hr⟩
      obtain ⟨k, hk, hb⟩ := ih.mp hr
      exact ⟨k, run_cons.mpr ⟨m, hm, hk⟩, hb⟩
    · rintro ⟨k, hk, hb⟩
      obtain ⟨m, hm, hr⟩ := run_cons.mp hk
      exact ⟨m, hm, ih.mpr ⟨k, hr, hb⟩⟩

theorem run_snoc {s₀ s s' : σ} {as : List α} {a : α} (h : run step s₀ as = some s)
    (hs : step s a = some s') : run step s₀ (as ++ [a]) = some s' :=
  run_append.mpr ⟨s, h, run_cons.mpr ⟨s', hs, rfl⟩⟩

theorem Reach.refl (s : σ) : Reach step s s := ⟨[], rfl⟩

theorem Reach.trans {s m s' : σ} (h : Reach step s m) (h' : Reach step m s') : Reach step s s' := by
  obtain ⟨as, has⟩ := h
  obtain ⟨bs, hbs⟩ := h'
  exact ⟨as ++ bs, run_append.mpr ⟨m, has, hbs⟩⟩

theorem Reach.one {s s' : σ} (a : α) (h : step s a = some s') : Reach step s s' :=
  ⟨[a], run_cons.mpr ⟨s', h, rfl⟩⟩

/-- **Invariant rule for runs.** -/
theorem run_inv {P : σ → Prop} (hstep : ∀ s a s', P s → step s a = some s' → P s') {s s' : σ}
    {as : List α} (h : run step s as = some s') (h0 : P s) : P s' := by
  induction as generalizing s with
  | nil =>
    cases h
    exact h0
  | cons a as ih =>
    obtain ⟨m, hm, hr⟩ := run_cons.mp h
    exact ih hr (hstep s a m h0 hm)

theorem Reach.inv {P : σ → Prop} (hstep : ∀ s a s', P s → step s a = some s' → P s') {s s' : σ}
    (h : Reach step s s') (h0 : P s) : P s' := by
  obtain ⟨as, has⟩ := h
  exact run_inv hstep has h0

/-- Invariant rule for runs whose steps meet `C`. -/
theorem run_inv_of {P : σ → Prop} {C : σ → α → Prop}
    (hstep : ∀ s a s', P s → C s a → step s a = some s' → P s') {s s' : σ} {as : List α}
    (h : run step s as = some s') (hC : stepsMeet step C s as) (h0 : P s) : P s' := by
  induction as generalizing s with
  | nil =>
    cases h
    exact h0
  | cons a as ih =>
    obtain ⟨m, hm, hr⟩ := run_cons.mp h
    exact ih hr (hC.2 m hm) (hstep s a m h0 hC.1 hm)

theorem stepsMeet_cons {C : σ → α → Prop} {s m : σ} {a : α} {as : List α} (hC : C s a)
    (hm : step s a = some m) (h : stepsMeet step C m as) : stepsMeet step C s (a :: as) := by
  refine ⟨hC, ?_⟩
  intro s' hs
  rw [hm] at hs
  cases hs
  exact h

/-- labels that meet the condition in every state -/
theorem stepsMeet_of_all {C : σ → α → Prop} {s : σ} {as : List α} (h : ∀ a ∈ as, ∀ s, C s a) :
    stepsMeet step C s as := by
  induction as generalizing s with
  | nil => trivial
  | cons a as ih =>
    refine ⟨h a List.mem_cons_self s, ?_⟩
    intro s' _
    exact ih (fun b hb => h b (List.mem_cons_of_mem a hb))

/-- a condition on the labels alone -/
theorem stepsMeet_labels (step : σ → α → Option σ) (C : α → Prop) (s : σ) {as : List α}
    (h : ∀ a ∈ as, C a) : stepsMeet step (fun _ a => C a) s as :=
  stepsMeet_of_all (fun a ha _ => h a ha)

theorem stepsMeet_append {C : σ → α → Prop} {s : σ} {as bs : List α} :
    stepsMeet step C s (as ++ bs) ↔
      stepsMeet step C s as ∧ ∀ s', run step s as = some s' → stepsMeet step C s' bs := by
  induction as generalizing s with
  | nil =>
    constructor
    · intro h
      refine ⟨trivial, ?_⟩
      rintro s' hs
      cases hs
      exact h
    · intro h
      exact h.2 s rfl
  | cons a as ih =>
    constructor
    · rintro ⟨hc, hrest⟩
      refine ⟨⟨hc, fun m hm => (ih.mp (hrest m hm)).1⟩, ?_⟩
      intro s' hs
      obtain ⟨m, hm, hr⟩ := run_cons.mp hs
      exact (ih.mp (hrest m hm)).2 s' hr
    · rintro ⟨⟨hc, hrest⟩, hbs⟩
      refine ⟨hc, ?_⟩
      intro m hm
      exact ih.mpr ⟨hrest m hm, fun s' hr => hbs s' (run_cons.mpr ⟨m, hm, hr⟩)⟩

/-- **Invariant rule with the history.**  The invariant relates the labels so far and the state. -/
theorem run_history {P : List α → σ → Prop} {C : σ → α → Prop} {s₀ : σ}
    (hstep : ∀ as s a s', run step s₀ as = some s → P as s → C s a → step s a = some s' →
      P (as ++ [a]) s') (h0 : P [] s₀) {as : List α} {s : σ} (hC : stepsMeet step C s₀ as)
    (h : run step s₀ as = some s) : P as s := by
  -- the labels left are appended to the ones before, from any point of the run on
  have hrest : ∀ bs pre m, run step s₀ pre = some m → P pre m → stepsMeet step C m bs →
      run step m bs = some s → P (pre ++ bs) s := by
    intro bs
    induction bs with
    | nil =>
      intro pre m _ hm _ hr
      cases hr
      rw [List.append_nil]
      exact hm
    | cons b bs ih =>
      intro pre m hpre hm hCb hr
      obtain ⟨k, hk, hr⟩ := run_cons.mp hr
      have hpre' : run step s₀ (pre ++ [b]) = some k :=
        run_append.mpr ⟨m, hpre, run_cons.mpr ⟨k, hk, rfl⟩⟩
      have := ih (pre ++ [b]) k hpre' (hstep pre m b k hpre hm hCb.1 hk) (hCb.2 k hk) hr
      rw [List.append_assoc] at this
      exact this
  exact hrest as [] s₀ rfl h0 hC h

/-- **Exchange of conditions.**  Two conditions that agree under an invariant, kept by the steps
that meet one of them, are met by the same runs. -/
theorem stepsMeet_iff {I : σ → Prop} {C D : σ → α → Prop} (hCD : ∀ s a, I s → (C s a ↔ D s a))
    (hI : ∀ s a s', I s → C s a → step s a = some s' → I s') {s : σ} (h0 : I s) (as : List α) :
    stepsMeet step C s as ↔ stepsMeet step D s as := by
  induction as generalizing s with
  | nil => exact Iff.rfl
  | cons a as ih =>
    constructor
    · rintro ⟨hc, hrest⟩
      refine ⟨(hCD s a h0).mp hc, ?_⟩
      intro s' hs
      exact (ih (hI s a s' h0 hc hs)).mp (hrest s' hs)
    · rintro ⟨hd, hrest⟩
      have hc := (hCD s a h0).mpr hd
      refine ⟨hc, ?_⟩
      intro s' hs
      exact (ih (hI s a s' h0 hc hs)).mpr (hrest s' hs)

/-- **Exact conditions.**  A property that a step keeps exactly when it meets `C` holds at the end of a
run exactly when every step of the run meets `C`. -/
theorem run_iff_meet {I P : σ → Prop} {C : σ → α → Prop}
    (hI : ∀ s a s', I s → step s a = some s' → I s')
    (hstep : ∀ s a s', I s → step s a = some s' → (P s' ↔ P s ∧ C s a)) {s s' : σ} {as : List α}
    (h : run step s as = some s') (h0 : I s) : P s' ↔ P s ∧ stepsMeet step C s as := by
  induction as generalizing s with
  | nil =>
    cases h
    exact ⟨fun hp => ⟨hp, trivial⟩, fun hp => hp.1⟩
  | cons a as ih =>
    obtain ⟨m, hm, hr⟩ := run_cons.mp h
    have hrest := ih hr (hI s a m h0 hm)
    constructor
    · intro hp
      obtain ⟨hpm, has⟩ := hrest.mp hp
      obtain ⟨hps, hc⟩ := (hstep s a m h0 hm).mp hpm
      exact ⟨hps, stepsMeet_cons hc hm has⟩
    · rintro ⟨hps, hc, has⟩
      exact hrest.mpr ⟨(hstep s a m h0 hm).mpr ⟨hps, hc⟩, has m hm⟩

/-- what holds of every component of a family still does after one of them has moved -/
theorem update_all {ι τ : Type*} [DecidableEq ι] {f : ι → τ} {P : ι → τ → Prop} {i : ι} {x : τ}
    (h : ∀ j, P j (f j)) (hx : P i x) (j : ι) : P j (Function.update f i x j) :=
  (Function.forall_update_iff f P).mpr ⟨hx, fun k _ => h k⟩ j

/-- what a family holds after one of its components has moved -/
theorem update_some {ι τ : Type*} [DecidableEq ι] {f : ι → Option τ} {i j : ι} {x : Option τ} {r : τ}
    (h : Function.update f i x j = some r) : (j = i ∧ x = some r) ∨ (j ≠ i ∧ f j = some r) := by
  by_cases hj : j = i
  · rw [hj, Function.update_self] at h
    exact Or.inl ⟨hj, h⟩
  · rw [Function.update_of_ne hj] at h
    exact Or.inr ⟨hj, h⟩

/-- what another component holds is still there -/
theorem update_keeps {ι τ : Type*} [DecidableEq ι] {f : ι → Option τ} {i j : ι} {x : Option τ} {r : τ}
    (hj : j ≠ i) (h : f j = some r) : Function.update f i x j = some r := by
  rw [Function.update_of_ne hj]
  exact h

/-- **Projection.**  If every step from a state with the invariant `I` leaves the view alone or
moves it along `R`, a run moves the view along a run of `R`. -/
theorem Reach.project {τ : Type*} {R : τ → τ → Prop} {I : σ → Prop} {view : σ → τ}
    (hI : ∀ s a s', I s → step s a = some s' → I s')
    (hv : ∀ s a s', I s → step s a = some s' → view s' = view s ∨ R (view s) (view s'))
    {s s' : σ} (h : Reach step s s') (h0 : I s) : Relation.ReflTransGen R (view s) (view s') := by
  obtain ⟨as, has⟩ := h
  induction as generalizing s with
  | nil =>
    cases has
    exact .refl
  | cons a as ih =>
    obtain ⟨m, hm, hr⟩ := run_cons.mp has
    have hrest := ih (hI s a m h0 hm) hr
    rcases hv s a m h0 hm with e | e
    · rw [e] at hrest
      exact hrest
    · exact .head e hrest

/-- what the relation keeps, every view of a run keeps -/
theorem Reach.view_inv {τ : Type*} {R : τ → τ → Prop} {I : σ → Prop} {view : σ → τ} {P : τ → Prop}
    (hI : ∀ s a s', I s → step s a = some s' → I s')
    (hv : ∀ s a s', I s → step s a = some s' → view s' = view s ∨ R (view s) (view s'))
    (hP : ∀ t t', P t → R t t' → P t') {s s' : σ} (h : Reach step s s') (h0 : I s)
    (hs : P (view s)) : P (view s') := by
  have hr := h.project hI hv h0
  generalize view s' = t at hr
  induction hr with
  | refl => exact hs
  | tail _ e ih => exact hP _ _ ih e

end

end Sys
