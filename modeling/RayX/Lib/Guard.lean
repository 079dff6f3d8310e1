import RayX.Lib.Run

/-!
# Guarded publications

A guard stands before an external call that may return any value or raise.  It decides on each
attempt whether to make the call, remembers what it has published under a key, and keeps a record of
the attempts.

* `Guard`            the attempt and the other steps of a guard, with what they add to the records;
* `Guard.step`       runs of a guard, with the attempts made so far;
* `Guard.Sound`      one publication for a key at most, and a record for every attempt;
* `Guard.sound_iff`  **a run is sound exactly when no call raises and none repeats a publication**;
* `Remembers`        a memory that knows the publications whose value leaves a mark;
* `Guard.marked_iff`   **with such a memory, a run is sound exactly when no call raises and every value
                     published under the key of a call that is made left its mark**, and
                     `Guard.remembered_iff` where every value does.
-/

namespace Sys

/-- `records` is what the attempts so far have left, `note` what an attempt is to leave -/
structure Guard (σ β α ρ ε κ δ : Type*) where
  turn : σ → β → σ
  attempt : σ → α → Except ε ρ → σ
  reaches : σ → α → Bool
  key : α → κ
  records : σ → List δ
  note : α → Bool → δ
  turned : ∀ s b, records (turn s b) = records s
  refused : ∀ s a out, reaches s a = false → records (attempt s a out) = records s ++ [note a false]
  returned : ∀ s a r, reaches s a = true →
    records (attempt s a (.ok r)) = records s ++ [note a true]
  raised : ∀ s a e, reaches s a = true → records (attempt s a (.error e)) = records s

/-- an attempt; `returned` is the value of its call, if it was made and returned normally -/
structure Try (σ α ρ : Type*) where
  before : σ
  arg : α
  returned : Option ρ

def Try.published {σ α ρ : Type*} (t : Try σ α ρ) : Bool := t.returned.isSome

structure Guarded (σ α ρ : Type*) where
  now : σ
  tried : List (Try σ α ρ) := []

/-- `out` is what the call does if it is made -/
inductive Move (β α ρ ε : Type*) where
  | turn (b : β)
  | attempt (a : α) (out : Except ε ρ)

namespace Guard
variable {σ β α ρ ε κ δ : Type*}

/-- the attempt from a state -/
def try_ (g : Guard σ β α ρ ε κ δ) (s : σ) (a : α) (out : Except ε ρ) : Try σ α ρ where
  before := s
  arg := a
  returned := if g.reaches s a then out.toOption else none

def step (g : Guard σ β α ρ ε κ δ) (s : Guarded σ α ρ) : Move β α ρ ε → Option (Guarded σ α ρ)
  | .turn b => some { s with now := g.turn s.now b }
  | .attempt a out => some {
      now := g.attempt s.now a out
      tried := s.tried ++ [g.try_ s.now a out] }

theorem try_published (g : Guard σ β α ρ ε κ δ) (s : σ) (a : α) (out : Except ε ρ) :
    (g.try_ s a out).published = (g.reaches s a && out.isOk) := by
  unfold try_ Try.published
  cases g.reaches s a <;> cases out <;> rfl

variable [DecidableEq κ] {g : Guard σ β α ρ ε κ δ} {s s' : Guarded σ α ρ} {m : Move β α ρ ε}

/-- the publications under a key -/
def publications (g : Guard σ β α ρ ε κ δ) (tried : List (Try σ α ρ)) (k : κ) : Nat :=
  tried.countP (fun t => t.published && decide (g.key t.arg = k))

structure Sound (g : Guard σ β α ρ ε κ δ) (s : Guarded σ α ρ) : Prop where
  once : ∀ k, g.publications s.tried k ≤ 1
  gated : ∀ t ∈ s.tried, t.published = true → g.reaches t.before t.arg = true
  recorded : g.records s.now = s.tried.map (fun t => g.note t.arg t.published)

/-- a call that is made does not raise, and nothing is published under its key -/
def Clean (g : Guard σ β α ρ ε κ δ) (s : Guarded σ α ρ) : Move β α ρ ε → Prop
  | .turn _ => True
  | .attempt a out => g.reaches s.now a = true → out.isOk = true ∧ g.publications s.tried (g.key a) = 0

theorem publications_snoc (tried : List (Try σ α ρ)) (t : Try σ α ρ) (k : κ) :
    g.publications (tried ++ [t]) k =
      g.publications tried k + if t.published = true ∧ g.key t.arg = k then 1 else 0 := by
  unfold publications
  rw [List.countP_append, List.countP_singleton]
  by_cases h : t.published = true ∧ g.key t.arg = k
  · rw [if_pos h, if_pos (by rw [h.1, decide_eq_true h.2]; rfl)]
  · rw [if_neg h, if_neg (by simpa [Bool.and_eq_true_iff] using h)]

omit [DecidableEq κ] in
/-- an attempt leaves its record, or the records are behind -/
theorem attempt_records (g : Guard σ β α ρ ε κ δ) (s : σ) (a : α) (out : Except ε ρ) :
    (g.reaches s a = true ∧ out.isOk = false ∧ g.records (g.attempt s a out) = g.records s) ∨
    ((g.reaches s a = true → out.isOk = true) ∧ g.records (g.attempt s a out) =
      g.records s ++ [g.note a (g.try_ s a out).published]) := by
  rw [try_published]
  cases hr : g.reaches s a with
  | false =>
    refine Or.inr ⟨fun h => (nomatch h), ?_⟩
    rw [g.refused s a out hr, Bool.false_and]
  | true =>
    cases out with
    | ok r =>
      refine Or.inr ⟨fun _ => rfl, ?_⟩
      rw [g.returned s a r hr]
      rfl
    | error e => exact Or.inl ⟨rfl, rfl, g.raised s a e hr⟩

omit [DecidableEq κ] in
/-- there are never more records than attempts -/
theorem behind_step (h : (g.records s.now).length ≤ s.tried.length) (hs : g.step s m = some s') :
    (g.records s'.now).length ≤ s'.tried.length := by
  cases m with
  | turn b =>
    cases hs
    rw [g.turned]
    exact h
  | attempt a out =>
    cases hs
    show _ ≤ (s.tried ++ [_]).length
    rw [List.length_append, List.length_singleton]
    rcases g.attempt_records s.now a out with ⟨_, _, hrec⟩ | ⟨_, hrec⟩
    · rw [hrec]
      omega
    · rw [hrec, List.length_append, List.length_singleton]
      omega

/-- **A step keeps a sound guard sound exactly when it is clean.** -/
theorem sound_step (h : (g.records s.now).length ≤ s.tried.length) (hs : g.step s m = some s') :
    g.Sound s' ↔ g.Sound s ∧ g.Clean s m := by
  cases m with
  | turn b =>
    cases hs
    refine ⟨fun hd => ⟨⟨hd.once, hd.gated, ?_⟩, trivial⟩, fun hd => ⟨hd.1.once, hd.1.gated, ?_⟩⟩
    · rw [← g.turned s.now b]
      exact hd.recorded
    · rw [g.turned]
      exact hd.1.recorded
  | attempt a out =>
    cases hs
    constructor
    · intro hd
      have hrec := hd.recorded
      have honce := hd.once
      dsimp only at hrec honce
      rw [List.map_append, List.map_singleton] at hrec
      rcases g.attempt_records s.now a out with ⟨_, _, hkeep⟩ | ⟨hok, hnote⟩
      · -- the record of a raise is missing
        have hlen := congrArg List.length hrec
        rw [hkeep, List.length_append, List.length_map, List.length_singleton] at hlen
        omega
      · rw [hnote] at hrec
        have hbefore : ∀ k, g.publications s.tried k ≤ 1 := by
          intro k
          have := honce k
          rw [publications_snoc] at this
          omega
        refine ⟨⟨hbefore, fun t ht => hd.gated t (List.mem_append_left _ ht),
          List.append_cancel_right hrec⟩, ?_⟩
        intro hr
        have hone := honce (g.key a)
        rw [publications_snoc, if_pos ⟨by rw [try_published, hr, hok hr]; rfl, rfl⟩] at hone
        exact ⟨hok hr, by omega⟩
    · rintro ⟨hd, hclean⟩
      refine ⟨?_, ?_, ?_⟩
      · intro k
        show g.publications (s.tried ++ [_]) k ≤ 1
        rw [publications_snoc]
        have hold := hd.once k
        by_cases hp : (g.try_ s.now a out).published = true ∧ g.key (g.try_ s.now a out).arg = k
        · have hpub := hp.1
          rw [try_published] at hpub
          have hfirst : g.publications s.tried k = 0 :=
            hp.2 ▸ (hclean (Bool.and_eq_true_iff.mp hpub).1).2
          rw [if_pos hp]
          omega
        · rw [if_neg hp]
          exact hold
      · intro t ht hp
        rcases List.mem_append.mp ht with ht | ht
        · exact hd.gated t ht hp
        · rw [List.mem_singleton.mp ht] at hp ⊢
          rw [try_published] at hp
          exact (Bool.and_eq_true_iff.mp hp).1
      · show g.records (g.attempt s.now a out) = (s.tried ++ [_]).map _
        rw [List.map_append, List.map_singleton, ← hd.recorded]
        rcases g.attempt_records s.now a out with ⟨hr, hout, _⟩ | ⟨_, hnote⟩
        · rw [(hclean hr).1] at hout
          cases hout
        · exact hnote

variable {s₀ : σ}

omit [DecidableEq κ] in
/-- whatever the calls do, only an attempt that reaches the call publishes -/
theorem gated_run {ms : List (Move β α ρ ε)} (h : run g.step { now := s₀ } ms = some s) :
    ∀ t ∈ s.tried, t.published = true → g.reaches t.before t.arg = true := by
  refine run_inv (P := fun s : Guarded σ α ρ =>
    ∀ t ∈ s.tried, t.published = true → g.reaches t.before t.arg = true) ?_ h
    (fun _ ht => absurd ht List.not_mem_nil)
  intro s m s' hs hm
  cases m with
  | turn b =>
    cases hm
    exact hs
  | attempt a out =>
    cases hm
    intro t ht hp
    rcases List.mem_append.mp ht with ht | ht
    · exact hs t ht hp
    · rw [List.mem_singleton.mp ht] at hp ⊢
      rw [try_published] at hp
      exact (Bool.and_eq_true_iff.mp hp).1

/-- **Guard rule.**  A run is sound if and only if all its steps are clean. -/
theorem sound_iff (h0 : g.records s₀ = []) {ms : List (Move β α ρ ε)}
    (h : run g.step { now := s₀ } ms = some s) :
    g.Sound s ↔ stepsMeet g.step g.Clean { now := s₀ } ms := by
  have hstart : g.Sound { now := s₀ } :=
    ⟨fun _ => Nat.zero_le _, fun _ ht => (nomatch ht), h0⟩
  have hiff := run_iff_meet (P := g.Sound) (C := g.Clean)
    (I := fun s => (g.records s.now).length ≤ s.tried.length) (fun _ _ _ => behind_step)
    (fun _ _ _ => sound_step) h (by rw [h0]; exact Nat.zero_le _)
  exact ⟨fun hd => (hiff.mp hd).2, fun hc => hiff.mpr ⟨hstart, hc⟩⟩

end Guard

/-- a memory of the published keys, which the guard consults; a value without a mark is not remembered -/
structure Remembers {σ β α ρ ε κ δ : Type*} (g : Guard σ β α ρ ε κ δ) (marks : ρ → Prop)
    (knows : σ → κ → Prop) : Prop where
  turned : ∀ s b k, knows s k → knows (g.turn s b) k
  kept : ∀ s a out k, knows s k → knows (g.attempt s a out) k
  learns : ∀ s a r, g.reaches s a = true → marks r → knows (g.attempt s a (.ok r)) (g.key a)
  asks : ∀ s a, g.reaches s a = true → ¬ knows s (g.key a)

section
variable {σ β α ρ ε κ δ : Type*} [DecidableEq κ] {g : Guard σ β α ρ ε κ δ} {marks : ρ → Prop}
  {knows : σ → κ → Prop} {s s' : Guarded σ α ρ} {m : Move β α ρ ε}

/-- a call that is made does not raise -/
def Guard.Returns (g : Guard σ β α ρ ε κ δ) (s : Guarded σ α ρ) : Move β α ρ ε → Prop
  | .turn _ => True
  | .attempt a out => g.reaches s.now a = true → out.isOk = true

/-- a call that is made does not raise, and what was returned before under its key left a mark -/
def Guard.Marked (g : Guard σ β α ρ ε κ δ) (marks : ρ → Prop) (s : Guarded σ α ρ) :
    Move β α ρ ε → Prop
  | .turn _ => True
  | .attempt a out => g.reaches s.now a = true → out.isOk = true ∧
      ∀ t ∈ s.tried, g.key t.arg = g.key a → ∀ r, t.returned = some r → marks r

omit [DecidableEq κ] in
/-- where every value leaves a mark, only a raise is left -/
theorem Guard.marked_returns : g.Marked (fun _ => True) s m ↔ g.Returns s m := by
  cases m with
  | turn b => exact Iff.rfl
  | attempt a out =>
    exact ⟨fun h hr => (h hr).1, fun h hr => ⟨h hr, fun _ _ _ _ _ => trivial⟩⟩

/-- the memory knows the keys under which a value with a mark was returned -/
def Knows (g : Guard σ β α ρ ε κ δ) (marks : ρ → Prop) (knows : σ → κ → Prop) (s : Guarded σ α ρ) :
    Prop :=
  ∀ t ∈ s.tried, ∀ r, t.returned = some r → marks r → knows s.now (g.key t.arg)

omit [DecidableEq κ] in
theorem Remembers.step (h : Remembers g marks knows) (hk : Knows g marks knows s)
    (hs : g.step s m = some s') : Knows g marks knows s' := by
  cases m with
  | turn b =>
    cases hs
    exact fun t ht r hr hm => h.turned _ _ _ (hk t ht r hr hm)
  | attempt a out =>
    cases hs
    intro t ht r hret hm
    rcases List.mem_append.mp ht with ht | ht
    · exact h.kept _ _ _ _ (hk t ht r hret hm)
    · rw [List.mem_singleton.mp ht] at hret ⊢
      unfold Guard.try_ at hret
      dsimp only at hret
      split at hret
      · rename_i hreach
        cases out with
        | ok r' =>
          cases hret
          exact h.learns _ _ _ hreach hm
        | error e => cases hret
      · cases hret

/-- with such a memory, a clean step is one before which nothing unmarked was returned under its key -/
theorem Remembers.clean_iff (h : Remembers g marks knows) (hk : Knows g marks knows s) :
    g.Clean s m ↔ g.Marked marks s m := by
  cases m with
  | turn b => exact Iff.rfl
  | attempt a out =>
    constructor
    · intro hc hr
      refine ⟨(hc hr).1, ?_⟩
      -- nothing was returned under the key
      intro t ht hkey r hret
      have hno := List.countP_eq_zero.mp (hc hr).2 t ht
      rw [Try.published, hret, hkey] at hno
      simp at hno
    · intro hc hr
      refine ⟨(hc hr).1, List.countP_eq_zero.mpr ?_⟩
      intro t ht hp
      obtain ⟨hpub, hkey⟩ := Bool.and_eq_true_iff.mp hp
      have hkey := of_decide_eq_true hkey
      obtain ⟨r, hret⟩ := Option.isSome_iff_exists.mp hpub
      have hknown := hk t ht r hret ((hc hr).2 t ht hkey r hret)
      rw [hkey] at hknown
      exact h.asks _ _ hr hknown

/-- **Guard rule with a memory.**  A run is sound if and only if no call of it raises, and none is made
after a value without a mark was returned under its key. -/
theorem Guard.marked_iff (h : Remembers g marks knows) {s₀ : σ} (h0 : g.records s₀ = [])
    {ms : List (Move β α ρ ε)} (hr : run g.step { now := s₀ } ms = some s) :
    g.Sound s ↔ stepsMeet g.step (g.Marked marks) { now := s₀ } ms := by
  rw [Guard.sound_iff h0 hr]
  exact stepsMeet_iff (I := Knows g marks knows) (fun _ _ hk => h.clean_iff hk)
    (fun _ _ _ hk _ hs => h.step hk hs) (fun _ ht => absurd ht List.not_mem_nil) ms

/-- if every value leaves a mark, a run is sound if and only if no call of it raises -/
theorem Guard.remembered_iff (h : Remembers g (fun _ => True) knows) {s₀ : σ}
    (h0 : g.records s₀ = []) {ms : List (Move β α ρ ε)}
    (hr : run g.step { now := s₀ } ms = some s) :
    g.Sound s ↔ stepsMeet g.step g.Returns { now := s₀ } ms := by
  rw [Guard.marked_iff h h0 hr]
  exact stepsMeet_iff (I := fun _ => True) (fun _ _ _ => Guard.marked_returns)
    (fun _ _ _ _ _ _ => trivial) trivial ms

end

end Sys
