import Mathlib.Logic.Basic

/-!
# Cooperative programs

`Prog σ ε α`: the effect tree of a body that a server runs step by step.  It reads and writes a
shared state `σ`, reads a clock, sleeps, polls a stop predicate, and ends with a result `α` or an
exception `ε`.

* `Prog.step`      one effect, with the answers of the stop predicate, of the clock and of the
                   state;
* `Prog.wp`        weakest precondition of a body that nothing else disturbs, for every answer of
                   the polls and of the clock; `wp_bind`, `wp_catch`, `wp_mono`, `wp_step`;
* `Prog.Ends`      a whole run; `wp_ends`, and `ends_eval` for the run of `Prog.eval`;
* `Prog.Quiet`     the body does not poll and ends with a result in a given set;
* `Prog.Polls n`   the body polls exactly `n` more times unless told to stop, flags the last of
                   these polls and no other as final, and stops at once when told to;
* `Prog.Halts a`   a poll that says stop is the last effect of the body, its result is `a`;
* `Prog.Always D`  whatever the polls, the clock and the state answer, the body ends with a result in
                   `D`; `Polls.always`, `Always.bind`, `Always.step`;
* `Prog.mapErr`    the same body with other names for its exceptions; `bind_mapErr`.
-/

namespace Sys

inductive Prog (σ ε α : Type) where
  | ret (a : α)
  | throw (e : ε)
  | poll (fin : Bool) (k : Bool → Prog σ ε α)
  | now (k : Int64 → Prog σ ε α)
  | sleep (ms : Int) (k : Prog σ ε α)
  | load (k : σ → Prog σ ε α)
  | store (s : σ) (k : Prog σ ε α)

namespace Prog

section
variable {σ ε α β : Type}

def bind : Prog σ ε α → (α → Prog σ ε β) → Prog σ ε β
  | ret a, f => f a
  | throw e, _ => throw e
  | poll fin k, f => poll fin (fun b => (k b).bind f)
  | now k, f => now (fun t => (k t).bind f)
  | sleep ms k, f => sleep ms (k.bind f)
  | load k, f => load (fun s => (k s).bind f)
  | store s k, f => store s (k.bind f)

instance : Monad (Prog σ ε) where
  pure := ret
  bind := bind

/-- `try p catch h` -/
def catch_ : Prog σ ε α → (ε → Prog σ ε α) → Prog σ ε α
  | ret a, _ => ret a
  | throw e, h => h e
  | poll fin k, h => poll fin (fun b => (k b).catch_ h)
  | now k, h => now (fun t => (k t).catch_ h)
  | sleep ms k, h => sleep ms (k.catch_ h)
  | load k, h => load (fun s => (k s).catch_ h)
  | store s k, h => store s (k.catch_ h)

/-- a computation with no effect but its exception -/
def ofExcept : Except ε α → Prog σ ε α
  | .ok a => ret a
  | .error e => throw e

instance : MonadLift (Except ε) (Prog σ ε) where
  monadLift := ofExcept

def stop (fin : Bool) : Prog σ ε Bool := poll fin ret
def clock : Prog σ ε Int64 := now ret
def sleepFor (ms : Int) : Prog σ ε Unit := sleep ms (ret ())
def get : Prog σ ε σ := load ret
def set (s : σ) : Prog σ ε Unit := store s (ret ())

/-- one effect; `stop` answers a poll and may change its own state `τ`, `t` is the clock -/
def step {τ : Type} (stop : τ → Bool → τ × Bool) (t : Int64) :
    Prog σ ε α → σ → τ → Option (Prog σ ε α × σ × τ)
  | ret _, _, _ => none
  | throw _, _, _ => none
  | poll fin k, s, u => some (k (stop u fin).2, s, (stop u fin).1)
  | now k, s, u => some (k t, s, u)
  | sleep _ k, s, u => some (k, s, u)
  | load k, s, u => some (k s, s, u)
  | store s' k, _, u => some (k, s', u)

/-- one effect moves the state of the stop predicate by at most one answer of it -/
theorem step_poll {τ : Type} {stop : τ → Bool → τ × Bool} {t : Int64} {p p' : Prog σ ε α}
    {s s' : σ} {u u' : τ} (h : p.step stop t s u = some (p', s', u')) :
    u' = u ∨ ∃ fin, u' = (stop u fin).1 := by
  cases p with
  | poll fin k =>
    cases h
    exact Or.inr ⟨fin, rfl⟩
  | ret a => cases h
  | throw e => cases h
  | _ =>
    cases h
    exact Or.inl rfl

/-- the result of a body that has ended -/
def result : Prog σ ε α → Option (Except ε α)
  | ret a => some (.ok a)
  | throw e => some (.error e)
  | _ => none

/-- the result when no poll asks to stop and the clock always reads `t` -/
def eval (t : Int64) : Prog σ ε α → σ → Except ε α × σ
  | ret a, s => (.ok a, s)
  | throw e, s => (.error e, s)
  | poll _ k, s => (k false).eval t s
  | now k, s => (k t).eval t s
  | sleep _ k, s => k.eval t s
  | load k, s => (k s).eval t s
  | store s' k, _ => k.eval t s'

/-! ## weakest precondition -/

def wp (Q : Except ε α → σ → Prop) : Prog σ ε α → σ → Prop
  | ret a, s => Q (.ok a) s
  | throw e, s => Q (.error e) s
  | poll _ k, s => ∀ b, (k b).wp Q s
  | now k, s => ∀ t, (k t).wp Q s
  | sleep _ k, s => k.wp Q s
  | load k, s => (k s).wp Q s
  | store s' k, _ => k.wp Q s'

theorem wp_pure {Q : Except ε α → σ → Prop} {a : α} {s : σ} (h : Q (.ok a) s) :
    (pure a : Prog σ ε α).wp Q s := h

theorem wp_mono {Q Q' : Except ε α → σ → Prop} (h : ∀ r s, Q r s → Q' r s) (p : Prog σ ε α)
    (s : σ) (hp : p.wp Q s) : p.wp Q' s := by
  induction p generalizing s with
  | ret a => exact h _ _ hp
  | throw e => exact h _ _ hp
  | poll fin k ih => exact fun b => ih b s (hp b)
  | now k ih => exact fun t => ih t s (hp t)
  | sleep ms k ih => exact ih s hp
  | load k ih => exact ih s s hp
  | store s' k ih => exact ih s' hp

theorem wp_true (p : Prog σ ε α) (s : σ) : p.wp (fun _ _ => True) s := by
  induction p generalizing s with
  | ret a => trivial
  | throw e => trivial
  | poll fin k ih => exact fun b => ih b s
  | now k ih => exact fun t => ih t s
  | sleep ms k ih => exact ih s
  | load k ih => exact ih s s
  | store s' k ih => exact ih s'

/-- what the continuation of a bind has to establish -/
def bindPost (Q : Except ε β → σ → Prop) (f : α → Prog σ ε β) : Except ε α → σ → Prop
  | .ok a, s => (f a).wp Q s
  | .error e, s => Q (.error e) s

theorem wp_bind {Q : Except ε β → σ → Prop} (p : Prog σ ε α) (f : α → Prog σ ε β) (s : σ)
    (hp : p.wp (bindPost Q f) s) : (p.bind f).wp Q s := by
  induction p generalizing s with
  | ret a => exact hp
  | throw e => exact hp
  | poll fin k ih => exact fun b => ih b s (hp b)
  | now k ih => exact fun t => ih t s (hp t)
  | sleep ms k ih => exact ih s hp
  | load k ih => exact ih s s hp
  | store s' k ih => exact ih s' hp

/-- what the handler of a catch has to establish -/
def catchPost (Q : Except ε α → σ → Prop) (h : ε → Prog σ ε α) : Except ε α → σ → Prop
  | .ok a, s => Q (.ok a) s
  | .error e, s => (h e).wp Q s

theorem wp_catch {Q : Except ε α → σ → Prop} (p : Prog σ ε α) (h : ε → Prog σ ε α) (s : σ)
    (hp : p.wp (catchPost Q h) s) : (p.catch_ h).wp Q s := by
  induction p generalizing s with
  | ret a => exact hp
  | throw e => exact hp
  | poll fin k ih => exact fun b => ih b s (hp b)
  | now k ih => exact fun t => ih t s (hp t)
  | sleep ms k ih => exact ih s hp
  | load k ih => exact ih s s hp
  | store s' k ih => exact ih s' hp

/-- **The weakest precondition is kept by every effect.** -/
theorem wp_step {τ : Type} {stop : τ → Bool → τ × Bool} {t : Int64} {Q : Except ε α → σ → Prop}
    {p p' : Prog σ ε α} {s s' : σ} {u u' : τ} (h : p.step stop t s u = some (p', s', u'))
    (hp : p.wp Q s) : p'.wp Q s' := by
  cases p <;> cases h
  case poll => exact hp _
  case now => exact hp _
  all_goals exact hp

theorem wp_result {Q : Except ε α → σ → Prop} {p : Prog σ ε α} {s : σ} {r : Except ε α}
    (h : p.result = some r) (hp : p.wp Q s) : Q r s := by
  cases p <;> cases h <;> exact hp

/-! ## whole runs -/

/-- a run to the end that nothing else disturbs, with any answers of the polls and of the clock -/
inductive Ends : Prog σ ε α → σ → Except ε α → σ → Prop
  | ret (a : α) (s : σ) : Ends (.ret a) s (.ok a) s
  | throw (e : ε) (s : σ) : Ends (.throw e) s (.error e) s
  | poll {fin : Bool} {k : Bool → Prog σ ε α} {s s' : σ} {r : Except ε α} (b : Bool)
      (h : Ends (k b) s r s') : Ends (.poll fin k) s r s'
  | now {k : Int64 → Prog σ ε α} {s s' : σ} {r : Except ε α} (t : Int64)
      (h : Ends (k t) s r s') : Ends (.now k) s r s'
  | sleep {ms : Int} {k : Prog σ ε α} {s s' : σ} {r : Except ε α}
      (h : Ends k s r s') : Ends (.sleep ms k) s r s'
  | load {k : σ → Prog σ ε α} {s s' : σ} {r : Except ε α}
      (h : Ends (k s) s r s') : Ends (.load k) s r s'
  | store {k : Prog σ ε α} {s s' t : σ} {r : Except ε α}
      (h : Ends k t r s') : Ends (.store t k) s r s'

/-- **The weakest precondition holds of every run.** -/
theorem wp_ends {Q : Except ε α → σ → Prop} {p : Prog σ ε α} {s s' : σ} {r : Except ε α}
    (h : p.Ends s r s') (hp : p.wp Q s) : Q r s' := by
  induction h with
  | ret a s => exact hp
  | throw e s => exact hp
  | poll b _ ih => exact ih (hp b)
  | now t _ ih => exact ih (hp t)
  | sleep _ ih => exact ih hp
  | load _ ih => exact ih hp
  | store _ ih => exact ih hp

theorem ends_eval (t : Int64) (p : Prog σ ε α) (s : σ) : p.Ends s (p.eval t s).1 (p.eval t s).2 := by
  induction p generalizing s with
  | ret a => exact .ret a s
  | throw e => exact .throw e s
  | poll fin k ih => exact .poll false (ih false s)
  | now k ih => exact .now t (ih t s)
  | sleep ms k ih => exact .sleep (ih s)
  | load k ih => exact .load (ih s s)
  | store s' k ih => exact .store (ih s')

/-! ## polls -/

/-- no poll, and the result is in `D` -/
def Quiet (D : Except ε α → Prop) : Prog σ ε α → Prop
  | ret a => D (.ok a)
  | throw e => D (.error e)
  | poll _ _ => False
  | now k => ∀ t, (k t).Quiet D
  | sleep _ k => k.Quiet D
  | load k => ∀ s, (k s).Quiet D
  | store _ k => k.Quiet D

/-- exactly `n` more polls, the last one final, then a result in `D`; after a poll that says
stop, no poll and a result in `S` -/
def Polls (D S : Except ε α → Prop) : Prog σ ε α → Nat → Prop
  | ret a, n => n = 0 ∧ D (.ok a)
  | throw e, n => n = 0 ∧ D (.error e)
  | poll fin k, n => ∃ m, n = m + 1 ∧ fin = (m == 0) ∧ (k false).Polls D S m ∧ (k true).Quiet S
  | now k, n => ∀ t, (k t).Polls D S n
  | sleep _ k, n => k.Polls D S n
  | load k, n => ∀ s, (k s).Polls D S n
  | store _ k, n => k.Polls D S n

theorem Quiet.pure {D : Except ε α → Prop} {a : α} (h : D (.ok a)) :
    (Pure.pure a : Prog σ ε α).Quiet D := h

/-- a body that does not poll polls `0` times -/
theorem quiet_iff_polls {D S : Except ε α → Prop} {p : Prog σ ε α} : p.Quiet D ↔ p.Polls D S 0 := by
  induction p with
  | ret a => exact ⟨fun h => ⟨rfl, h⟩, fun h => h.2⟩
  | throw e => exact ⟨fun h => ⟨rfl, h⟩, fun h => h.2⟩
  | poll fin k ih =>
    refine ⟨False.elim, fun h => ?_⟩
    obtain ⟨m, hm, -⟩ := h
    cases hm
  | now k ih => exact forall_congr' ih
  | sleep ms k ih => exact ih
  | load k ih => exact forall_congr' ih
  | store s k ih => exact ih

theorem Quiet.polls {D S : Except ε α → Prop} {p : Prog σ ε α} (hp : p.Quiet D) : p.Polls D S 0 :=
  quiet_iff_polls.mp hp

theorem Polls.mono {D D' S : Except ε α → Prop} (h : ∀ r, D r → D' r) {p : Prog σ ε α} {n : Nat}
    (hp : p.Polls D S n) : p.Polls D' S n := by
  induction p generalizing n with
  | ret a => exact ⟨hp.1, h _ hp.2⟩
  | throw e => exact ⟨hp.1, h _ hp.2⟩
  | poll fin k ih =>
    obtain ⟨m, hm, hfin, hk, hq⟩ := hp
    exact ⟨m, hm, hfin, ih false hk, hq⟩
  | now k ih => exact fun t => ih t (hp t)
  | sleep ms k ih => exact ih hp
  | load k ih => exact fun s => ih s (hp s)
  | store s k ih => exact ih hp

theorem Quiet.mono {D D' : Except ε α → Prop} (h : ∀ r, D r → D' r) {p : Prog σ ε α}
    (hp : p.Quiet D) : p.Quiet D' := by
  have hpolls : p.Polls D D 0 := hp.polls
  exact quiet_iff_polls.mpr (hpolls.mono h)

/-- a run that is never told to stop ends in `D` -/
theorem Polls.eval {D S : Except ε α → Prop} {p : Prog σ ε α} {n : Nat} (hp : p.Polls D S n)
    (t : Int64) (s : σ) : D (p.eval t s).1 := by
  induction p generalizing n s with
  | ret a => exact hp.2
  | throw e => exact hp.2
  | poll fin k ih =>
    obtain ⟨m, _, _, hk, _⟩ := hp
    exact ih false hk s
  | now k ih => exact ih t (hp t) s
  | sleep ms k ih => exact ih hp s
  | load k ih => exact ih s (hp s) s
  | store s' k ih => exact ih hp s'

/-- an effect of a body that does not poll -/
theorem Quiet.step {τ : Type} {stop : τ → Bool → τ × Bool} {t : Int64} {D : Except ε α → Prop}
    {p p' : Prog σ ε α} {s s' : σ} {u u' : τ} (hp : p.Quiet D)
    (h : p.step stop t s u = some (p', s', u')) : u' = u ∧ p'.Quiet D := by
  cases p with
  | ret a => cases h
  | throw e => cases h
  | poll fin k => exact False.elim hp
  | now k =>
    cases h
    exact ⟨rfl, hp t⟩
  | load k =>
    cases h
    exact ⟨rfl, hp s⟩
  | sleep ms k =>
    cases h
    exact ⟨rfl, hp⟩
  | store st k =>
    cases h
    exact ⟨rfl, hp⟩

/-- an effect of a polling body: no poll, or the next of its polls -/
theorem Polls.step {τ : Type} {stop : τ → Bool → τ × Bool} {t : Int64} {D S : Except ε α → Prop}
    {p p' : Prog σ ε α} {s s' : σ} {u u' : τ} {n : Nat} (hp : p.Polls D S n)
    (h : p.step stop t s u = some (p', s', u')) :
    (u' = u ∧ p'.Polls D S n) ∨ ∃ m, n = m + 1 ∧ u' = (stop u (m == 0)).1 ∧
      (((stop u (m == 0)).2 = true ∧ p'.Quiet S) ∨
        ((stop u (m == 0)).2 = false ∧ p'.Polls D S m)) := by
  cases p with
  | ret a => cases h
  | throw e => cases h
  | poll fin k =>
    obtain ⟨m, rfl, rfl, hk, hq⟩ := hp
    cases h
    refine Or.inr ⟨m, rfl, rfl, ?_⟩
    cases hb : (stop u (m == 0)).2 with
    | true => exact Or.inl ⟨rfl, hq⟩
    | false => exact Or.inr ⟨rfl, hk⟩
  | now k =>
    cases h
    exact Or.inl ⟨rfl, hp t⟩
  | load k =>
    cases h
    exact Or.inl ⟨rfl, hp s⟩
  | sleep ms k =>
    cases h
    exact Or.inl ⟨rfl, hp⟩
  | store st k =>
    cases h
    exact Or.inl ⟨rfl, hp⟩

theorem Quiet.result {D : Except ε α → Prop} {p : Prog σ ε α} {r : Except ε α} (hp : p.Quiet D)
    (h : p.result = some r) : D r := by
  cases p <;> cases h <;> exact hp

theorem Polls.result {D S : Except ε α → Prop} {p : Prog σ ε α} {r : Except ε α} {n : Nat}
    (hp : p.Polls D S n) (h : p.result = some r) : n = 0 ∧ D r := by
  cases p <;> cases h <;> exact hp

/-- a first part that does not poll, then a continuation that polls -/
theorem Quiet.bind_polls {D : Except ε α → Prop} {D' S' : Except ε β → Prop} {p : Prog σ ε α}
    {n : Nat} {f : α → Prog σ ε β} (hp : p.Quiet D) (hok : ∀ a, D (.ok a) → (f a).Polls D' S' n)
    (herr : ∀ e, D (.error e) → n = 0 ∧ D' (.error e)) : (p.bind f).Polls D' S' n := by
  induction p with
  | ret a => exact hok a hp
  | throw e => exact herr e hp
  | poll fin k ih => exact False.elim hp
  | now k ih => exact fun t => ih t (hp t)
  | sleep ms k ih => exact ih hp
  | load k ih => exact fun s => ih s (hp s)
  | store s k ih => exact ih hp

theorem Quiet.bind {D : Except ε α → Prop} {D' : Except ε β → Prop} {p : Prog σ ε α}
    {f : α → Prog σ ε β} (hp : p.Quiet D) (hok : ∀ a, D (.ok a) → (f a).Quiet D')
    (herr : ∀ e, D (.error e) → D' (.error e)) : (p.bind f).Quiet D' := by
  have hpolls : (p.bind f).Polls D' D' 0 :=
    hp.bind_polls (fun a ha => (hok a ha).polls) (fun e he => ⟨rfl, herr e he⟩)
  exact quiet_iff_polls.mpr hpolls

theorem Quiet.catch_ {D D' : Except ε α → Prop} {p : Prog σ ε α} {h : ε → Prog σ ε α}
    (hp : p.Quiet D) (hok : ∀ a, D (.ok a) → D' (.ok a))
    (herr : ∀ e, D (.error e) → (h e).Quiet D') : (p.catch_ h).Quiet D' := by
  induction p with
  | ret a => exact hok a hp
  | throw e => exact herr e hp
  | poll fin k ih => exact False.elim hp
  | now k ih => exact fun t => ih t (hp t)
  | sleep ms k ih => exact ih hp
  | load k ih => exact fun s => ih s (hp s)
  | store s k ih => exact ih hp

/-- polls first, then a continuation that does not poll -/
theorem Polls.bind {D S : Except ε α → Prop} {D' S' : Except ε β → Prop} {p : Prog σ ε α} {n : Nat}
    {f : α → Prog σ ε β} (hp : p.Polls D S n) (hD : ∀ a, D (.ok a) → (f a).Quiet D')
    (hDe : ∀ e, D (.error e) → D' (.error e)) (hS : ∀ a, S (.ok a) → (f a).Quiet S')
    (hSe : ∀ e, S (.error e) → S' (.error e)) : (p.bind f).Polls D' S' n := by
  induction p generalizing n with
  | ret a =>
    obtain ⟨rfl, h⟩ := hp
    exact (hD a h).polls
  | throw e => exact ⟨hp.1, hDe e hp.2⟩
  | poll fin k ih =>
    obtain ⟨m, rfl, hfin, hk, hq⟩ := hp
    exact ⟨m, rfl, hfin, ih false hk, hq.bind hS hSe⟩
  | now k ih => exact fun t => ih t (hp t)
  | sleep ms k ih => exact ih hp
  | load k ih => exact fun s => ih s (hp s)
  | store s k ih => exact ih hp

theorem Polls.catch_ {D S D' S' : Except ε α → Prop} {p : Prog σ ε α} {n : Nat}
    {h : ε → Prog σ ε α} (hp : p.Polls D S n) (hD : ∀ a, D (.ok a) → D' (.ok a))
    (hDe : ∀ e, D (.error e) → (h e).Quiet D') (hS : ∀ a, S (.ok a) → S' (.ok a))
    (hSe : ∀ e, S (.error e) → (h e).Quiet S') : (p.catch_ h).Polls D' S' n := by
  induction p generalizing n with
  | ret a => exact ⟨hp.1, hD a hp.2⟩
  | throw e =>
    obtain ⟨rfl, he⟩ := hp
    exact (hDe e he).polls
  | poll fin k ih =>
    obtain ⟨m, rfl, hfin, hk, hq⟩ := hp
    exact ⟨m, rfl, hfin, ih false hk, hq.catch_ hS hSe⟩
  | now k ih => exact fun t => ih t (hp t)
  | sleep ms k ih => exact ih hp
  | load k ih => exact fun s => ih s (hp s)
  | store s k ih => exact ih hp

/-! ## every end -/

/-- whatever the polls, the clock and the state answer, the result is in `D` -/
def Always (D : Except ε α → Prop) : Prog σ ε α → Prop
  | ret a => D (.ok a)
  | throw e => D (.error e)
  | poll _ k => ∀ b, (k b).Always D
  | now k => ∀ t, (k t).Always D
  | sleep _ k => k.Always D
  | load k => ∀ s, (k s).Always D
  | store _ k => k.Always D

theorem Quiet.always {D D' : Except ε α → Prop} (h : ∀ r, D r → D' r) {p : Prog σ ε α}
    (hp : p.Quiet D) : p.Always D' := by
  induction p with
  | ret a => exact h _ hp
  | throw e => exact h _ hp
  | poll fin k ih => exact False.elim hp
  | now k ih => exact fun t => ih t (hp t)
  | sleep ms k ih => exact ih hp
  | load k ih => exact fun s => ih s (hp s)
  | store s k ih => exact ih hp

/-- a polling body ends in `D`, or in `S` when it is told to stop -/
theorem Polls.always {D S D' : Except ε α → Prop} (hD : ∀ r, D r → D' r) (hS : ∀ r, S r → D' r)
    {p : Prog σ ε α} {n : Nat} (hp : p.Polls D S n) : p.Always D' := by
  induction p generalizing n with
  | ret a => exact hD _ hp.2
  | throw e => exact hD _ hp.2
  | poll fin k ih =>
    obtain ⟨m, _, _, hk, hq⟩ := hp
    intro b
    cases b with
    | true => exact hq.always hS
    | false => exact ih false hk
  | now k ih => exact fun t => ih t (hp t)
  | sleep ms k ih => exact ih hp
  | load k ih => exact fun s => ih s (hp s)
  | store s k ih => exact ih hp

theorem Always.mono {D D' : Except ε α → Prop} (h : ∀ r, D r → D' r) {p : Prog σ ε α}
    (hp : p.Always D) : p.Always D' := by
  induction p with
  | ret a => exact h _ hp
  | throw e => exact h _ hp
  | poll fin k ih => exact fun b => ih b (hp b)
  | now k ih => exact fun t => ih t (hp t)
  | sleep ms k ih => exact ih hp
  | load k ih => exact fun s => ih s (hp s)
  | store s k ih => exact ih hp

theorem Always.and {D D' : Except ε α → Prop} {p : Prog σ ε α} (hp : p.Always D)
    (hp' : p.Always D') : p.Always (fun r => D r ∧ D' r) := by
  induction p with
  | ret a => exact ⟨hp, hp'⟩
  | throw e => exact ⟨hp, hp'⟩
  | poll fin k ih => exact fun b => ih b (hp b) (hp' b)
  | now k ih => exact fun t => ih t (hp t) (hp' t)
  | sleep ms k ih => exact ih hp hp'
  | load k ih => exact fun s => ih s (hp s) (hp' s)
  | store s k ih => exact ih hp hp'

theorem Always.bind {D : Except ε α → Prop} {D' : Except ε β → Prop} {p : Prog σ ε α}
    {f : α → Prog σ ε β} (hp : p.Always D) (hok : ∀ a, D (.ok a) → (f a).Always D')
    (herr : ∀ e, D (.error e) → D' (.error e)) : (p.bind f).Always D' := by
  induction p with
  | ret a => exact hok a hp
  | throw e => exact herr e hp
  | poll fin k ih => exact fun b => ih b (hp b)
  | now k ih => exact fun t => ih t (hp t)
  | sleep ms k ih => exact ih hp
  | load k ih => exact fun s => ih s (hp s)
  | store s k ih => exact ih hp

theorem Always.catch_ {D D' : Except ε α → Prop} {p : Prog σ ε α} {h : ε → Prog σ ε α}
    (hp : p.Always D) (hok : ∀ a, D (.ok a) → D' (.ok a))
    (herr : ∀ e, D (.error e) → (h e).Always D') : (p.catch_ h).Always D' := by
  induction p with
  | ret a => exact hok a hp
  | throw e => exact herr e hp
  | poll fin k ih => exact fun b => ih b (hp b)
  | now k ih => exact fun t => ih t (hp t)
  | sleep ms k ih => exact ih hp
  | load k ih => exact fun s => ih s (hp s)
  | store s k ih => exact ih hp

theorem Always.step {τ : Type} {stop : τ → Bool → τ × Bool} {t : Int64} {D : Except ε α → Prop}
    {p p' : Prog σ ε α} {s s' : σ} {u u' : τ} (hp : p.Always D)
    (h : p.step stop t s u = some (p', s', u')) : p'.Always D := by
  cases p <;> cases h
  case poll => exact hp _
  case now => exact hp _
  case load => exact hp _
  all_goals exact hp

theorem Always.result {D : Except ε α → Prop} {p : Prog σ ε α} {r : Except ε α} (hp : p.Always D)
    (h : p.result = some r) : D r := by
  cases p <;> cases h <;> exact hp

/-! ## no effect after a stop -/

/-- a poll that says stop is the last effect, and the result is `a` -/
def Halts (a : α) : Prog σ ε α → Prop
  | ret _ => True
  | throw _ => True
  | poll _ k => k true = ret a ∧ (k false).Halts a
  | now k => ∀ t, (k t).Halts a
  | sleep _ k => k.Halts a
  | load k => ∀ s, (k s).Halts a
  | store _ k => k.Halts a

/-- a first part that does not poll, then a continuation that halts -/
theorem Quiet.bind_halts {D : Except ε α → Prop} {p : Prog σ ε α} {f : α → Prog σ ε β} {b : β}
    (hp : p.Quiet D) (hf : ∀ a, (f a).Halts b) : (p.bind f).Halts b := by
  induction p with
  | ret a => exact hf a
  | throw e => trivial
  | poll fin k ih => exact False.elim hp
  | now k ih => exact fun t => ih t (hp t)
  | sleep ms k ih => exact ih hp
  | load k ih => exact fun s => ih s (hp s)
  | store s k ih => exact ih hp

end

/-! ## renamed exceptions -/

section
variable {σ ε ε' α β : Type}

/-- the body with its exceptions renamed -/
def mapErr (f : ε → ε') : Prog σ ε α → Prog σ ε' α
  | ret a => ret a
  | throw e => throw (f e)
  | poll fin k => poll fin (fun b => (k b).mapErr f)
  | now k => now (fun t => (k t).mapErr f)
  | sleep ms k => sleep ms (k.mapErr f)
  | load k => load (fun s => (k s).mapErr f)
  | store s k => store s (k.mapErr f)

variable {g : ε → ε'}

/-- renaming goes through a bind -/
theorem bind_mapErr {p : Prog σ ε α} {f : α → Prog σ ε β} {f' : α → Prog σ ε' β}
    (h : ∀ a, f' a = (f a).mapErr g) : p.mapErr g >>= f' = (p >>= f).mapErr g := by
  induction p with
  | ret a => exact h a
  | throw e => rfl
  | poll fin k ih => exact congrArg (poll fin) (funext ih)
  | now k ih => exact congrArg now (funext ih)
  | sleep ms k ih => exact congrArg (sleep ms) ih
  | load k ih => exact congrArg load (funext ih)
  | store s k ih => exact congrArg (store s) ih

/-- what holds of the renamed body, read off the body itself -/
theorem wp_mapErr {Q : Except ε' α → σ → Prop} {p : Prog σ ε α} {s : σ}
    (h : p.wp (fun r s' => Q (r.mapError g) s') s) : (p.mapErr g).wp Q s := by
  induction p generalizing s with
  | ret a => exact h
  | throw e => exact h
  | poll fin k ih => exact fun b => ih b (h b)
  | now k ih => exact fun t => ih t (h t)
  | sleep ms k ih => exact ih h
  | load k ih => exact ih s h
  | store s' k ih => exact ih h

end

end Prog

end Sys
