import RayX.Lane.Drain
import RayX.Actor.Registry

/-!
# The cancel contract

A true cancel is never broken and a false cancel never cancels, for every body whose polls agree
with the checkpoint count that arms its token.

* `Honest`          the body polls `checkpointCount - 1` times, the last one final, ends with a
                    cancelled row after a poll that says stop, and with another row otherwise;
* `Life.Contract`   what token, body, answers and promise of such an item have in common;
* `Registered`      the items that the validated calls of operations and counter methods admit;
* `cancel_contract`   **at most one cancel wins, the row is cancelled exactly when one did, and
                    after the row every cancel is refused**.
-/

namespace RayX
open Sys

def notCancelledRow : Except Exc RuntimeResult → Prop
  | .ok r => r.status ≠ .cancelled
  | .error _ => True

def cancelledRow : Except Exc RuntimeResult → Prop
  | .ok r => r.status = .cancelled
  | .error _ => False

section
variable {σ : Type}

def Honest (it : Item σ) : Prop :=
  it.task.Polls notCancelledRow cancelledRow (it.checkpointCount - 1).toNat

namespace Life

/-- the number of `cancel()` calls that returned `true` -/
def wins (l : Life σ) : Nat := l.answers.count true

/-- a queued cancel has won, or a running one and the body has honored it -/
def Stopped (l : Life σ) : Prop :=
  l.tok.phase = .cancelled ∧ l.wins = 1 ∧ ∀ r ∈ l.prom, r.status = .cancelled

/-- no cancel has won, and `n` polls are still to come -/
def Running (l : Life σ) (n : Nat) : Prop :=
  l.tok.phase = .running ∧ l.tok.cancellable = decide (0 < n) ∧ l.wins = 0

/-- a cancel has won, and a poll is still to come -/
def Stopping (l : Life σ) (n : Nat) : Prop :=
  l.tok.phase = .stopRequested ∧ 0 < n ∧ l.wins = 1

/-- what holds at each place -/
def ContractAt (l : Life σ) : Loc σ → Prop
  | .absent => l.wins = 0
  | .queued => (l.tok.phase = .queued ∧ l.wins = 0) ∨ l.Stopped
  | .popped => (l.tok.phase = .queued ∧ l.wins = 0) ∨ l.Stopped
  | .began => ∀ it, l.item = some it →
    l.Running (it.checkpointCount - 1).toNat ∨ l.Stopping (it.checkpointCount - 1).toNat
  | .registered => ∀ it, l.item = some it →
    l.Running (it.checkpointCount - 1).toNat ∨ l.Stopping (it.checkpointCount - 1).toNat
  | .service (.body t) =>
    (∃ n, t.Polls notCancelledRow cancelledRow n ∧ (l.Running n ∨ l.Stopping n)) ∨
      (t.Quiet cancelledRow ∧ l.Stopped)
  | .service (.outcome r) =>
    (l.Running 0 ∧ r.status ≠ .cancelled) ∨ (l.Stopped ∧ r.status = .cancelled)
  | .service (.settled r) =>
    ((l.tok.phase = .completed ∧ l.wins = 0) ∧ r.status ≠ .cancelled) ∨
      (l.Stopped ∧ r.status = .cancelled)
  | .service .fulfilled =>
    ((l.tok.phase = .completed ∧ l.wins = 0) ∧ ∃ r, l.prom = [r] ∧ r.status ≠ .cancelled) ∨
      l.Stopped
  | .retired =>
    ((l.tok.phase = .completed ∧ l.wins = 0) ∧ ∃ r, l.prom = [r] ∧ r.status ≠ .cancelled) ∨
      l.Stopped

def Contract (l : Life σ) : Prop := l.ContractAt l.loc

theorem Contract.at_loc {l : Life σ} {loc : Loc σ} (h : l.Contract) (hl : l.loc = loc) :
    l.ContractAt loc := by
  rw [← hl]
  exact h

/-- the invariant of an item whose body is honest -/
def Kept (l : Life σ) : Prop :=
  l.Once ∧ (l.loc = .absent → l.item = none) ∧
    ((∀ it, l.item = some it → Honest it) → l.Contract)

variable {l l' : Life σ}

/-- the life after a call of `cancel()` -/
def cancelled (l : Life σ) : Life σ := { l with
  tok := l.tok.cancel.1
  answers := l.answers ++ [l.tok.cancel.2.returned]
  owed := l.owed + owes l.tok.cancel.2 }

theorem cancelled_wins (l : Life σ) :
    l.cancelled.wins = l.wins + if l.tok.cancel.2.returned then 1 else 0 := by
  show (l.answers ++ [l.tok.cancel.2.returned]).count true = _
  rw [List.count_append, List.count_singleton]
  cases l.tok.cancel.2.returned <;> rfl

/-- a refused cancel changes neither the token nor the number of wins -/
theorem cancelled_refused (h : l.tok.cancel = (l.tok, .refused)) :
    l.cancelled.tok = l.tok ∧ l.cancelled.wins = l.wins := by
  refine ⟨congrArg Prod.fst h, ?_⟩
  rw [cancelled_wins, h]
  rfl

theorem Stopped.cancelled (h : l.Stopped) : l.cancelled.Stopped := by
  have hr := Token.cancel_settled (t := l.tok) (Or.inr (by rw [Token.isCancelled, h.1]; rfl))
  obtain ⟨ht, hw⟩ := cancelled_refused hr
  refine ⟨?_, ?_, h.2.2⟩
  · rw [ht]
    exact h.1
  · rw [hw]
    exact h.2.1

theorem Running.cancelled {n : Nat} (h : l.Running n) :
    l.cancelled.Running n ∨ l.cancelled.Stopping n := by
  obtain ⟨hp, hc, hw⟩ := h
  by_cases hn : 0 < n
  · rw [decide_eq_true hn] at hc
    have he := Token.cancel_running hp hc
    refine Or.inr ⟨?_, hn, ?_⟩
    · exact congrArg (fun x : Token × Answer => x.1.phase) he
    · rw [cancelled_wins, he, hw]
      rfl
  · rw [decide_eq_false hn] at hc
    have hq : l.tok.phase ≠ .queued := by
      rw [hp]
      exact Phase.noConfusion
    obtain ⟨ht, hw'⟩ := cancelled_refused (Token.cancel_refused hq (fun _ => hc))
    refine Or.inl ⟨?_, ?_, ?_⟩
    · rw [ht]
      exact hp
    · rw [ht, hc, decide_eq_false hn]
    · rw [hw']
      exact hw

theorem Stopping.cancelled {n : Nat} (h : l.Stopping n) : l.cancelled.Stopping n := by
  have hr := Token.cancel_settled (t := l.tok) (Or.inr (by rw [Token.isCancelled, h.1]; rfl))
  obtain ⟨ht, hw⟩ := cancelled_refused hr
  refine ⟨?_, h.2.1, ?_⟩
  · rw [ht]
    exact h.1
  · rw [hw]
    exact h.2.2

/-- a terminal token refuses -/
theorem completed_cancelled (h : l.tok.phase = .completed) (hw : l.wins = 0) :
    l.cancelled.tok.phase = .completed ∧ l.cancelled.wins = 0 := by
  have hr := Token.cancel_settled (t := l.tok) (Or.inl (by rw [Token.pastBoundary, h]; rfl))
  obtain ⟨ht, hw'⟩ := cancelled_refused hr
  rw [ht, hw']
  exact ⟨h, hw⟩

theorem queued_cancelled (h : l.tok.phase = .queued) (hw : l.wins = 0) (hp : l.prom = []) :
    l.cancelled.Stopped := by
  have he := Token.cancel_queued h
  refine ⟨?_, ?_, ?_⟩
  · exact congrArg (fun x : Token × Answer => x.1.phase) he
  · rw [cancelled_wins, he, hw]
    rfl
  · intro r hr
    rw [show l.cancelled.prom = [] from hp] at hr
    cases hr

/-- the promise of a queued item that no cancel has won is unset -/
theorem Once.unset (h : l.Once) (hl : l.loc.stage = .waiting) (hq : l.tok.phase = .queued) :
    l.prom = [] := by
  rcases h.waiting hl with h | h
  · exact h.2.1
  · rw [h.1] at hq
    cases hq

theorem ContractAt.cancelled {loc : Loc σ} (h : l.ContractAt loc) (hl : loc ≠ .absent)
    (hp : loc.stage = .waiting → l.tok.phase = .queued → l.prom = []) :
    l.cancelled.ContractAt loc := by
  cases loc with
  | absent => exact absurd rfl hl
  | queued =>
    rcases h with h | h
    · exact Or.inr (queued_cancelled h.1 h.2 (hp rfl h.1))
    · exact Or.inr h.cancelled
  | popped =>
    rcases h with h | h
    · exact Or.inr (queued_cancelled h.1 h.2 (hp rfl h.1))
    · exact Or.inr h.cancelled
  | began =>
    intro it hi
    rcases h it hi with h | h
    · exact h.cancelled
    · exact Or.inr h.cancelled
  | registered =>
    intro it hi
    rcases h it hi with h | h
    · exact h.cancelled
    · exact Or.inr h.cancelled
  | service v =>
    cases v with
    | body t =>
      rcases h with ⟨n, ht, h | h⟩ | ⟨ht, h⟩
      · exact Or.inl ⟨n, ht, h.cancelled⟩
      · exact Or.inl ⟨n, ht, Or.inr h.cancelled⟩
      · exact Or.inr ⟨ht, h.cancelled⟩
    | outcome r =>
      rcases h with ⟨h, hr⟩ | ⟨h, hr⟩
      · rcases h.cancelled with h' | h'
        · exact Or.inl ⟨h', hr⟩
        · exact absurd h'.2.1 (Nat.lt_irrefl 0)
      · exact Or.inr ⟨h.cancelled, hr⟩
    | settled r =>
      rcases h with ⟨h, hr⟩ | ⟨h, hr⟩
      · exact Or.inl ⟨completed_cancelled h.1 h.2, hr⟩
      · exact Or.inr ⟨h.cancelled, hr⟩
    | fulfilled =>
      rcases h with ⟨h, hr⟩ | h
      · exact Or.inl ⟨completed_cancelled h.1 h.2, hr⟩
      · exact Or.inr h.cancelled
  | retired =>
    rcases h with ⟨h, hr⟩ | h
    · exact Or.inl ⟨completed_cancelled h.1 h.2, hr⟩
    · exact Or.inr h.cancelled

theorem ContractAt.waiting {loc : Loc σ} (h : l.ContractAt loc) (hl : loc.stage = .waiting) :
    (l.tok.phase = .queued ∧ l.wins = 0) ∨ l.Stopped := by
  cases loc with
  | queued => exact h
  | popped => exact h
  | service v => cases v <;> cases hl
  | _ => cases hl

theorem ContractAt.done {loc : Loc σ} (h : l.ContractAt loc) (hl : loc.stage = .done) :
    ((l.tok.phase = .completed ∧ l.wins = 0) ∧ ∃ r, l.prom = [r] ∧ r.status ≠ .cancelled) ∨
      l.Stopped := by
  cases loc with
  | retired => exact h
  | service v =>
    cases v with
    | fulfilled => exact h
    | _ => cases hl
  | _ => cases hl

theorem Stopped.at (h : l.Stopped) {loc : Loc σ}
    (hl : loc.stage = .waiting ∨ loc.stage = .done) : l.ContractAt loc := by
  cases loc with
  | queued => exact Or.inr h
  | popped => exact Or.inr h
  | retired => exact Or.inr h
  | service v =>
    cases v with
    | fulfilled => exact Or.inr h
    | _ => rcases hl with hl | hl <;> cases hl
  | _ => rcases hl with hl | hl <;> cases hl

/-- a `set_value` is owed to a stopped item only -/
theorem stopped_of_owed (ho : l.Once) (h : l.Contract) (hpos : 0 < l.owed) :
    l.Stopped ∧ (l.loc.stage = .waiting ∨ l.loc.stage = .done) := by
  have hno : ¬ l.Unpaid := by
    intro hu
    rw [hu.2] at hpos
    exact absurd hpos (Nat.lt_irrefl 0)
  cases hst : l.loc.stage with
  | absent => exact absurd (ho.absent hst).1 hno
  | waiting =>
    rcases ho.waiting hst with hq | hc
    · exact absurd hq.2 hno
    · rcases h.waiting hst with h | h
      · rw [hc.1] at h
        cases h.1
      · exact ⟨h, Or.inl rfl⟩
  | held => exact absurd (ho.held hst).2 hno
  | done =>
    rcases h.done hst with ⟨_, r, hr, _⟩ | h
    · have hpaid : l.prom.length + l.owed = 1 := (ho.done hst).2
      rw [hr, List.length_singleton] at hpaid
      omega
    · exact ⟨h, Or.inr rfl⟩

/-- an honest body keeps the contract with every effect -/
theorem ContractAt.effect {t t' : Prog σ Exc RuntimeResult} {now : Int64} {st st' : σ} {tk : Token}
    {loc : Loc σ} (h : l.ContractAt (.service (.body t))) (hprom : l.prom = [])
    (ht : t.step Token.stopAtBoundary now st l.tok = some (t', st', tk)) :
    ContractAt { l with tok := tk, loc := loc } (.service (.body t')) := by
  rcases h with ⟨n, hp, h⟩ | ⟨hq, h⟩
  · rcases hp.step ht with ⟨rfl, hp'⟩ | ⟨m, rfl, rfl, hm⟩
    · exact Or.inl ⟨n, hp', h⟩
    · rcases h with ⟨hph, hc, hw⟩ | ⟨hph, _, hw⟩
      · -- no cancel so far: the body goes on, and the last poll disarms the token
        have hne : l.tok.phase ≠ .stopRequested := by
          rw [hph]
          exact Phase.noConfusion
        rw [Token.stopAtBoundary_other _ hne] at hm ⊢
        rcases hm with ⟨hb, _⟩ | ⟨_, hp'⟩
        · cases hb
        · refine Or.inl ⟨m, hp', Or.inl ⟨hph, ?_, hw⟩⟩
          show (l.tok.cancellable && !(m == 0)) = decide (0 < m)
          rw [hc]
          cases m <;> rfl
      · -- a cancel has won: the body stops at this poll
        rw [Token.stopAtBoundary_requested _ hph] at hm ⊢
        rcases hm with ⟨_, hq⟩ | ⟨hb, _⟩
        · refine Or.inr ⟨hq, rfl, hw, ?_⟩
          intro r hr
          rw [show r ∈ l.prom ↔ r ∈ [] by rw [hprom]] at hr
          cases hr
        · cases hb
  · obtain ⟨rfl, hq'⟩ := hq.step ht
    exact Or.inr ⟨hq', h⟩

/-- the row of a body that has ended -/
theorem ContractAt.ends {t : Prog σ Exc RuntimeResult} {r : Except Exc RuntimeResult}
    {actorId : String} (h : l.ContractAt (.service (.body t))) (hr : t.result = some r) :
    l.ContractAt (.service (.outcome (rowOf actorId r))) := by
  have hdone : notCancelledRow r → (rowOf actorId r).status ≠ .cancelled := by
    intro hd
    cases r with
    | ok row => exact hd
    | error e => exact Status.noConfusion
  have hcanc : cancelledRow r → (rowOf actorId r).status = .cancelled := by
    intro hd
    cases r with
    | ok row => exact hd
    | error e => exact False.elim hd
  rcases h with ⟨n, hp, h⟩ | ⟨hq, h⟩
  · obtain ⟨rfl, hd⟩ := hp.result hr
    rcases h with h | h
    · exact Or.inl ⟨h, hdone hd⟩
    · exact absurd h.2.1 (Nat.lt_irrefl 0)
  · exact Or.inr ⟨h, hcanc (hq.result hr)⟩

theorem ContractAt.markFinished {r : RuntimeResult} {loc : Loc σ}
    (h : l.ContractAt (.service (.outcome r))) :
    ContractAt { l with tok := Lane.finished r l.tok, loc := loc } (.service (.settled r)) := by
  rcases h with ⟨h, hr⟩ | ⟨h, hr⟩
  · refine Or.inl ⟨⟨?_, h.2.2⟩, hr⟩
    show (Lane.finished r l.tok).phase = .completed
    rw [Lane.finished, if_neg hr, Token.markFinished_running h.1]
  · refine Or.inr ⟨⟨?_, h.2⟩, hr⟩
    show (Lane.finished r l.tok).phase = .cancelled
    rw [Lane.finished, if_pos hr]
    exact h.1

theorem ContractAt.set {r : RuntimeResult} {loc loc' : Loc σ}
    (h : l.ContractAt (.service (.settled r))) (hprom : l.prom = []) (hl : loc'.stage = .done) :
    ContractAt { l with prom := l.prom ++ [r], loc := loc } loc' := by
  rw [hprom]
  rcases h with ⟨h, hr⟩ | ⟨h, hr⟩
  · have hdone : ((l.tok.phase = .completed ∧ l.wins = 0) ∧
        ∃ r', [r] = [r'] ∧ r'.status ≠ .cancelled) := ⟨h, r, rfl, hr⟩
    cases loc' with
    | retired => exact Or.inl hdone
    | service v =>
      cases v with
      | fulfilled => exact Or.inl hdone
      | _ => cases hl
    | _ => cases hl
  · have hs : Stopped { l with prom := [] ++ [r], loc := loc } := by
      refine ⟨h.1, h.2.1, ?_⟩
      intro r' hr'
      rw [List.mem_singleton.mp hr']
      exact hr
    exact hs.at (Or.inr hl)

/-- an item that is not admitted yet is unknown to every step but its admission -/
theorem Step.absent {actorId : String} (hs : Step actorId l l') (h : l'.loc = .absent) :
    l.loc = .absent ∧ l'.item = l.item := by
  cases hs with
  | cancel hl => exact ⟨h, rfl⟩
  | cancelFulfil now hpos => exact ⟨h, rfl⟩
  | _ => cases h

/-- **Every step of the life of an honest item keeps the contract.** -/
theorem Kept.step {actorId : String} (h : l.Kept) (hs : Step actorId l l') : l'.Kept := by
  obtain ⟨ho, hnone, hcon⟩ := h
  refine ⟨ho.step hs, ?_, ?_⟩
  · intro hl
    obtain ⟨hl', hi⟩ := hs.absent hl
    rw [hi]
    exact hnone hl'
  intro hon
  cases hs with
  | accept it hl =>
    have hc : l.Contract := by
      apply hcon
      intro it' hi
      rw [hnone hl] at hi
      cases hi
    exact Or.inl ⟨(ho.absent (by rw [hl]; rfl)).2, hc.at_loc hl⟩
  | cancel hl => exact (hcon hon).cancelled hl (fun hst hq => ho.unset hst hq)
  | cancelFulfil now hpos =>
    obtain ⟨hst, hl⟩ := stopped_of_owed ho (hcon hon) hpos
    have hs : Stopped { l with
        prom := l.prom ++ [Token.cancelRow actorId now], owed := l.owed - 1 } := by
      refine ⟨hst.1, hst.2.1, ?_⟩
      intro r hr
      rcases List.mem_append.mp hr with hr | hr
      · exact hst.2.2 r hr
      · rw [List.mem_singleton.mp hr]
        rfl
    exact hs.at hl
  | pop hl =>
    have hc := (hcon hon).at_loc hl
    exact hc
  | begins it hi hl hb =>
    have hc := (hcon hon).at_loc hl
    rcases hc with hq | hst
    · have hne : l.tok.phase ≠ .cancelled := by
        rw [hq.1]
        exact Phase.noConfusion
      rw [Token.beginService_queued _ hne]
      intro it' hi'
      rw [show l.item = some it' from hi'] at hi
      cases hi
      refine Or.inl ⟨rfl, ?_, hq.2⟩
      show decide (1 < it.checkpointCount) = decide (0 < (it.checkpointCount - 1).toNat)
      rw [decide_eq_decide]
      omega
    · rw [Token.beginService_cancelled _ hst.1] at hb
      cases hb
  | skips it hi hl hb =>
    have hc := (hcon hon).at_loc hl
    rcases hc with hq | hst
    · have hne : l.tok.phase ≠ .cancelled := by
        rw [hq.1]
        exact Phase.noConfusion
      rw [Token.beginService_queued _ hne] at hb
      cases hb
    · exact Or.inr hst
  | starts it hi hl =>
    have hc := (hcon hon).at_loc hl
    exact Or.inl ⟨_, hon it hi, hc it hi⟩
  | registers hl =>
    have hc := (hcon hon).at_loc hl
    exact hc
  | launch it hi hl =>
    have hc := (hcon hon).at_loc hl
    exact Or.inl ⟨_, hon it hi, hc it hi⟩
  | ends t r hl hr =>
    have hc := (hcon hon).at_loc hl
    exact hc.ends hr
  | effect t t' now st st' tk hl hr ht =>
    have hc := (hcon hon).at_loc hl
    exact hc.effect (ho.held (by rw [hl]; rfl)).2.1 ht
  | markFinished r hl =>
    have hc := (hcon hon).at_loc hl
    exact hc.markFinished
  | setHere r hl =>
    have hc := (hcon hon).at_loc hl
    exact hc.set (ho.held (by rw [hl]; rfl)).2.1 rfl
  | setThere r hl =>
    have hc := (hcon hon).at_loc hl
    exact hc.set (ho.held (by rw [hl]; rfl)).2.1 rfl
  | release hl =>
    have hc := (hcon hon).at_loc hl
    exact hc

/-- the two ends of an item whose promise is set -/
theorem Kept.settled (h : l.Kept) (hc : l.Contract) (hp : l.prom ≠ []) :
    ((l.tok.phase = .completed ∧ l.wins = 0) ∧ ∃ r, l.prom = [r] ∧ r.status ≠ .cancelled) ∨
      l.Stopped := by
  have ho := h.1
  cases hst : l.loc.stage with
  | absent => exact absurd (ho.absent hst).1.1 hp
  | waiting =>
    rcases ho.waiting hst with hq | hq
    · exact absurd hq.2.1 hp
    · rcases hc.waiting hst with h | h
      · rw [h.1] at hq
        cases hq.1
      · exact Or.inr h
  | held => exact absurd (ho.held hst).2.1 hp
  | done => exact hc.done hst

/-- at most one cancel wins -/
theorem ContractAt.wins_le {loc : Loc σ} (h : l.ContractAt loc)
    (hi : loc ≠ .absent → ∃ it, l.item = some it) : l.wins ≤ 1 := by
  have hstop : l.Stopped → l.wins ≤ 1 := fun h => Nat.le_of_eq h.2.1
  have hzero : l.wins = 0 → l.wins ≤ 1 := fun h => by omega
  have hrun : ∀ n, l.Running n ∨ l.Stopping n → l.wins ≤ 1 := by
    intro n h
    rcases h with h | h
    · exact hzero h.2.2
    · exact Nat.le_of_eq h.2.2
  cases loc with
  | absent => exact hzero h
  | queued => exact h.elim (fun h => hzero h.2) hstop
  | popped => exact h.elim (fun h => hzero h.2) hstop
  | began =>
    obtain ⟨it, hit⟩ := hi (by simp)
    exact hrun _ (h it hit)
  | registered =>
    obtain ⟨it, hit⟩ := hi (by simp)
    exact hrun _ (h it hit)
  | service v =>
    cases v with
    | body t => exact h.elim (fun ⟨n, _, h⟩ => hrun n h) (fun h => hstop h.2)
    | outcome r => exact h.elim (fun h => hzero h.1.2.2) (fun h => hstop h.1)
    | settled r => exact h.elim (fun h => hzero h.1.2) (fun h => hstop h.1)
    | fulfilled => exact h.elim (fun h => hzero h.1.2) hstop
  | retired => exact h.elim (fun h => hzero h.1.2) hstop

/-- a won cancel and a cancelled row are the same thing -/
theorem Kept.rows (h : l.Kept) (hc : l.Contract) :
    ∀ r ∈ l.prom, r.status = .cancelled ↔ true ∈ l.answers := by
  intro r hr
  have hwins : true ∈ l.answers ↔ 0 < l.wins := List.count_pos_iff.symm
  rcases h.settled hc (List.ne_nil_of_mem hr) with ⟨⟨_, hw⟩, r', hp, hr'⟩ | hs
  · rw [hp, List.mem_singleton] at hr
    rw [hwins, hw, hr]
    exact ⟨fun h => absurd h hr', fun h => absurd h (Nat.lt_irrefl 0)⟩
  · rw [hwins, hs.2.1]
    exact ⟨fun _ => Nat.zero_lt_one, fun _ => hs.2.2 r hr⟩

/-- once the promise is set, the token tells whether its row is cancelled and refuses -/
theorem Kept.after (h : l.Kept) (hc : l.Contract) (hp : l.prom ≠ []) :
    l.tok.cancel.2.returned = false ∧
      (l.tok.isCancelled = true ↔ ∃ r ∈ l.prom, r.status = .cancelled) := by
  rcases h.settled hc hp with ⟨⟨hph, _⟩, r, hr, hst⟩ | hs
  · have hcanc : l.tok.isCancelled = false := by rw [Token.isCancelled, hph]; rfl
    rw [Token.cancel_settled (Or.inl (by rw [Token.pastBoundary, hph]; rfl)), hcanc, hr]
    refine ⟨rfl, ?_⟩
    simp [hst]
  · have hcanc : l.tok.isCancelled = true := by rw [Token.isCancelled, hs.1]; rfl
    rw [Token.cancel_settled (Or.inr hcanc), hcanc]
    obtain ⟨r, hr⟩ := List.exists_mem_of_ne_nil _ hp
    exact ⟨rfl, fun _ => ⟨r, hr, hs.2.2 r hr⟩, fun _ => rfl⟩

end Life

/-! ## the items of the runtime -/

/-- the item of an operation or method call that has passed validation: what the engine hands to
the lane `actorId` -/
inductive Registered (actorId : String) : {σ : Type} → Item σ → Prop where
  | op {σ : Type} (opId : String) (args out : List PyObj) (e : OpEntry σ) (oa : OpArgs) (id : Nat)
      (hv : validateCall (.str opId) args opTable = .ok out) (he : findOp opId = some e)
      (hm : marshalArgs ("operation '" ++ opId ++ "'") out = .ok oa) :
    Registered actorId { task := makeOpTask e.fn oa actorId
                         checkpointCount := e.checkpointCount oa
                         policy := e.policy
                         id := id }
  | method (m : String) (args out : List PyObj) (e : OpEntry ActorState) (oa : OpArgs) (id : Nat)
      (hv : validateActorCall (.str "counter") (.str m) args = .ok out)
      (he : counterMethods.lookup m = some e)
      (hm : marshalArgs ("method '" ++ m ++ "'") out = .ok oa) :
    Registered actorId { task := makeMethodTask e.fn oa actorId
                         checkpointCount := e.checkpointCount oa
                         policy := e.policy
                         id := id }

/-- the task of a body polls as the body does -/
theorem pollsAs_task {c : Int} {body : Prog σ Exc OpOutcome} (h : PollsAs c body)
    (unknown actor : String) :
    (serviceTask unknown actor body).Polls notCancelledRow cancelledRow (c - 1).toNat := by
  refine serviceTask_polls h ?_ ?_ ?_ ?_
  · exact fun o _ _ ho => ho
  · intro e t₁ t₂ _
    show (failure unknown e).status ≠ .cancelled
    rw [failure_status]
    exact Status.noConfusion
  · exact fun o _ _ ho => ho
  · exact fun e _ _ he => False.elim he

/-- **The armed boundaries of every validated call are the polls of its body.** -/
theorem Registered.honest {actorId : String} {it : Item σ} (h : Registered actorId it) :
    Honest it := by
  cases h with
  | op opId args out e oa id hv he hm =>
    refine pollsAs_task (registered_polls he oa ?_) _ _
    intro hop ms hms
    subst hop
    exact validateCall_parkMs hv hm ms hms
  | method m args out e oa id hv he hm => exact pollsAs_task (method_polls he oa) _ _

namespace Lane
variable {s : Lane σ} {actorId : String} {mode : LaneMode} {maxInflight : Int} {st : σ}

theorem kept_reach (h : Reach Lane.step (create actorId mode maxInflight st) s) (i : Nat) :
    (view i s).Kept :=
  view_inv ⟨⟨⟨rfl, rfl⟩, rfl⟩, fun _ => rfl, fun _ => rfl⟩ (fun _ _ hl hs => hl.step hs) h i

/-- **The cancel contract**: an item of a validated call polls as its checkpoint count says, at
most one of its cancels wins, its row is cancelled exactly when one did, and once the row is set
every cancel is refused and `cancelled()` tells whether the row is cancelled. -/
theorem cancel_contract (h : Reach Lane.step (create actorId mode maxInflight st) s) {i : Nat}
    {it : Item σ} (hi : s.admitted[i]? = some it) (hreg : Registered actorId it) :
    it.task.Polls notCancelledRow cancelledRow (it.checkpointCount - 1).toNat ∧
    (s.answers i).count true ≤ 1 ∧
    (∀ r ∈ s.prom i, r.status = .cancelled ↔ true ∈ s.answers i) ∧
    (s.prom i ≠ [] → (s.tok i).cancel.2.returned = false ∧
      ((s.tok i).isCancelled = true ↔ ∃ r ∈ s.prom i, r.status = .cancelled)) := by
  have hk := kept_reach h i
  have hitem : (view i s).item = some it := hi
  have hc : (view i s).Contract := by
    apply hk.2.2
    intro it' hit'
    rw [hitem] at hit'
    cases hit'
    exact hreg.honest
  refine ⟨hreg.honest, hc.wins_le (fun _ => ⟨it, hitem⟩), hk.rows hc, hk.after hc⟩

end Lane

end

namespace Lane

/-- a lane for operations that do not block its consumer -/
def parkLane : Lane Unit := create "rt-hpx-0" .asyncNonBlocking 2 ()

def parkEntry : OpEntry Unit :=
  { arity := 1, fn := parkMs, checkpointCount := countOf parkMsCheckpoints 0, argTypes := [.int64] }

/-- `park_ms(20)`: two strides, one boundary between them -/
def parkItem : Item Unit :=
  { task := makeOpTask parkEntry.fn [.int64 20] "rt-hpx-0"
    checkpointCount := parkEntry.checkpointCount [.int64 20]
    policy := parkEntry.policy
    id := 0 }

/-- a cancel lands in the first stride, the poll after it stops the body, a second cancel comes
after the row -/
def parkRun : List (Act Unit) :=
  [.submit parkItem.task parkItem.checkpointCount parkItem.policy, .pop, .beginService, .dispatch,
    .launch, .serve 0 1, .cancel 0, .serve 0 2, .serve 0 2, .serve 0 3, .serve 0 4,
    .markFinished 0, .setValue 0, .cancel 0, .release 0]

theorem parkRun_returns : ∃ s, run Lane.step parkLane parkRun = some s ∧
    s.admitted[0]? = some parkItem ∧ s.answers 0 = [true, false] ∧ s.prom 0 ≠ [] :=
  ⟨_, rfl, rfl, rfl, List.cons_ne_nil _ _⟩

theorem parkItem_registered : Registered "rt-hpx-0" parkItem :=
  .op "park_ms" [.int 20] [.int 20] parkEntry [.int64 20] 0 rfl rfl rfl

/-- the contract on a run with an accepted and a refused cancel -/
theorem cancel_contract_park : ∃ s, Reach Lane.step parkLane s ∧ s.answers 0 = [true, false] ∧
    (∀ r ∈ s.prom 0, r.status = .cancelled) ∧ (s.tok 0).isCancelled = true := by
  obtain ⟨s, hrun, hi, ha, hp⟩ := parkRun_returns
  have h : Reach Lane.step parkLane s := ⟨parkRun, hrun⟩
  obtain ⟨_, _, hrows, hafter⟩ := cancel_contract h hi parkItem_registered
  have hrow : ∀ r ∈ s.prom 0, r.status = .cancelled := by
    intro r hr
    rw [hrows r hr, ha]
    exact List.mem_cons_self
  obtain ⟨r, hr⟩ := List.exists_mem_of_ne_nil _ hp
  exact ⟨s, h, ha, hrow, (hafter hp).2.mpr ⟨r, hr, hrow r hr⟩⟩

end Lane

end RayX
