import RayX.Harness.Life
import Mathlib.Data.List.Pairwise

/-!
# Chunks and promises of the harness lane

* `Life.At`            what token, body, promise and rows of an item have in common, place by place;
* `Life.Kept`          the invariant of an item whose armed boundaries are polls;
* `Order`              the lane produces its rows in the order of admission;
* `chunk_accounting`   **every promise is set once, by the lane in the order of admission or by a
                       queued cancel, and the chunks of its row tell which**.
-/

namespace RayX
open Sys

namespace Harness

section
variable {D : Type} [Millis D]

/-- every boundary that arms the token of the item is a poll of its service -/
def Item.Tame (it : Item D) : Prop := it.cancelable = true → it.req.Supported ∨ it.req.chunks ≤ 1

/-- the polls of the service of an item -/
def Item.boundaries (it : Item D) : Nat := (it.req.steps - 1).toNat

namespace Life

/-- the number of `cancel()` calls that returned `true` -/
def wins (l : Life D) : Nat := l.answers.count true

/-- the promise is unset and nobody but the lane will set it -/
def Unset (l : Life D) : Prop := l.prom = [] ∧ l.owed = 0 ∧ l.produced = []

/-- no cancel has won and the service has not begun -/
def Fresh (l : Life D) : Prop := l.tok.phase = .queued ∧ l.wins = 0 ∧ l.Unset

/-- a queued cancel has won -/
def Skipped (l : Life D) : Prop :=
  l.tok.phase = .cancelled ∧ l.wins = 1 ∧ l.prom.length + l.owed = 1 ∧ l.produced = [] ∧
    ∀ r ∈ l.prom, r.status = .cancelled ∧ r.chunksCompleted = 0

/-- no cancel has won, and `n` polls are still to come -/
def Running (l : Life D) (n : Nat) : Prop :=
  l.tok.phase = .running ∧ l.tok.cancellable = decide (0 < n) ∧ l.wins = 0

/-- a running cancel has won, and a poll is still to come -/
def Stopping (l : Life D) (n : Nat) : Prop :=
  l.tok.phase = .stopRequested ∧ 0 < n ∧ l.wins = 1

/-- a running cancel has won, and the service has honored it -/
def Stopped (l : Life D) : Prop := l.tok.phase = .cancelled ∧ l.wins = 1

/-- the end of a service: not stopped, with a token past its last boundary, or stopped -/
def Ended (l : Life D) (it : Item D) (r : Result) : Prop :=
  (it.req.NormalRow r ∧ l.wins = 0 ∧ (it.cancelable = true → l.tok.pastBoundary = true)) ∨
    (it.cancelable = true ∧ it.req.StoppedRow r ∧ l.Stopped)

/-- a service before its end -/
def Serving (l : Life D) (it : Item D) (p : Prog Unit String (Option Int)) : Prop :=
  (it.cancelable = false ∧ p.Quiet it.req.Normal ∧ l.wins = 0) ∨
    (it.cancelable = true ∧ ∃ n, p.Polls it.req.Normal (stoppedWithin it.req.steps) n ∧
      (l.Running n ∨ l.Stopping n)) ∨
    (it.cancelable = true ∧ p.Quiet (stoppedWithin it.req.steps) ∧ l.Stopped)

/-- what holds at each place -/
def At (l : Life D) (it : Item D) : Loc D → Prop
  | .absent => False
  | .queued => l.Fresh ∨ (it.cancelable = true ∧ l.Skipped)
  | .popped => l.Fresh ∨ (it.cancelable = true ∧ l.Skipped)
  | .began => l.Unset ∧ ((it.cancelable = false ∧ l.wins = 0) ∨
      (it.cancelable = true ∧ (l.Running it.boundaries ∨ l.Stopping it.boundaries)))
  | .serving r p => l.Unset ∧ r.status = .completed ∧ l.Serving it p
  | .ending r => l.Unset ∧ l.Ended it r
  | .computed r => l.Unset ∧ l.Ended it r
  | .retired => (∃ r, l.prom = [r] ∧ l.owed = 0 ∧ l.produced = [r] ∧ l.Ended it r) ∨
      (it.cancelable = true ∧ l.Skipped)

/-- the invariant of an item -/
def Kept (l : Life D) : Prop :=
  (l.item = none → l.Fresh) ∧ ∀ it, l.item = some it → it.Tame → l.At it l.loc

variable {l l' : Life D} {it : Item D}

/-! ## a call of `cancel()` -/

theorem cancelled_wins (l : Life D) :
    l.cancelled.wins = l.wins + if l.tok.cancel.2.returned then 1 else 0 := by
  show (l.answers ++ [l.tok.cancel.2.returned]).count true = _
  rw [List.count_append, List.count_singleton]
  cases l.tok.cancel.2.returned <;> rfl

/-- a refused cancel changes neither the token, nor the wins, nor what is owed -/
theorem cancelled_refused (h : l.tok.cancel = (l.tok, .refused)) :
    l.cancelled.tok = l.tok ∧ l.cancelled.wins = l.wins ∧ l.cancelled.owed = l.owed := by
  refine ⟨congrArg Prod.fst h, ?_, ?_⟩
  · rw [cancelled_wins, h]
    rfl
  · show l.owed + owes l.tok.cancel.2 = l.owed
    rw [h]
    rfl

theorem refused_of_cancelled (h : l.tok.phase = .cancelled) : l.tok.cancel = (l.tok, .refused) :=
  Token.cancel_settled (Or.inr (by rw [Token.isCancelled, h]; rfl))

theorem Fresh.cancelled (h : l.Fresh) : l.cancelled.Skipped := by
  obtain ⟨hp, hw, hprom, ho, hpr⟩ := h
  have he := Token.cancel_queued hp
  refine ⟨?_, ?_, ?_, hpr, ?_⟩
  · exact congrArg (fun x : Token × Answer => x.1.phase) he
  · rw [cancelled_wins, he, hw]
    rfl
  · show l.prom.length + (l.owed + owes l.tok.cancel.2) = 1
    rw [he, hprom, ho]
    rfl
  · intro r hr
    rw [show l.cancelled.prom = [] from hprom] at hr
    cases hr

theorem Skipped.cancelled (h : l.Skipped) : l.cancelled.Skipped := by
  obtain ⟨ht, hw, ho⟩ := cancelled_refused (refused_of_cancelled h.1)
  refine ⟨?_, ?_, ?_, h.2.2.2⟩
  · rw [ht]
    exact h.1
  · rw [hw]
    exact h.2.1
  · rw [ho]
    exact h.2.2.1

/-- a cancel of an item in service owes nothing -/
theorem Unset.cancelled (h : l.Unset) (hq : l.tok.phase ≠ .queued) : l.cancelled.Unset := by
  refine ⟨h.1, ?_, h.2.2⟩
  show l.owed + owes l.tok.cancel.2 = 0
  rw [owes, if_neg (Token.cancel_phase hq).2, h.2.1]

theorem Running.cancelled {n : Nat} (h : l.Running n) :
    l.cancelled.Running n ∨ l.cancelled.Stopping n := by
  obtain ⟨hp, hc, hw⟩ := h
  by_cases hn : 0 < n
  · rw [decide_eq_true hn] at hc
    have he := Token.cancel_running hp hc
    refine Or.inr ⟨?_, hn, ?_⟩
    · exact congrArg (fun x : Token × Answer => x.1.phase) he
    · rw [cancelled_wins, he, hw]
      rfl
  · rw [decide_eq_false hn] at hc
    have hq : l.tok.phase ≠ .queued := by
      rw [hp]
      exact Phase.noConfusion
    obtain ⟨ht, hw', _⟩ := cancelled_refused (Token.cancel_refused hq (fun _ => hc))
    refine Or.inl ⟨?_, ?_, ?_⟩
    · rw [ht]
      exact hp
    · rw [ht, hc, decide_eq_false hn]
    · rw [hw']
      exact hw

theorem Stopping.cancelled {n : Nat} (h : l.Stopping n) : l.cancelled.Stopping n := by
  have hr := Token.cancel_settled (t := l.tok) (Or.inr (by rw [Token.isCancelled, h.1]; rfl))
  obtain ⟨ht, hw, _⟩ := cancelled_refused hr
  refine ⟨?_, h.2.1, ?_⟩
  · rw [ht]
    exact h.1
  · rw [hw]
    exact h.2.2

theorem Stopped.cancelled (h : l.Stopped) : l.cancelled.Stopped := by
  obtain ⟨ht, hw, _⟩ := cancelled_refused (refused_of_cancelled h.1)
  refine ⟨?_, ?_⟩
  · rw [ht]
    exact h.1
  · rw [hw]
    exact h.2

theorem Ended.cancelled {r : Result} (h : l.Ended it r) (hc : it.cancelable = true) :
    l.cancelled.Ended it r := by
  rcases h with ⟨hr, hw, hp⟩ | ⟨_, hr, hs⟩
  · obtain ⟨ht, hw', _⟩ := cancelled_refused (Token.cancel_settled (Or.inl (hp hc)))
    refine Or.inl ⟨hr, ?_, fun hc => ?_⟩
    · rw [hw']
      exact hw
    · rw [ht]
      exact hp hc
  · exact Or.inr ⟨hc, hr, hs.cancelled⟩

theorem Ended.not_queued {r : Result} (h : l.Ended it r) (hc : it.cancelable = true) :
    l.tok.phase ≠ .queued := by
  rcases h with ⟨_, _, hp⟩ | ⟨_, _, hs⟩
  · intro hq
    have := hp hc
    rw [Token.pastBoundary, hq] at this
    cases this
  · rw [hs.1]
    exact Phase.noConfusion

/-- what holds of an item with a token still holds after a cancel -/
theorem At.cancelled {loc : Loc D} (h : l.At it loc) (hc : it.cancelable = true) :
    l.cancelled.At it loc := by
  have hno : it.cancelable ≠ false := by
    rw [hc]
    exact Bool.noConfusion
  have hlive : ∀ n, l.Running n ∨ l.Stopping n → l.tok.phase ≠ .queued := by
    intro n h
    rcases h with h | h
    · rw [h.1]
      exact Phase.noConfusion
    · rw [h.1]
      exact Phase.noConfusion
  have hnext : ∀ n, l.Running n ∨ l.Stopping n → l.cancelled.Running n ∨ l.cancelled.Stopping n := by
    intro n h
    rcases h with h | h
    · exact h.cancelled
    · exact Or.inr h.cancelled
  cases loc with
  | absent => exact False.elim h
  | queued =>
    rcases h with h | h
    · exact Or.inr ⟨hc, h.cancelled⟩
    · exact Or.inr ⟨hc, h.2.cancelled⟩
  | popped =>
    rcases h with h | h
    · exact Or.inr ⟨hc, h.cancelled⟩
    · exact Or.inr ⟨hc, h.2.cancelled⟩
  | began =>
    obtain ⟨hu, ⟨hf, _⟩ | ⟨_, h⟩⟩ := h
    · exact absurd hf hno
    · exact ⟨hu.cancelled (hlive _ h), Or.inr ⟨hc, hnext _ h⟩⟩
  | serving r p =>
    obtain ⟨hu, hr, ⟨hf, _⟩ | ⟨_, n, hp, h⟩ | ⟨_, hp, h⟩⟩ := h
    · exact absurd hf hno
    · exact ⟨hu.cancelled (hlive n h), hr, Or.inr (Or.inl ⟨hc, n, hp, hnext n h⟩)⟩
    · refine ⟨hu.cancelled ?_, hr, Or.inr (Or.inr ⟨hc, hp, h.cancelled⟩)⟩
      rw [h.1]
      exact Phase.noConfusion
  | ending r => exact ⟨h.1.cancelled (h.2.not_queued hc), h.2.cancelled hc⟩
  | computed r => exact ⟨h.1.cancelled (h.2.not_queued hc), h.2.cancelled hc⟩
  | retired =>
    rcases h with ⟨r, hp, ho, hpr, he⟩ | h
    · refine Or.inl ⟨r, hp, ?_, hpr, he.cancelled hc⟩
      show l.owed + owes l.tok.cancel.2 = 0
      rw [owes, if_neg (Token.cancel_phase (he.not_queued hc)).2, ho]
    · exact Or.inr ⟨hc, h.2.cancelled⟩

/-! ## the steps of the service -/

/-- a `set_value` is owed to a skipped item only -/
theorem At.owed {loc : Loc D} (h : l.At it loc) (ho : 0 < l.owed) :
    (it.cancelable = true ∧ l.Skipped) ∧ ∀ l' : Life D, l'.Skipped → l'.At it loc := by
  have hno : ¬ l.Unset := fun hu => by
    rw [hu.2.1] at ho
    exact Nat.lt_irrefl 0 ho
  cases loc with
  | absent => exact False.elim h
  | queued =>
    rcases h with h | h
    · exact absurd h.2.2 hno
    · exact ⟨h, fun l' hs => Or.inr ⟨h.1, hs⟩⟩
  | popped =>
    rcases h with h | h
    · exact absurd h.2.2 hno
    · exact ⟨h, fun l' hs => Or.inr ⟨h.1, hs⟩⟩
  | began => exact absurd h.1 hno
  | serving r p => exact absurd h.1 hno
  | ending r => exact absurd h.1 hno
  | computed r => exact absurd h.1 hno
  | retired =>
    rcases h with ⟨r, _, hz, _⟩ | h
    · omega
    · exact ⟨h, fun l' hs => Or.inr ⟨h.1, hs⟩⟩

theorem Skipped.fulfilled (h : l.Skipped) (ho : 0 < l.owed) (actorId : String) (ns now : Int64) :
    Skipped { l with prom := l.prom ++ [CancelToken.row actorId ns now], owed := l.owed - 1 } := by
  obtain ⟨hp, hw, hlen, hpr, hrows⟩ := h
  refine ⟨hp, hw, ?_, hpr, ?_⟩
  · show (l.prom ++ [CancelToken.row actorId ns now]).length + (l.owed - 1) = 1
    rw [List.length_append, List.length_singleton]
    omega
  · intro r hr
    rcases List.mem_append.mp hr with hr | hr
    · exact hrows r hr
    · rw [List.mem_singleton.mp hr]
      exact ⟨rfl, rfl⟩

/-- `begin_service` of a token that no cancel has touched -/
theorem Fresh.begins {loc : Loc D} (h : l.Fresh) (hc : it.cancelable = true) :
    At { l with tok := (l.tok.beginService it.req.chunks).1, loc := loc } it .began := by
  have hne : l.tok.phase ≠ .cancelled := by
    rw [h.1]
    exact Phase.noConfusion
  rw [Token.beginService_queued _ hne]
  refine ⟨h.2.2, Or.inr ⟨hc, Or.inl ⟨rfl, ?_, h.2.1⟩⟩⟩
  show decide (1 < it.req.chunks) = decide (0 < it.boundaries)
  rw [decide_eq_decide]
  exact it.req.armed_iff

theorem At.start {loc : Loc D} (h : l.At it .began) (ht : it.Tame) (actorId : String) (now : Int64) :
    At { l with loc := loc } it
      (.serving (startRow it.req actorId now) (serviceBody it.req it.cancelable)) := by
  obtain ⟨hu, ⟨hc, hw⟩ | ⟨hc, hl⟩⟩ := h
  · refine ⟨hu, rfl, Or.inl ⟨hc, ?_, hw⟩⟩
    rw [hc]
    exact serviceBody_bare it.req
  · refine ⟨hu, rfl, Or.inr (Or.inl ⟨hc, it.boundaries, ?_, hl⟩)⟩
    rw [hc]
    exact serviceBody_armed (ht hc)

/-- an effect of the service -/
theorem At.effect {loc : Loc D} {r : Result} {p p' : Prog Unit String (Option Int)} {now : Int64}
    {tk : CancelToken} (h : l.At it (.serving r p))
    (hp : p.step Token.stopAtBoundary now () l.tok = some (p', (), tk)) :
    At { l with tok := tk, loc := loc } it (.serving r p') := by
  obtain ⟨hu, hr, ⟨hc, hq, hw⟩ | ⟨hc, n, hpoll, hl⟩ | ⟨hc, hq, hs⟩⟩ := h
  · obtain ⟨rfl, hq'⟩ := hq.step hp
    exact ⟨hu, hr, Or.inl ⟨hc, hq', hw⟩⟩
  · refine ⟨hu, hr, Or.inr ?_⟩
    rcases hpoll.step hp with ⟨rfl, hp'⟩ | ⟨m, rfl, rfl, hm⟩
    · exact Or.inl ⟨hc, n, hp', hl⟩
    · rcases hl with ⟨hph, hca, hw⟩ | ⟨hph, _, hw⟩
      · -- no cancel so far: the service goes on, and the last poll disarms the token
        have hne : l.tok.phase ≠ .stopRequested := by
          rw [hph]
          exact Phase.noConfusion
        rw [Token.stopAtBoundary_other _ hne] at hm ⊢
        rcases hm with ⟨hb, _⟩ | ⟨_, hp'⟩
        · cases hb
        · refine Or.inl ⟨hc, m, hp', Or.inl ⟨hph, ?_, hw⟩⟩
          show (l.tok.cancellable && !(m == 0)) = decide (0 < m)
          rw [hca]
          cases m <;> rfl
      · -- a cancel has won: the service stops at this poll
        rw [Token.stopAtBoundary_requested _ hph] at hm ⊢
        rcases hm with ⟨_, hq⟩ | ⟨hb, _⟩
        · exact Or.inr ⟨hc, hq, rfl, hw⟩
        · cases hb
  · obtain ⟨rfl, hq'⟩ := hq.step hp
    exact ⟨hu, hr, Or.inr (Or.inr ⟨hc, hq', hs⟩)⟩

/-- a running token without a boundary ahead is past its last one, and stays so -/
theorem Running.settled (h : l.Running 0) (out : Except String (Option Int)) :
    (markCompleted l.tok out).pastBoundary = true := by
  obtain ⟨hp, hc, _⟩ := h
  have hrun : l.tok.pastBoundary = true := by
    rw [Token.pastBoundary, hp, hc]
    rfl
  unfold markCompleted
  split
  · rw [Token.markFinished_running hp]
    rfl
  · exact hrun

/-- the end of the service -/
theorem At.ends {loc : Loc D} {r : Result} {p : Prog Unit String (Option Int)}
    {out : Except String (Option Int)} (h : l.At it (.serving r p)) (hr : p.result = some out) :
    At { l with tok := ServiceLane.settle it out l.tok, loc := loc } it
      (.ending (outcomeRow it.req r out)) := by
  obtain ⟨hu, hrow, ⟨hc, hq, hw⟩ | ⟨hc, n, hpoll, hl⟩ | ⟨hc, hq, hs⟩⟩ := h
  · refine ⟨hu, Or.inl ⟨(hq.result hr).row hrow, hw, fun ht => ?_⟩⟩
    rw [hc] at ht
    cases ht
  · obtain ⟨rfl, hn⟩ := hpoll.result hr
    rcases hl with hrun | hstop
    · refine ⟨hu, Or.inl ⟨hn.row hrow, hrun.2.2, fun _ => ?_⟩⟩
      show (ServiceLane.settle it out l.tok).pastBoundary = true
      rw [ServiceLane.settle, if_pos hc]
      exact hrun.settled out
    · exact absurd hstop.2.1 (Nat.lt_irrefl 0)
  · -- a stopped service leaves the token to the boundary that stopped it
    have hst := hq.result hr
    obtain ⟨c, hout, _⟩ := id hst
    have htok : ServiceLane.settle it out l.tok = l.tok := by
      rw [ServiceLane.settle, if_pos hc, hout]
      rfl
    refine ⟨hu, Or.inr ⟨hc, Request.stoppedWithin_row hst, ?_⟩⟩
    show (ServiceLane.settle it out l.tok).phase = .cancelled ∧ l.wins = 1
    rw [htok]
    exact hs

theorem At.finish {loc : Loc D} {r : Result} (h : l.At it (.ending r)) (now : Int64) :
    At { l with loc := loc } it (.computed (ServiceLane.finishRow it r now)) := h

theorem At.set {loc : Loc D} {r : Result} (h : l.At it (.computed r)) :
    At { l with prom := l.prom ++ [r], loc := loc, produced := l.produced ++ [r] } it .retired := by
  obtain ⟨⟨hp, ho, hpr⟩, he⟩ := h
  refine Or.inl ⟨r, ?_, ho, ?_, he⟩
  · show l.prom ++ [r] = [r]
    rw [hp]
    rfl
  · show l.produced ++ [r] = [r]
    rw [hpr]
    rfl

theorem kept_of (hi : l.item = some it) (h : it.Tame → l.At it l.loc) : l.Kept := by
  refine ⟨fun hn => ?_, fun it' hi' ht => ?_⟩
  · rw [hn] at hi
    cases hi
  · have hsame : it = it' := Option.some.inj (hi.symm.trans hi')
    subst hsame
    exact h ht

/-- **Every step of the life of an item keeps its invariant.** -/
theorem Kept.step {actorId : String} (h : l.Kept) (hs : Step actorId l l') : l'.Kept := by
  obtain ⟨hnone, hat⟩ := h
  cases hs with
  | submit it hi => exact kept_of rfl (fun _ => Or.inl (hnone hi))
  | cancel it hi hc => exact kept_of hi (fun ht => (hat it hi ht).cancelled hc)
  | cancelFulfil it now hi ho =>
    refine kept_of hi (fun ht => ?_)
    obtain ⟨⟨_, hs⟩, hput⟩ := (hat it hi ht).owed ho
    exact hput _ (hs.fulfilled ho _ _ _)
  | pop it hi hl =>
    refine kept_of hi (fun ht => ?_)
    have h := hat it hi ht
    rw [hl] at h
    exact h
  | begins it hi hl hc hb =>
    refine kept_of hi (fun ht => ?_)
    have h := hat it hi ht
    rw [hl] at h
    rcases h with h | ⟨_, h⟩
    · exact h.begins hc
    · rw [Token.beginService_cancelled _ h.1] at hb
      cases hb
  | skips it hi hl hc hb =>
    refine kept_of hi (fun ht => ?_)
    have h := hat it hi ht
    rw [hl] at h
    rcases h with h | h
    · have hne : l.tok.phase ≠ .cancelled := by
        rw [h.1]
        exact Phase.noConfusion
      rw [Token.beginService_queued _ hne] at hb
      cases hb
    · exact Or.inr h
  | beginsBare it hi hl hc =>
    refine kept_of hi (fun ht => ?_)
    have h := hat it hi ht
    rw [hl] at h
    rcases h with h | ⟨h, _⟩
    · exact ⟨h.2.2, Or.inl ⟨hc, h.2.1⟩⟩
    · rw [hc] at h
      cases h
  | start it now hi hl =>
    refine kept_of hi (fun ht => ?_)
    have h := hat it hi ht
    rw [hl] at h
    exact h.start ht actorId now
  | ends it r p out hi hl hr =>
    refine kept_of hi (fun ht => ?_)
    have h := hat it hi ht
    rw [hl] at h
    exact h.ends hr
  | effect it r p p' now tk hi hl hp =>
    refine kept_of hi (fun ht => ?_)
    have h := hat it hi ht
    rw [hl] at h
    exact h.effect hp
  | finish it r now hi hl =>
    refine kept_of hi (fun ht => ?_)
    have h := hat it hi ht
    rw [hl] at h
    exact h.finish now
  | setValue it r hi hl =>
    refine kept_of hi (fun ht => ?_)
    have h := hat it hi ht
    rw [hl] at h
    exact h.set

theorem kept_init : Kept ({} : Life D) :=
  ⟨fun _ => ⟨rfl, rfl, rfl, rfl, rfl⟩, fun _ h => nomatch h⟩

/-! ## what an item has in the end -/

/-- the promise of an item is set at most once, and the lane or one `cancel()` call owes it -/
theorem At.once {loc : Loc D} (h : l.At it loc) :
    l.prom.length + l.owed ≤ 1 ∧ (loc = .retired → l.prom.length + l.owed = 1) := by
  have hu : l.Unset → l.prom.length + l.owed ≤ 1 := by
    intro hu
    rw [hu.1, hu.2.1]
    exact Nat.zero_le 1
  cases loc with
  | absent => exact False.elim h
  | queued =>
    refine ⟨?_, fun h => nomatch h⟩
    rcases h with h | h
    · exact hu h.2.2
    · exact Nat.le_of_eq h.2.2.2.1
  | popped =>
    refine ⟨?_, fun h => nomatch h⟩
    rcases h with h | h
    · exact hu h.2.2
    · exact Nat.le_of_eq h.2.2.2.1
  | began => exact ⟨hu h.1, fun h => nomatch h⟩
  | serving r p => exact ⟨hu h.1, fun h => nomatch h⟩
  | ending r => exact ⟨hu h.1, fun h => nomatch h⟩
  | computed r => exact ⟨hu h.1, fun h => nomatch h⟩
  | retired =>
    have heq : l.prom.length + l.owed = 1 := by
      rcases h with ⟨r, hp, ho, _⟩ | h
      · rw [hp, ho]
        rfl
      · exact h.2.2.2.1
    exact ⟨Nat.le_of_eq heq, fun _ => heq⟩

/-- a set promise: the row of the lane, or the row of a queued cancel -/
theorem At.settled {loc : Loc D} (h : l.At it loc) {r : Result} (hr : r ∈ l.prom) :
    (l.prom = [r] ∧ l.produced = [r] ∧ l.Ended it r) ∨ (it.cancelable = true ∧ l.Skipped) := by
  have hno : ¬ l.Unset := fun hu => by
    rw [hu.1] at hr
    cases hr
  cases loc with
  | absent => exact False.elim h
  | queued => exact h.elim (fun h => absurd h.2.2 hno) Or.inr
  | popped => exact h.elim (fun h => absurd h.2.2 hno) Or.inr
  | began => exact absurd h.1 hno
  | serving r p => exact absurd h.1 hno
  | ending r => exact absurd h.1 hno
  | computed r => exact absurd h.1 hno
  | retired =>
    rcases h with ⟨r', hp, _, hpr, he⟩ | h
    · rw [hp] at hr
      rw [List.mem_singleton.mp hr]
      exact Or.inl ⟨hp, hpr, he⟩
    · exact Or.inr h

end Life

/-! ## the order of the rows -/

namespace ServiceLane

/-- the rows of the lane are in the order of admission, the item in service comes after them -/
structure Order (s : ServiceLane D) : Prop where
  sorted : (s.produced.map (fun x => x.1)).Pairwise (· < ·)
  popped : ∀ x ∈ s.produced, x.1 < s.popped
  held : ∀ it : Item D, s.consumer.item? = some it → ∀ x ∈ s.produced, x.1 < it.id

/-- after the end of `run()` nothing is queued, and the destructor returns after it -/
structure Closed (s : ServiceLane D) : Prop where
  exited : s.consumer = .exited → s.queue = [] ∧ s.stop = true
  joined : s.dtor = .returned → s.consumer = .exited

variable {s s' : ServiceLane D}

theorem pushAll_fields (reqs : List (Request D × Int64)) :
    (s.pushAll reqs).produced = s.produced ∧ (s.pushAll reqs).popped = s.popped ∧
      (s.pushAll reqs).consumer = s.consumer ∧ (s.pushAll reqs).dtor = s.dtor := by
  induction reqs generalizing s with
  | nil => exact ⟨rfl, rfl, rfl, rfl⟩
  | cons q reqs ih => exact ih (s := s.push q.1 false q.2)

theorem Order.keep (h : s.Order) (hpr : s'.produced = s.produced) (hp : s'.popped = s.popped)
    (hc : ∀ it, s'.consumer.item? = some it → s.consumer.item? = some it) : s'.Order where
  sorted := by
    rw [hpr]
    exact h.sorted
  popped := by
    rw [hpr, hp]
    exact h.popped
  held := by
    intro it hit
    rw [hpr]
    exact h.held it (hc it hit)

theorem Order.step (h : s.Order) (hf : s.Fifo) {a : Act D} (hs : Step s a s') : s'.Order := by
  cases hs with
  | submit hs => exact h.keep rfl rfl (fun _ hit => hit)
  | accept hs hd => exact h.keep rfl rfl (fun _ hit => hit)
  | reject hs hd => exact h
  | @submitBulk reqs hs =>
    obtain ⟨hpr, hp, hc, _⟩ := pushAll_fields (s := s) reqs
    refine h.keep hpr hp (fun it hit => ?_)
    rw [← hc]
    exact hit
  | cancel hi hc => exact h.keep rfl rfl (fun _ hit => hit)
  | cancelFulfil hi hm => exact h.keep rfl rfl (fun _ hit => hit)
  | @pop it queue hc hq =>
    obtain ⟨hid, _⟩ := hf.head hq
    refine ⟨h.sorted, fun x hx => Nat.lt_succ_of_lt (h.popped x hx), ?_⟩
    intro it' hit x hx
    cases hit
    rw [hid]
    exact h.popped x hx
  | exit hc hq hs => exact h.keep rfl rfl (fun _ hit => nomatch hit)
  | skips hc ht hb => exact h.keep rfl rfl (fun _ hit => nomatch hit)
  | @setValue it r hc =>
    have hit : s.consumer.item? = some it := by rw [hc]; rfl
    have hlast := h.held it hit
    refine ⟨?_, ?_, fun _ hit => nomatch hit⟩
    · show ((s.produced ++ [(it.id, r)]).map (fun x => x.1)).Pairwise (· < ·)
      rw [List.map_append, List.pairwise_append]
      refine ⟨h.sorted, List.pairwise_singleton _ _, ?_⟩
      intro a ha b hb
      obtain ⟨x, hx, rfl⟩ := List.mem_map.mp ha
      rw [List.mem_singleton.mp hb]
      exact hlast x hx
    · intro x hx
      rcases List.mem_append.mp hx with hx | hx
      · exact h.popped x hx
      · rw [List.mem_singleton.mp hx]
        have := (hf.held it hit).1
        show it.id < s.popped
        omega
  | clearActive hc => exact h.keep rfl rfl (fun _ hit => nomatch hit)
  | dtorBegin hd => exact h.keep rfl rfl (fun _ hit => hit)
  | join hd hc => exact h.keep rfl rfl (fun _ hit => hit)
  | begins hc ht hb => exact h.keep rfl rfl (fun _ hit => by rw [hc]; exact hit)
  | beginsBare hc ht => exact h.keep rfl rfl (fun _ hit => by rw [hc]; exact hit)
  | start hc => exact h.keep rfl rfl (fun _ hit => by rw [hc]; exact hit)
  | ends hc hr => exact h.keep rfl rfl (fun _ hit => by rw [hc]; exact hit)
  | effect hc hr hp => exact h.keep rfl rfl (fun _ hit => by rw [hc]; exact hit)
  | finish hc => exact h.keep rfl rfl (fun _ hit => by rw [hc]; exact hit)

/-- a lane that accepts requests, or whose consumer works -/
theorem Closed.live (h : s.Closed) (hc : s.consumer ≠ .exited) (hd : s'.dtor = s.dtor)
    (hc' : s'.consumer ≠ .exited) : s'.Closed where
  exited := fun he => absurd he hc'
  joined := by
    intro hr
    rw [hd] at hr
    exact absurd (h.joined hr) hc

/-- a lane that keeps its queue, its consumer and its destructor -/
theorem Closed.keep (h : s.Closed) (hq : s'.queue = s.queue) (hst : s'.stop = s.stop)
    (hc : s'.consumer = s.consumer) (hd : s'.dtor = s.dtor) : s'.Closed where
  exited := by
    rw [hq, hst, hc]
    exact h.exited
  joined := by
    rw [hc, hd]
    exact h.joined

theorem Closed.running (h : s.Closed) (hs : s.stop = false) : s.consumer ≠ .exited := by
  intro he
  have := (h.exited he).2
  rw [hs] at this
  cases this

theorem Closed.step (h : s.Closed) {a : Act D} (hs : Step s a s') : s'.Closed := by
  have hne : ∀ c : Consumer D, s.consumer = c → c ≠ .exited → s.consumer ≠ .exited := by
    intro c hc hn
    rw [hc]
    exact hn
  cases hs with
  | submit hs => exact h.live (h.running hs) rfl (h.running hs)
  | accept hs hd => exact h.live (h.running hs) rfl (h.running hs)
  | reject hs hd => exact h
  | @submitBulk reqs hs =>
    obtain ⟨_, _, hc, hd⟩ := pushAll_fields (s := s) reqs
    refine h.live (h.running hs) hd ?_
    rw [hc]
    exact h.running hs
  | cancel hi hc => exact h.keep rfl rfl rfl rfl
  | cancelFulfil hi hm => exact h.keep rfl rfl rfl rfl
  | exit hc hq hs =>
    refine ⟨fun _ => ⟨hq, hs⟩, fun _ => rfl⟩
  | dtorBegin hd =>
    refine ⟨fun he => ⟨(h.exited he).1, rfl⟩, fun hr => nomatch hr⟩
  | join hd hc => exact ⟨h.exited, fun _ => hc⟩
  | pop hc hq => exact h.live (hne _ hc (by simp)) rfl (by simp)
  | begins hc ht hb => exact h.live (hne _ hc (by simp)) rfl (by simp)
  | skips hc ht hb => exact h.live (hne _ hc (by simp)) rfl (by simp)
  | beginsBare hc ht => exact h.live (hne _ hc (by simp)) rfl (by simp)
  | start hc => exact h.live (hne _ hc (by simp)) rfl (by simp)
  | ends hc hr => exact h.live (hne _ hc (by simp)) rfl (by simp)
  | effect hc hr hp => exact h.live (hne _ hc (by simp)) rfl (by simp)
  | finish hc => exact h.live (hne _ hc (by simp)) rfl (by simp)
  | setValue hc => exact h.live (hne _ hc (by simp)) rfl (by simp)
  | clearActive hc => exact h.live (hne _ hc (by simp)) rfl (by simp)

section
variable {impl : LaneImpl} {hex : String} {diag : Bool}

theorem order_reach (h : Reach ServiceLane.step (create impl hex diag) s) : s.Order := by
  have h0 : (create impl hex diag : ServiceLane D).Fifo ∧
      (create impl hex diag : ServiceLane D).Order :=
    ⟨fifo_create impl hex diag, .nil, fun _ h => (nomatch h), fun _ h => (nomatch h)⟩
  exact (h.inv (P := fun s => s.Fifo ∧ s.Order)
    (fun _ _ _ h hs => ⟨h.1.step (step_sound hs), h.2.step h.1 (step_sound hs)⟩) h0).2

theorem closed_reach (h : Reach ServiceLane.step (create impl hex diag) s) : s.Closed :=
  h.inv (fun _ _ _ h hs => h.step (step_sound hs))
    (⟨fun h => (nomatch h), fun h => (nomatch h)⟩ : (create impl hex diag : ServiceLane D).Closed)

/-- every item whose armed boundaries are polls has its invariant -/
theorem at_reach (h : Reach ServiceLane.step (create impl hex diag) s) {i : Nat} {it : Item D}
    (hi : s.admitted[i]? = some it) (ht : it.Tame) : (view i s).At it (s.loc i) :=
  (view_inv Life.kept_init (fun _ _ hk hs => hk.step hs) h i).2 it hi ht

/-- after the destructor every item has left the lane -/
theorem loc_returned (h : Reach ServiceLane.step (create impl hex diag) s)
    (hd : s.dtor = .returned) {i : Nat} (hi : i < s.admitted.length) : s.loc i = .retired := by
  have hf := fifo_reach h
  have hc := (closed_reach h).joined hd
  have hq := ((closed_reach h).exited hc).1
  have hlen : s.admitted.length ≤ s.popped := by
    have := hf.queue
    rw [hq] at this
    exact List.drop_eq_nil_iff.mp this.symm
  rw [loc_popped hi (by omega), hc]
  rfl

theorem mem_rows {i : Nat} {r : Result} : r ∈ s.rows i ↔ (i, r) ∈ s.produced := by
  unfold rows
  rw [List.mem_map]
  constructor
  · rintro ⟨⟨j, r'⟩, hx, rfl⟩
    obtain ⟨hx, hj⟩ := List.mem_filter.mp hx
    rw [← beq_iff_eq.mp hj]
    exact hx
  · intro hx
    exact ⟨(i, r), List.mem_filter.mpr ⟨hx, beq_self_eq_true i⟩, rfl⟩

/-- **Chunk accounting.**  Requests with a supported work mode, submitted in any way, with any calls
of `cancel()`: every promise is set once, the rows of the lane are in the order of admission, a
completed row has all chunks, a queued cancel none, a running cancel a strict part of them, and a
request without a token is completed. -/
theorem chunk_accounting (h : Reach ServiceLane.step (create impl hex diag) s)
    (hsup : ∀ it ∈ s.admitted, it.req.Supported) :
    (∀ i, i < s.admitted.length → (s.prom i).length + s.cancelling.count i ≤ 1 ∧
      (s.dtor = .returned → (s.prom i).length + s.cancelling.count i = 1)) ∧
    (s.produced.map (fun x => x.1)).Pairwise (· < ·) ∧
    (∀ i it r, s.admitted[i]? = some it → r ∈ s.prom i →
      (r.status = .completed ∧ (i, r) ∈ s.produced ∧ r.chunksCompleted = max it.req.chunks 1) ∨
      (it.cancelable = true ∧ r.status = .cancelled ∧
        (((i, r) ∉ s.produced ∧ r.chunksCompleted = 0) ∨
          ((i, r) ∈ s.produced ∧ 1 ≤ r.chunksCompleted ∧ r.chunksCompleted ≤ it.req.chunks - 1)))) := by
  have hat : ∀ i it, s.admitted[i]? = some it → (view i s).At it (s.loc i) :=
    fun i it hi => at_reach h hi (fun _ => Or.inl (hsup it (List.mem_of_getElem? hi)))
  refine ⟨?_, (order_reach h).sorted, ?_⟩
  · intro i hi
    have honce := (hat i _ (List.getElem?_eq_getElem hi)).once
    exact ⟨honce.1, fun hd => honce.2 (loc_returned h hd hi)⟩
  · intro i it r hi hr
    have hs := hsup it (List.mem_of_getElem? hi)
    rcases (hat i it hi).settled hr with ⟨_, hpr, he⟩ | ⟨hc, hskip⟩
    · have hmem : (i, r) ∈ s.produced := by
        rw [← mem_rows, show s.rows i = [r] from hpr]
        exact List.mem_singleton_self r
      rcases he with ⟨⟨_, hst, hch⟩ | ⟨hn, _⟩, _⟩ | ⟨hc, ⟨hst, h1, h2⟩, _⟩
      · rw [it.req.steps_eq] at hch
        exact Or.inl ⟨hst, hmem, hch⟩
      · exact absurd hs hn
      · rw [it.req.steps_eq] at h2
        exact Or.inr ⟨hc, hst, Or.inr ⟨hmem, h1, by omega⟩⟩
    · obtain ⟨_, _, _, hpr, hrows⟩ := hskip
      obtain ⟨hst, hch⟩ := hrows r hr
      have hmem : (i, r) ∉ s.produced := by
        rw [← mem_rows, show s.rows i = [] from hpr]
        exact List.not_mem_nil
      exact Or.inr ⟨hc, hst, Or.inl ⟨hmem, hch⟩⟩

end

end ServiceLane

end

namespace ServiceLane

/-- a cancel in the queue, a cancel after the first of two chunks, a request without a token, and
the destructor -/
def accountRun : List (Act Int) :=
  [.submit { chunks := 2 } true 0, .submit { chunks := 3 } true 0, .submitBulk [({}, 0)], .cancel 1,
    .cancelFulfil 1 5, .dtorBegin, .pop, .beginService, .start 6, .cancel 0, .serve 7, .serve 7,
    .finish 8, .setValue, .clearActive, .pop, .beginService, .clearActive, .pop, .beginService,
    .start 9, .serve 9, .finish 9, .setValue, .clearActive, .exit, .join]

theorem accountRun_returns : ∃ s, run ServiceLane.step (create .std "00000000" false) accountRun =
    some s ∧ (s.admitted.all fun it => decide it.req.Supported) = true ∧ s.dtor = .returned ∧
    s.admitted.length = 3 ∧ s.cancelling = [] :=
  ⟨_, rfl, rfl, rfl, rfl, rfl⟩

/-- the three promises of that run are set once -/
theorem chunk_accounting_three : ∃ s : ServiceLane Int,
    Reach ServiceLane.step (create .std "00000000" false) s ∧ s.dtor = .returned ∧
      ∀ i, i < 3 → (s.prom i).length = 1 := by
  obtain ⟨s, hrun, hsup, hd, hlen, hno⟩ := accountRun_returns
  have h : Reach ServiceLane.step (create .std "00000000" false) s := ⟨accountRun, hrun⟩
  refine ⟨s, h, hd, ?_⟩
  intro i hi
  have hall : ∀ it ∈ s.admitted, it.req.Supported :=
    fun it hit => of_decide_eq_true (List.all_eq_true.mp hsup it hit)
  have honce := ((chunk_accounting h hall).1 i (by omega)).2 hd
  rw [hno] at honce
  exact honce

end ServiceLane

end Harness

end RayX
