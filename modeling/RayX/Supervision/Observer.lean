import RayX.Lib.Run
import Mathlib.Algebra.Order.Floor.Semiring
import Mathlib.Data.Rat.Floor
import Mathlib.Tactic.Linarith

/-!
# Root-loss suspicion

`ExternalRootLifecycleObserver.observe_root_event` of the root-loss experiment: a polling loop over
the epoch-scoped completion witness and the token of the refreshed `root.alive`.  Time is monotonic and
exact: a rational stands for each double of `time.monotonic()`, and the silence `now - last_advance` and
the elapsed `now - t0` are exact differences where the source subtracts doubles.  Those two agree unless
one reading is more than twice the other, when the source may round by half a place.  Every clock reading,
stat and read has a moment of its own, in the order of the source, with any delay between two of them.

* `classifyRootEvent`   the injection-blind classifier;
* `Watch.poll`          one iteration; `ObserveCall.step` lets it start when the sleep is over;
* `poll_bound`          the number of polls is bounded;
* `Stamped`             no refresh is newer than the reading that it is stamped with;
* `root_observation`    **the call ends, a completion is a witness of this epoch and root, and a loss
                        of a stamped run is a silence of the bound**.
-/

namespace RayX
open Sys

namespace Supervision

/-! ## the classifier -/

/-- `pending` is the sentinel of the polling loop -/
inductive RootEvent where
  | explicitCompletion
  | suspectedRootLoss
  | observationError
  | observationTimeout
  | pending
  deriving DecidableEq, Repr

/-- the allow-listed fields; the structure admits no other -/
structure RootEvidence (V : Type) where
  epochId : Option V
  completionWitnessPresent : Bool
  completionWitnessEpochMatch : Bool
  expectedRefreshS : ℚ
  observedSilenceS : ℚ
  classificationBoundS : ℚ
  rootPidAlive : Bool
  witnessReadError : Bool
  observationDeadlineExceeded : Bool

def classifyRootEvent {V : Type} (ev : RootEvidence V) : RootEvent :=
  if ev.witnessReadError then .observationError
  else if ev.completionWitnessPresent && ev.completionWitnessEpochMatch then .explicitCompletion
  else if ev.classificationBoundS ≤ ev.observedSilenceS then .suspectedRootLoss
  else if ev.observationDeadlineExceeded then .observationTimeout
  else .pending

section
variable {V : Type}

theorem classify_completion {ev : RootEvidence V} (h : classifyRootEvent ev = .explicitCompletion) :
    ev.completionWitnessPresent = true ∧ ev.completionWitnessEpochMatch = true := by
  unfold classifyRootEvent at h
  split at h
  · cases h
  · split at h
    · rename_i hm
      exact Bool.and_eq_true_iff.mp hm
    · repeat' split at h
      all_goals cases h

theorem classify_loss {ev : RootEvidence V} (h : classifyRootEvent ev = .suspectedRootLoss) :
    ¬ (ev.completionWitnessPresent = true ∧ ev.completionWitnessEpochMatch = true) ∧
      ev.classificationBoundS ≤ ev.observedSilenceS := by
  unfold classifyRootEvent at h
  split at h
  · cases h
  · split at h
    · cases h
    · rename_i hm
      split at h
      · rename_i hb
        exact ⟨fun hh => hm (Bool.and_eq_true_iff.mpr hh), hb⟩
      · split at h <;> cases h

theorem classify_pending {ev : RootEvidence V} (h : classifyRootEvent ev = .pending) :
    ¬ (ev.completionWitnessPresent = true ∧ ev.completionWitnessEpochMatch = true) ∧
      ev.observationDeadlineExceeded = false := by
  unfold classifyRootEvent at h
  split at h
  · cases h
  · split at h
    · cases h
    · rename_i hm
      split at h
      · cases h
      · split at h
        · cases h
        · rename_i hd
          exact ⟨fun hh => hm (Bool.and_eq_true_iff.mpr hh), Bool.eq_false_iff.mpr hd⟩

end

/-! ## the witnesses -/

/-- `(st_mtime_ns, st_size, st_ino)` -/
structure WitnessToken where
  mtimeNs : Int
  size : Int
  ino : Int
  deriving DecidableEq, Repr

/-- a rewrite of `root.alive`, with the token that it leaves -/
structure Refresh where
  time : ℚ
  token : WitnessToken
  deriving DecidableEq

/-- a stat of `root.alive` with the refresh that is visible to it, `none` for an `OSError` -/
structure StatCall where
  time : ℚ
  seen : Option Refresh
  past : ∀ r, seen = some r → r.time ≤ time

/-- the document of `publish_completion`; a value or `None` is an `Option V` -/
structure Completion (V : Type) where
  epochId : Option V
  rootIdentity : Option V
  payload : Option V
  publishedWallMs : Int
  publishedMono : ℚ

/-- what `_read_completion` finds -/
inductive CompletionRead (V : Type) where
  | absent
  | unreadable
  | doc (d : Completion V)

/-- one iteration of the loop: the reading, the stat, the witness, the pid, the end -/
structure Poll (V : Type) where
  now : ℚ
  stat : StatCall
  completion : CompletionRead V
  rootPidAlive : Bool
  done : ℚ
  ordered : now ≤ stat.time ∧ stat.time ≤ done

/-- the reading and the stat before the loop -/
structure Opening where
  t0 : ℚ
  first : StatCall
  ordered : t0 ≤ first.time

/-! ## the observer -/

structure RootObserver where
  expectedRefreshS : ℚ
  boundS : ℚ
  pollS : ℚ
  bound_pos : 0 < boundS
  poll_pos : 0 < pollS

/-- the arguments of `observe_root_event` -/
structure ObserveCall (V : Type) where
  observer : RootObserver
  epoch : Option V
  rootIdentity : Option V
  bound : ℚ
  bound_pos : 0 < bound

/-- the returned record -/
structure Verdict (V : Type) where
  event : RootEvent
  evidence : RootEvidence V
  staleEpochsRejected : List (Option V)
  classificationElapsedS : ℚ
  lastAdvanceMonotonic : ℚ
  completionVerbatim : Option (Completion V)

/-- the variables of the loop, the end of the sleep, and what the stats and reads have seen so far -/
structure Watch (V : Type) where
  t0 : ℚ
  lastToken : Option WitnessToken
  lastAdvance : ℚ
  staleEpochs : List (Option V) := []
  verdict : Option (Verdict V) := none
  wake : ℚ
  lastStat : ℚ
  lastSeen : Option Refresh
  reads : List (Completion V) := []

section
variable {V : Type} [BEq V]

namespace CompletionRead

def present : CompletionRead V → Bool
  | .absent => false
  | _ => true

def verbatim : CompletionRead V → Option (Completion V)
  | .doc d => some d
  | _ => none

def readError : CompletionRead V → Bool
  | .unreadable => true
  | _ => false

/-- the epoch alone -/
def epochMatch (epoch : Option V) : CompletionRead V → Bool
  | .doc d => d.epochId == epoch
  | _ => false

end CompletionRead

namespace ObserveCall

/-- `doc.get("root_identity") not in (None, root_identity)`, for a root that is known -/
def otherRoot (c : ObserveCall V) (d : Completion V) : Bool :=
  c.rootIdentity.isSome && d.rootIdentity.isSome && !(d.rootIdentity == c.rootIdentity)

/-- a witness that names this epoch and no other root -/
def Names (c : ObserveCall V) (d : Completion V) : Prop :=
  (d.epochId == c.epoch) = true ∧ c.otherRoot d = false

/-- the match that the classifier sees -/
def matched (c : ObserveCall V) (r : CompletionRead V) : Bool :=
  r.epochMatch c.epoch &&
    match r with
    | .doc d => !c.otherRoot d
    | _ => true

def begin (_c : ObserveCall V) (o : Opening) : Watch V where
  t0 := o.t0
  lastToken := o.first.seen.map Refresh.token
  lastAdvance := o.t0
  wake := o.first.time
  lastStat := o.first.time
  lastSeen := o.first.seen

end ObserveCall

namespace Watch

/-- `token is not None and token != last_token` -/
def advances (w : Watch V) (p : Poll V) : Bool :=
  match p.stat.seen with
  | some r => decide (some r.token ≠ w.lastToken)
  | none => false

def nextToken (w : Watch V) (p : Poll V) : Option WitnessToken :=
  if w.advances p then p.stat.seen.map Refresh.token else w.lastToken

def nextAdvance (w : Watch V) (p : Poll V) : ℚ := if w.advances p then p.now else w.lastAdvance

def nextStale (c : ObserveCall V) (w : Watch V) (p : Poll V) : List (Option V) :=
  match p.completion.verbatim with
  | some d =>
    if !p.completion.epochMatch c.epoch && !w.staleEpochs.contains d.epochId then
      w.staleEpochs ++ [d.epochId]
    else w.staleEpochs
  | none => w.staleEpochs

def evidence (c : ObserveCall V) (w : Watch V) (p : Poll V) : RootEvidence V where
  epochId := c.epoch
  completionWitnessPresent := p.completion.present
  completionWitnessEpochMatch := c.matched p.completion
  expectedRefreshS := c.observer.expectedRefreshS
  -- exact, for the difference of two doubles
  observedSilenceS := p.now - w.nextAdvance p
  classificationBoundS := c.observer.boundS
  rootPidAlive := p.rootPidAlive
  witnessReadError := p.completion.readError || (p.stat.seen.isNone && (w.nextToken p).isNone)
  observationDeadlineExceeded := decide (c.bound ≤ p.now - w.t0)

/-- what the iteration returns, `none` on the sentinel -/
def returned (c : ObserveCall V) (w : Watch V) (p : Poll V) : Option (Verdict V) :=
  let event := classifyRootEvent (w.evidence c p)
  if event = .pending then none
  else some {
    event := event
    evidence := w.evidence c p
    staleEpochsRejected := w.nextStale c p
    classificationElapsedS := p.done - w.t0
    lastAdvanceMonotonic := w.nextAdvance p
    completionVerbatim := if event = .explicitCompletion then p.completion.verbatim else none }

/-- one iteration and the sleep -/
def poll (c : ObserveCall V) (w : Watch V) (p : Poll V) : Watch V where
  t0 := w.t0
  lastToken := w.nextToken p
  lastAdvance := w.nextAdvance p
  staleEpochs := w.nextStale c p
  verdict := w.returned c p
  wake := p.done + c.observer.pollS
  lastStat := p.stat.time
  lastSeen := p.stat.seen.or w.lastSeen
  reads := w.reads ++ p.completion.verbatim.toList

end Watch

/-- the next iteration; there is none after the return -/
def ObserveCall.step (c : ObserveCall V) (w : Watch V) (p : Poll V) : Option (Watch V) :=
  if w.verdict.isNone ∧ w.wake ≤ p.now then some (w.poll c p) else none

/-! ## one iteration -/

variable {c : ObserveCall V} {o : Opening} {w w' : Watch V} {p : Poll V}

theorem step_eq (h : c.step w p = some w') :
    w.verdict = none ∧ w.wake ≤ p.now ∧ w' = w.poll c p := by
  unfold ObserveCall.step at h
  split at h
  · rename_i hc
    exact ⟨Option.isNone_iff_eq_none.mp hc.1, hc.2, (Option.some.inj h).symm⟩
  · cases h

/-- the classifier sees a match exactly for a witness of this epoch and root -/
theorem matched_iff (c : ObserveCall V) (p : Poll V) :
    (p.completion.present = true ∧ c.matched p.completion = true) ↔
      ∃ d ∈ p.completion.verbatim, c.Names d := by
  unfold ObserveCall.matched
  cases p.completion with
  | absent => exact ⟨fun h => (nomatch h.1), fun ⟨_, h, _⟩ => (nomatch h)⟩
  | unreadable => exact ⟨fun h => (nomatch h.2), fun ⟨_, h, _⟩ => (nomatch h)⟩
  | doc d =>
    simp [CompletionRead.present, CompletionRead.epochMatch, CompletionRead.verbatim,
      ObserveCall.Names]

theorem returned_event {v : Verdict V} (h : w.returned c p = some v) :
    v.event = classifyRootEvent (w.evidence c p) := by
  simp only [Watch.returned, Option.ite_none_left_eq_some, Option.some.injEq] at h
  rw [← h.2]

/-- the witness of a completion is returned with it -/
theorem returned_verbatim {v : Verdict V} (h : w.returned c p = some v) :
    v.completionVerbatim = if classifyRootEvent (w.evidence c p) = .explicitCompletion then
      p.completion.verbatim else none := by
  simp only [Watch.returned, Option.ite_none_left_eq_some, Option.some.injEq] at h
  rw [← h.2]

theorem returned_none (h : w.returned c p = none) :
    classifyRootEvent (w.evidence c p) = .pending := by
  by_contra hp
  rw [Watch.returned, if_neg hp] at h
  cases h

/-! ## every run -/

/-- the times of a run, and what its reads tell -/
structure Watched (c : ObserveCall V) (o : Opening) (ps : List (Poll V)) (w : Watch V) : Prop where
  start : w.t0 = o.t0
  slept : o.t0 + ps.length * c.observer.pollS ≤ w.wake
  undecided : w.verdict = none → ps.length * c.observer.pollS < c.bound + c.observer.pollS
  stat : w.lastStat ≤ w.wake
  past : ∀ r, w.lastSeen = some r → r.time ≤ w.lastStat
  token : ∀ r, w.lastSeen = some r → w.lastToken = some r.token
  unread : w.verdict = none → ∀ d ∈ w.reads, ¬ c.Names d
  completed : ∀ v, w.verdict = some v → v.event = .explicitCompletion →
    ∃ d ∈ w.reads, c.Names d ∧ v.completionVerbatim = some d
  lost : ∀ v, w.verdict = some v → v.event = .suspectedRootLoss →
    (∀ d ∈ w.reads, ¬ c.Names d) ∧ w.lastAdvance + c.observer.boundS ≤ w.lastStat

theorem watched_begin (c : ObserveCall V) (o : Opening) : Watched c o [] (c.begin o) where
  start := rfl
  slept := by
    show o.t0 + ((0 : Nat) : ℚ) * c.observer.pollS ≤ o.first.time
    have := o.ordered
    push_cast
    linarith
  undecided := by
    intro _
    have h1 := c.bound_pos
    have h2 := c.observer.poll_pos
    show ((0 : Nat) : ℚ) * c.observer.pollS < _
    push_cast
    linarith
  stat := le_refl _
  past := o.first.past
  token := by
    intro r hr
    show o.first.seen.map Refresh.token = _
    rw [show o.first.seen = some r from hr]
    rfl
  unread := fun _ _ h => nomatch h
  completed := fun _ h => nomatch h
  lost := fun _ h => nomatch h

omit [BEq V] in
theorem next_cases (w : Watch V) (p : Poll V) :
    (p.stat.seen = none ∧ w.nextToken p = w.lastToken ∧ w.nextAdvance p = w.lastAdvance) ∨
    ∃ r, p.stat.seen = some r ∧ w.nextToken p = some r.token ∧
      w.nextAdvance p = if some r.token = w.lastToken then w.lastAdvance else p.now := by
  unfold Watch.nextToken Watch.nextAdvance Watch.advances
  cases p.stat.seen with
  | none => exact Or.inl ⟨rfl, rfl, rfl⟩
  | some r =>
    refine Or.inr ⟨r, rfl, ?_, ?_⟩
    · by_cases h : some r.token = w.lastToken
      · simp [h]
      · simp [h]
    · by_cases h : some r.token = w.lastToken
      · simp [h]
      · simp [h]

theorem Watched.poll {ps : List (Poll V)} (h : Watched c o ps w) (hs : c.step w p = some w') :
    Watched c o (ps ++ [p]) w' := by
  obtain ⟨hopen, hwake, rfl⟩ := step_eq hs
  obtain ⟨hstat, hdone⟩ := p.ordered
  have hlen : ((ps ++ [p]).length : ℚ) = ps.length + 1 := by
    rw [List.length_append, List.length_singleton]
    push_cast
    rfl
  have hslept := h.slept
  have hunread := h.unread hopen
  -- the reads of the run are those before and the one of this poll
  have hreads : (¬ ∃ d ∈ p.completion.verbatim, c.Names d) →
      ∀ d ∈ w.reads ++ p.completion.verbatim.toList, ¬ c.Names d := by
    intro hno d hd
    rcases List.mem_append.mp hd with hd | hd
    · exact hunread d hd
    · exact fun hn => hno ⟨d, Option.mem_toList.mp hd, hn⟩
  refine ⟨h.start, ?_, ?_, ?_, ?_, ?_, ?_, ?_, ?_⟩
  · rw [hlen]
    show _ ≤ p.done + c.observer.pollS
    linarith
  · intro hv
    have hdead := (classify_pending (returned_none hv)).2
    have hlate : ¬ c.bound ≤ p.now - w.t0 := of_decide_eq_false hdead
    rw [hlen]
    have hstart := h.start
    rw [hstart] at hlate
    linarith
  · show p.stat.time ≤ p.done + c.observer.pollS
    have := c.observer.poll_pos
    linarith
  · intro r hr
    have hr' : p.stat.seen.or w.lastSeen = some r := hr
    show r.time ≤ p.stat.time
    cases hseen : p.stat.seen with
    | some r' =>
      rw [hseen] at hr'
      cases hr'
      exact p.stat.past r hseen
    | none =>
      rw [hseen, Option.none_or] at hr'
      have h1 := h.past r hr'
      have h2 := h.stat
      linarith
  · intro r hr
    have hr' : p.stat.seen.or w.lastSeen = some r := hr
    show w.nextToken p = some r.token
    rcases next_cases w p with ⟨hseen, htok, _⟩ | ⟨r', hseen, htok, _⟩
    · rw [hseen, Option.none_or] at hr'
      rw [htok]
      exact h.token r hr'
    · rw [hseen] at hr'
      cases hr'
      exact htok
  · intro hv
    have hno := (classify_pending (returned_none hv)).1
    exact hreads (fun hm => hno ((matched_iff c p).mpr hm))
  · intro v hv he
    rw [returned_event hv] at he
    obtain ⟨d, hd, hn⟩ := (matched_iff c p).mp (classify_completion he)
    refine ⟨d, List.mem_append_right _ (Option.mem_toList.mpr hd), hn, ?_⟩
    rw [returned_verbatim hv, if_pos he]
    exact hd
  · intro v hv he
    rw [returned_event hv] at he
    obtain ⟨hno, hsilent⟩ := classify_loss he
    refine ⟨hreads (fun hm => hno ((matched_iff c p).mpr hm)), ?_⟩
    have hb : c.observer.boundS ≤ p.now - w.nextAdvance p := hsilent
    show w.nextAdvance p + c.observer.boundS ≤ p.stat.time
    linarith

theorem watched_run {ps : List (Poll V)} (h : run c.step (c.begin o) ps = some w) :
    Watched c o ps w :=
  run_history (P := Watched c o) (C := fun _ _ => True)
    (fun _ _ _ _ _ hw _ hs => hw.poll hs) (watched_begin c o)
    (stepsMeet_labels c.step (fun _ => True) _ (fun _ _ => trivial)) h

/-- **The number of polls is bounded.** -/
theorem poll_bound {ps : List (Poll V)} (h : run c.step (c.begin o) ps = some w) :
    ps.length ≤ ⌈c.bound / c.observer.pollS⌉₊ + 1 := by
  rcases List.eq_nil_or_concat ps with rfl | ⟨ps, p, rfl⟩
  · exact Nat.zero_le _
  · rw [List.concat_eq_append] at h ⊢
    obtain ⟨m, hm, hp⟩ := run_append.mp h
    obtain ⟨m', hstep, _⟩ := run_cons.mp hp
    have hlate := (watched_run hm).undecided (step_eq hstep).1
    have hpos := c.observer.poll_pos
    have hlt : ((ps.length : Nat) : ℚ) - 1 < c.bound / c.observer.pollS := by
      rw [lt_div_iff₀ hpos]
      linarith
    have hceil := Nat.le_ceil (c.bound / c.observer.pollS)
    have hcount : ((ps.length : Nat) : ℚ) < ⌈c.bound / c.observer.pollS⌉₊ + 1 := by linarith
    rw [List.length_append, List.length_singleton]
    exact_mod_cast hcount

/-! ## stamped runs -/

/-- the refresh that a stat sees is not newer than the reading it is stamped with: the one before the
stat for a new token, the one of the last advance for the token that is known -/
def Watch.Stamped (w : Watch V) (p : Poll V) : Prop :=
  ∀ r, p.stat.seen = some r →
    if some r.token = w.lastToken then r.time ≤ w.lastAdvance else r.time ≤ p.now

def Opening.Stamped (o : Opening) : Prop := ∀ r, o.first.seen = some r → r.time ≤ o.t0

theorem stamped_run (ho : o.Stamped) {ps : List (Poll V)} (h : run c.step (c.begin o) ps = some w)
    (hst : stepsMeet c.step Watch.Stamped (c.begin o) ps) :
    ∀ r, w.lastSeen = some r → r.time ≤ w.lastAdvance := by
  refine run_inv_of (P := fun w : Watch V => ∀ r, w.lastSeen = some r → r.time ≤ w.lastAdvance) ?_ h hst ho
  intro w p w' hw hC hs
  obtain ⟨_, _, rfl⟩ := step_eq hs
  intro r hr
  have hr' : p.stat.seen.or w.lastSeen = some r := hr
  show r.time ≤ w.nextAdvance p
  rcases next_cases w p with ⟨hseen, _, hadv⟩ | ⟨r', hseen, _, hadv⟩
  · rw [hseen, Option.none_or] at hr'
    rw [hadv]
    exact hw r hr'
  · rw [hseen] at hr'
    cases hr'
    have hC' := hC r hseen
    rw [hadv]
    split
    · rename_i he
      rw [if_pos he] at hC'
      exact hC'
    · rename_i he
      rw [if_neg he] at hC'
      exact hC'

/-- a refresh with too early a stamp, still fresh: the next poll may suspect a loss too early -/
theorem misstamped_loss {ps : List (Poll V)} (h : run c.step (c.begin o) ps = some w)
    (hopen : w.verdict = none) {r : Refresh} (hr : w.lastSeen = some r)
    (hearly : w.lastAdvance < r.time) (hfresh : w.wake < r.time + c.observer.boundS) :
    ∃ p w' v, c.step w p = some w' ∧ w'.verdict = some v ∧ v.event = .suspectedRootLoss ∧
      w'.lastSeen = some r ∧ w'.lastStat < r.time + c.observer.boundS := by
  have hw := watched_run h
  -- the next reading is as soon as the silence is the bound
  obtain ⟨now, hnow, hsil, hlt⟩ : ∃ now, w.wake ≤ now ∧
      w.lastAdvance + c.observer.boundS ≤ now ∧ now < r.time + c.observer.boundS :=
    ⟨max w.wake (w.lastAdvance + c.observer.boundS), le_max_left _ _, le_max_right _ _,
      max_lt hfresh (by linarith)⟩
  have hpast : r.time ≤ now := le_trans (hw.past r hr) (le_trans hw.stat hnow)
  let p : Poll V := {
    now := now
    stat := { time := now, seen := some r, past := by intro r' hr'; cases hr'; exact hpast }
    completion := .absent
    rootPidAlive := true
    done := now
    ordered := ⟨le_refl now, le_refl now⟩ }
  obtain ⟨r', hseen, htok, hadv⟩ : ∃ r', p.stat.seen = some r' ∧ w.nextToken p = some r'.token ∧
      w.nextAdvance p = if some r'.token = w.lastToken then w.lastAdvance else p.now := by
    rcases next_cases w p with ⟨hseen, _⟩ | hnext
    · cases hseen
    · exact hnext
  cases hseen
  rw [if_pos (hw.token r hr).symm] at hadv
  have hev : classifyRootEvent (w.evidence c p) = .suspectedRootLoss := by
    have hsilent : c.observer.boundS ≤ p.now - w.nextAdvance p := by
      rw [hadv]
      show c.observer.boundS ≤ now - w.lastAdvance
      linarith
    show (if false || (false && (w.nextToken p).isNone) then RootEvent.observationError
      else if false && c.matched p.completion then .explicitCompletion
      else if c.observer.boundS ≤ p.now - w.nextAdvance p then .suspectedRootLoss
      else if decide (c.bound ≤ p.now - w.t0) then .observationTimeout else .pending) = _
    rw [Bool.false_and, Bool.false_and, Bool.false_or, if_neg Bool.false_ne_true,
      if_neg Bool.false_ne_true, if_pos hsilent]
  obtain ⟨v, hv⟩ : ∃ v, w.returned c p = some v := by
    unfold Watch.returned
    rw [hev]
    exact ⟨_, rfl⟩
  refine ⟨p, w.poll c p, v, ?_, hv, ?_, rfl, hlt⟩
  · unfold ObserveCall.step
    rw [if_pos ⟨by rw [hopen]; rfl, hnow⟩]
  · rw [returned_event hv, hev]

/-- **Root-loss suspicion.**  The polls are bounded and none is refused before the return.  A
completion comes with a witness that was read and names this epoch and no other root, a loss with no
such witness; in a stamped run the latest refresh that the stats have seen is at least the bound older
than the last stat.  A refresh with too early a stamp that is still fresh is one poll away from a loss
that comes too early. -/
theorem root_observation (c : ObserveCall V) (o : Opening) :
    (∃ n, ∀ ps w, run c.step (c.begin o) ps = some w → ps.length ≤ n) ∧
    (∀ ps w, run c.step (c.begin o) ps = some w →
      (w.verdict = none → ∀ p, w.wake ≤ p.now → ∃ w', c.step w p = some w') ∧
      ∀ v, w.verdict = some v →
        (v.event = .explicitCompletion →
          ∃ d ∈ w.reads, c.Names d ∧ v.completionVerbatim = some d) ∧
        (v.event = .suspectedRootLoss → (∀ d ∈ w.reads, ¬ c.Names d) ∧
          (o.Stamped → stepsMeet c.step Watch.Stamped (c.begin o) ps →
            ∀ r, w.lastSeen = some r → r.time + c.observer.boundS ≤ w.lastStat))) ∧
    ∀ ps w, run c.step (c.begin o) ps = some w → w.verdict = none → ∀ r, w.lastSeen = some r →
      w.lastAdvance < r.time → w.wake < r.time + c.observer.boundS →
      ∃ p w' v, c.step w p = some w' ∧ w'.verdict = some v ∧ v.event = .suspectedRootLoss ∧
        w'.lastSeen = some r ∧ w'.lastStat < r.time + c.observer.boundS := by
  refine ⟨⟨_, fun ps w h => poll_bound h⟩, ?_, fun ps w h hopen r hr => misstamped_loss h hopen hr⟩
  intro ps w h
  have hw := watched_run h
  refine ⟨?_, ?_⟩
  · intro hopen p hp
    refine ⟨w.poll c p, ?_⟩
    unfold ObserveCall.step
    rw [if_pos ⟨by rw [hopen]; rfl, hp⟩]
  · intro v hv
    refine ⟨hw.completed v hv, ?_⟩
    intro he
    obtain ⟨hno, hsilent⟩ := hw.lost v hv he
    refine ⟨hno, ?_⟩
    intro ho hst r hr
    have hstamp := stamped_run ho h hst r hr
    linarith

end

/-- the documented bounds -/
def lossCall : ObserveCall String where
  observer := { expectedRefreshS := 1 / 5, boundS := 5, pollS := 1 / 20, bound_pos := by norm_num,
                poll_pos := by norm_num }
  epoch := some "epoch-1"
  rootIdentity := some "root-1"
  bound := 30
  bound_pos := by norm_num

/-- a refresh at 4.9 s -/
def lateRefresh : Refresh where
  time := 49 / 10
  token := { mtimeNs := 1, size := 0, ino := 1 }

/-- the stat before the loop is asked at 0 s and answered at 4.9 s -/
def slowOpening : Opening where
  t0 := 0
  first := { time := 49 / 10, seen := some lateRefresh,
             past := by intro r hr; cases hr; exact le_refl _ }
  ordered := by norm_num

/-- the first poll, 0.1 s later -/
def earlyPoll : Poll String where
  now := 5
  stat := { time := 5, seen := some lateRefresh,
            past := by intro r hr; cases hr; show (49 / 10 : ℚ) ≤ 5; norm_num }
  completion := .absent
  rootPidAlive := true
  done := 5
  ordered := ⟨le_refl _, le_refl _⟩

theorem earlyPoll_returns : ∃ w v, run lossCall.step (lossCall.begin slowOpening) [earlyPoll] = some w ∧
    w.verdict = some v ∧ v.event = .suspectedRootLoss ∧ w.lastSeen = some lateRefresh ∧
    w.lastStat = 5 := by
  have hloss : classifyRootEvent ((lossCall.begin slowOpening).evidence lossCall earlyPoll) =
      .suspectedRootLoss := by decide +kernel
  have hwake : (lossCall.begin slowOpening).wake ≤ earlyPoll.now := by decide +kernel
  obtain ⟨v, hv⟩ : ∃ v, (lossCall.begin slowOpening).returned lossCall earlyPoll = some v := by
    unfold Watch.returned
    rw [hloss]
    exact ⟨_, rfl⟩
  refine ⟨(lossCall.begin slowOpening).poll lossCall earlyPoll, v, ?_, hv, ?_, rfl, rfl⟩
  · refine run_cons.mpr ⟨_, ?_, rfl⟩
    unfold ObserveCall.step
    rw [if_pos ⟨rfl, hwake⟩]
  · rw [returned_event hv, hloss]

/-- a loss 0.1 s after a refresh -/
theorem root_observation_early : ¬ ∀ ps w v r,
    run lossCall.step (lossCall.begin slowOpening) ps = some w → w.verdict = some v →
    v.event = .suspectedRootLoss → w.lastSeen = some r →
    r.time + lossCall.observer.boundS ≤ w.lastStat := by
  intro h
  obtain ⟨w, v, hrun, hv, he, hr, hstat⟩ := earlyPoll_returns
  have hbound := h _ w v _ hrun hv he hr
  rw [hstat] at hbound
  exact absurd hbound (by decide +kernel)

end Supervision

end RayX
